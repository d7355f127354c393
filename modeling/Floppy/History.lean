/-!
# Histories

The most recent entries, up to a fixed number, oldest first.
-/
namespace Floppy

structure History (α : Type) where
  capacity : Nat
  entries : List α := []
deriving Repr

namespace History
variable {α : Type}

/-- The oldest entries make room. -/
def push (h : History α) (a : α) : History α :=
  { h with entries := (h.entries ++ [a]).drop (h.entries.length + 1 - h.capacity) }

def clear (h : History α) : History α := { h with entries := [] }

def last? (h : History α) : Option α := h.entries.getLast?

end History
end Floppy
