/-!
# Playback

A fixed run of bytes that is given out one byte at a time.
-/
namespace Floppy

structure Playback (size : Nat) where
  bytes : Vector UInt8 size
  position : Nat
  position_le : position ≤ size := by omega
deriving DecidableEq, Repr

namespace Playback
variable {size : Nat}

def ofVector (bytes : Vector UInt8 size) : Playback size := ⟨bytes, 0, Nat.zero_le _⟩

def remaining (p : Playback size) : Nat := size - p.position

def isDone (p : Playback size) : Bool := p.position = size

def next? (p : Playback size) : Option (UInt8 × Playback size) :=
  if h : p.position < size then some (p.bytes[p.position], ⟨p.bytes, p.position + 1, h⟩) else none

/-- The next bytes, as many as asked for or as there are. -/
def take : Nat → Playback size → List UInt8 × Playback size
  | 0, p => ([], p)
  | count + 1, p =>
    match p.next? with
    | none => ([], p)
    | some (b, rest) =>
      let (bytes, rest) := take count rest
      (b :: bytes, rest)

end Playback
end Floppy
