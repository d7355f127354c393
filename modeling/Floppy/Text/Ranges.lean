/-!
# Ranges of characters
-/
namespace Floppy.Text

/-- Closed ranges of code points, in ascending order. -/
abbrev Ranges := List (Nat × Nat)

/-- Whether a character lies in one of the ranges. Past the character there is nothing to look for. -/
def Ranges.covers : Ranges → Char → Bool
  | [], _ => false
  | (first, last) :: rest, c => first ≤ c.toNat && (c.toNat ≤ last || covers rest c)

end Floppy.Text
