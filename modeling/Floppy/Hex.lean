/-!
# Hexadecimal digits as bytes

Digits are read in either case and written in lower case.
-/
namespace Floppy.Hex

def digit? (c : UInt8) : Option UInt8 :=
  if 48 ≤ c ∧ c ≤ 57 then some (c - 48)
  else if 97 ≤ c ∧ c ≤ 102 then some (c - 87)
  else if 65 ≤ c ∧ c ≤ 70 then some (c - 55)
  else none

/-- The value of a character that is a digit; all others, also beyond ASCII, have none. -/
def charDigit? (c : Char) : Option UInt8 :=
  if c.toNat < 128 then digit? (UInt8.ofNat c.toNat) else none

def digit (n : UInt8) : UInt8 :=
  let v := n &&& 0x0F
  if v < 10 then v + 48 else v + 87

def pair (b : UInt8) : List UInt8 := [digit (b >>> 4), digit b]

def word (w : UInt32) : List UInt8 :=
  pair (w >>> 24).toUInt8 ++ pair (w >>> 16).toUInt8 ++ pair (w >>> 8).toUInt8 ++ pair w.toUInt8

def text (bytes : List UInt8) : List UInt8 := bytes.flatMap pair

/-- The digits of all bytes, with a blank after every eighth byte that is not the last. -/
def dump (bytes : List UInt8) : List UInt8 :=
  match bytes with
  | [] => []
  | b :: rest => text ((b :: rest).take 8) ++
      (if (b :: rest).drop 8 = [] then [] else 32 :: dump ((b :: rest).drop 8))
termination_by bytes.length
decreasing_by simp only [List.length_drop, List.length_cons]; omega

end Floppy.Hex
