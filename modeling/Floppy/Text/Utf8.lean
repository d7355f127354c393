/-!
# UTF-8

Bytes are cut into characters and faults. A fault is the longest start of a character that goes no further,
or a single byte that starts none.
-/
namespace Floppy.Text.Utf8

/-- How many bytes a character has that starts with this one, none if no character does. -/
def width (b : UInt8) : Nat :=
  if b < 0x80 then 1
  else if b < 0xC2 then 0
  else if b < 0xE0 then 2
  else if b < 0xF0 then 3
  else if b < 0xF5 then 4
  else 0

def isTail (b : UInt8) : Bool := b &&& 0xC0 = 0x80

/-- Whether the second byte can follow the first. This keeps out overlong forms, surrogates and what lies
past the last code point. -/
def canFollow (first second : UInt8) : Bool :=
  isTail second &&
    (if first = 0xE0 then 0xA0 ≤ second
      else if first = 0xED then second ≤ 0x9F
      else if first = 0xF0 then 0x90 ≤ second
      else if first = 0xF4 then second ≤ 0x8F
      else true)

def tailBits (b : UInt8) : Nat := (b &&& 0x3F).toNat

/-- The character at the front, or none for a fault, and how many bytes it takes after the first. -/
def step (first : UInt8) (rest : List UInt8) : Option Char × Nat :=
  match width first, rest with
  | 1, _ => (some (Char.ofNat first.toNat), 0)
  | 2, b :: _ =>
    if canFollow first b then (some (Char.ofNat ((first &&& 0x1F).toNat * 64 + tailBits b)), 1)
    else (none, 0)
  | 3, b :: rest =>
    if canFollow first b then
      match rest with
      | c :: _ =>
        if isTail c then
          (some (Char.ofNat (((first &&& 0x0F).toNat * 64 + tailBits b) * 64 + tailBits c)), 2)
        else (none, 1)
      | [] => (none, 1)
    else (none, 0)
  | 4, b :: rest =>
    if canFollow first b then
      match rest with
      | c :: rest =>
        if isTail c then
          match rest with
          | d :: _ =>
            if isTail d then
              (some (Char.ofNat ((((first &&& 0x07).toNat * 64 + tailBits b) * 64 + tailBits c) * 64 +
                tailBits d)), 3)
            else (none, 2)
          | [] => (none, 2)
        else (none, 1)
      | [] => (none, 1)
    else (none, 0)
  | _, _ => (none, 0)

def scan : List UInt8 → List (Option Char)
  | [] => []
  | first :: rest => (step first rest).1 :: scan (rest.drop (step first rest).2)
termination_by bytes => bytes.length
decreasing_by simp only [List.length_drop, List.length_cons]; omega

/-- A replacement character stands for each fault. -/
def decodeLossy (bytes : List UInt8) : List Char := (scan bytes).map (·.getD '\ufffd')

def decode? (bytes : List UInt8) : Option (List Char) := (scan bytes).mapM id

end Floppy.Text.Utf8
