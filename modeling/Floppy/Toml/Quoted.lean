import Floppy.Toml.Scalar

/-!
# Strings and keys

Strings in double quotes know escapes, those in single quotes do not; three quotes let a string run over
several lines.
-/
namespace Floppy.Toml

/-- What may stand in strings and comments: no control characters but the tab. -/
def isPlain (c : Char) : Bool := c = '\t' || (' ' ≤ c && c ≠ '\x7f')

def newline? : List Char → Option (List Char)
  | '\n' :: rest => some rest
  | '\r' :: '\n' :: rest => some rest
  | _ => none

def isBlankChar (c : Char) : Bool := c = ' ' || c = '\t'

def skipBlank (text : List Char) : List Char := text.dropWhile isBlankChar

/-- The character whose number stands at the front in so many hex digits, and the text after it. -/
def numbered? (size : Nat) (text : List Char) : Option (Char × List Char) :=
  let digits := text.take size
  let n := valueOf 16 digits
  if digits.length = size ∧ (digits.all fun c => (Hex.charDigit? c).isSome) ∧ n.isValidChar then
    some (Char.ofNat n, text.drop size)
  else none

/-- The character that an escape stands for, and the text after it. -/
def escape? : List Char → Option (Char × List Char)
  | 'b' :: rest => some ('\x08', rest)
  | 't' :: rest => some ('\t', rest)
  | 'n' :: rest => some ('\n', rest)
  | 'f' :: rest => some ('\x0c', rest)
  | 'r' :: rest => some ('\r', rest)
  | '"' :: rest => some ('"', rest)
  | '\\' :: rest => some ('\\', rest)
  | 'u' :: rest => numbered? 4 rest
  | 'U' :: rest => numbered? 8 rest
  | _ => none

/-- The text after white space that a backslash at the end of a line takes away. -/
def skipFolded : List Char → List Char
  | [] => []
  | '\r' :: '\n' :: rest => skipFolded rest
  | c :: rest => if c = '\n' || isBlankChar c then skipFolded rest else c :: rest

/-- How a string is written. -/
structure Style where
  quote : Char
  multiline : Bool

def quotes (quote : Char) (text : List Char) : Nat := (text.takeWhile (· = quote)).length

/-- The rest of a string after its opening quotes, and the text after it. -/
def stringRest (style : Style) : (fuel : Nat) → List Char → Option (List Char × List Char)
  | 0, _ => none
  | _ + 1, [] => none
  | fuel + 1, c :: rest =>
    if c = style.quote then
      if style.multiline then
        let run := quotes style.quote (c :: rest)
        if run < 3 then
          (stringRest style fuel ((c :: rest).drop run)).map fun (s, r) => (List.replicate run c ++ s, r)
        else some (List.replicate (min (run - 3) 2) c, (c :: rest).drop (min run 5))
      else some ([], rest)
    else if c = '\\' ∧ style.quote = '"' then
      match escape? rest with
      | some (e, after) => (stringRest style fuel after).map fun (s, r) => (e :: s, r)
      | none =>
        if style.multiline then
          match newline? (skipBlank rest) with
          | some after => stringRest style fuel (skipFolded after)
          | none => none
        else none
    else if isPlain c then (stringRest style fuel rest).map fun (s, r) => (c :: s, r)
    else if style.multiline then
      match newline? (c :: rest) with
      | some after => (stringRest style fuel after).map fun (s, r) => ('\n' :: s, r)
      | none => none
    else none

def lineString? (fuel : Nat) : List Char → Option (List Char × List Char)
  | '"' :: rest => stringRest ⟨'"', false⟩ fuel rest
  | '\'' :: rest => stringRest ⟨'\'', false⟩ fuel rest
  | _ => none

/-- The end of a line right after three opening quotes does not count. -/
def skipFirstNewline (text : List Char) : List Char := (newline? text).getD text

def string? (fuel : Nat) : List Char → Option (List Char × List Char)
  | '"' :: '"' :: '"' :: rest => stringRest ⟨'"', true⟩ fuel (skipFirstNewline rest)
  | '\'' :: '\'' :: '\'' :: rest => stringRest ⟨'\'', true⟩ fuel (skipFirstNewline rest)
  | text => lineString? fuel text

def isBareKeyChar (c : Char) : Bool := c.isAlphanum || c = '_' || c = '-'

/-- A key without dots. -/
def simpleKey? (fuel : Nat) (text : List Char) : Option (String × List Char) :=
  match text with
  | '"' :: _ => (lineString? fuel text).map fun (s, r) => (String.ofList s, r)
  | '\'' :: _ => (lineString? fuel text).map fun (s, r) => (String.ofList s, r)
  | _ =>
    match text.takeWhile isBareKeyChar with
    | [] => none
    | name => some (String.ofList name, text.dropWhile isBareKeyChar)

/-- A key with its dots; blanks may stand around each part. -/
def keyParts? : (fuel : Nat) → List Char → Option (List String × List Char)
  | 0, _ => none
  | fuel + 1, text =>
    match simpleKey? fuel (skipBlank text) with
    | none => none
    | some (name, rest) =>
      match skipBlank rest with
      | '.' :: rest => (keyParts? fuel rest).map fun (names, r) => (name :: names, r)
      | rest => some ([name], rest)

/-- How deep tables and arrays may lie in one another, and how many parts a key may have. -/
def maxDepth : Nat := 79

/-- The parts of a key before its last one, the last one, and the text after the key. -/
def key? (fuel : Nat) (text : List Char) : Option (List String × String × List Char) :=
  match keyParts? fuel text with
  | some (names, rest) =>
    if maxDepth < names.length then none
    else names.getLast?.map fun last => (names.dropLast, last, rest)
  | none => none

end Floppy.Toml
