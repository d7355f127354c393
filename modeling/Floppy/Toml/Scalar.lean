import Floppy.Hex
import Floppy.Toml.Value

/-!
# Numbers, dates and words

A scalar that is not a string is one run of characters, which is read as a whole.
-/
namespace Floppy.Toml

def isScalarChar (c : Char) : Bool :=
  c.isAlphanum || c = '+' || c = '-' || c = '_' || c = '.' || c = ':'

/-- The digits of a numeral in which single underscores may stand between digits. -/
def digits? (isDigit : Char → Bool) : List Char → Option (List Char)
  | [] => none
  | [c] => if isDigit c then some [c] else none
  | c :: '_' :: rest => if isDigit c then (digits? isDigit rest).map (c :: ·) else none
  | c :: rest => if isDigit c then (digits? isDigit rest).map (c :: ·) else none

def valueOf (base : Nat) (digits : List Char) : Nat :=
  digits.foldl (fun n c => n * base + ((Hex.charDigit? c).getD 0).toNat) 0

/-- The number that digits make, if it does not come past the limit; beyond, it does not grow any more. -/
def valueUpTo (limit base : Nat) (digits : List Char) : Nat :=
  digits.foldl (fun n c => if n ≤ limit then n * base + ((Hex.charDigit? c).getD 0).toNat else n) 0

/-- Decimal digits without a leading zero. -/
def plainDigits? (text : List Char) : Option (List Char) :=
  (digits? Char.isDigit text).bind fun ds =>
    match ds with
    | '0' :: _ :: _ => none
    | _ => some ds

def integerLimit : Nat := 1 <<< 63

def positive? (base : Nat) (digits : List Char) : Option Int :=
  let n := valueUpTo integerLimit base digits
  if n < integerLimit then some n else none

def negative? (digits : List Char) : Option Int :=
  let n := valueUpTo integerLimit 10 digits
  if n ≤ integerLimit then some (-n) else none

/-- Integers have 64 bits; other bases than ten take no sign. -/
def integer? : List Char → Option Int
  | '0' :: 'x' :: rest => (digits? (fun c => (Hex.charDigit? c).isSome) rest).bind (positive? 16)
  | '0' :: 'o' :: rest => (digits? (fun c => c.isDigit && c < '8') rest).bind (positive? 8)
  | '0' :: 'b' :: rest => (digits? (fun c => c = '0' || c = '1') rest).bind (positive? 2)
  | '+' :: rest => (plainDigits? rest).bind (positive? 10)
  | '-' :: rest => (plainDigits? rest).bind negative?
  | text => (plainDigits? text).bind (positive? 10)

def dropSign : List Char → List Char
  | '+' :: rest => rest
  | '-' :: rest => rest
  | text => text

/-- An exponent grows no more once it has sixteen bits. -/
def exponentLimit : Nat := 65535

def exponent? (text : List Char) : Option Int :=
  (digits? Char.isDigit (dropSign text)).map fun ds =>
    let n : Int := valueUpTo exponentLimit 10 ds
    if text.head? = some '-' then -n else n

def cutAt (marks : List Char) (text : List Char) : List Char × Option (List Char) :=
  match text.dropWhile fun c => !marks.contains c with
  | [] => (text, none)
  | _ :: rest => (text.takeWhile fun c => !marks.contains c, some rest)

/-- A decimal number: its digits, and the power of ten that the last of them counts. -/
structure Decimal where
  digits : List Char
  scale : Int

/-- A numeral without a sign that has a fraction, an exponent or both. -/
def decimal? (text : List Char) : Option Decimal :=
  let (mantissa, exponent) := cutAt ['e', 'E'] text
  let (whole, fraction) := cutAt ['.'] mantissa
  if fraction.isNone && exponent.isNone then none
  else do
    let whole ← plainDigits? whole
    let fraction ← fraction.elim (some []) (digits? Char.isDigit)
    let exponent ← exponent.elim (some 0) exponent?
    return { digits := whole ++ fraction, scale := exponent - fraction.length }

/-- The least number that is too large for a float of 64 bits: it lies half a step past the largest one. -/
def floatBound : Nat := (1 <<< 1024) - (1 <<< 970)

def floatBoundSize : Nat := 309

/-- Whether a number is below the bound. Of a number of the same size the whole part tells. -/
def Decimal.isFinite (x : Decimal) : Bool :=
  let digits := x.digits.dropWhile (· = '0')
  let size := digits.length + x.scale
  if digits = [] || size < floatBoundSize then true
  else if floatBoundSize < size then false
  else valueOf 10 ((digits ++ List.replicate floatBoundSize '0').take floatBoundSize) < floatBound

/-- Infinity has a word of its own, so no positive numeral may come to it. -/
def isFloat (text : List Char) : Bool :=
  let magnitude := dropSign text
  magnitude = ['i', 'n', 'f'] || magnitude = ['n', 'a', 'n'] ||
    (decimal? magnitude).any fun x => text.head? = some '-' || x.isFinite

def fixed? (count : Nat) (text : List Char) : Option Nat :=
  if text.length = count ∧ text.all Char.isDigit then some (valueOf 10 text) else none

def daysIn (year month : Nat) : Nat :=
  if month = 2 then
    if year % 4 = 0 ∧ (year % 100 ≠ 0 ∨ year % 400 = 0) then 29 else 28
  else if month = 4 ∨ month = 6 ∨ month = 9 ∨ month = 11 then 30
  else 31

def isDate (text : List Char) : Bool :=
  match fixed? 4 (text.take 4), text.drop 4 with
  | some year, '-' :: rest =>
    match fixed? 2 (rest.take 2), rest.drop 2 with
    | some month, '-' :: rest =>
      match fixed? 2 rest with
      | some day => 1 ≤ month && month ≤ 12 && 1 ≤ day && day ≤ daysIn year month
      | none => false
    | _, _ => false
  | _, _ => false

def isHourMinute (text : List Char) : Bool :=
  match fixed? 2 (text.take 2), text.drop 2 with
  | some hour, ':' :: rest => hour ≤ 23 && (fixed? 2 rest).any (· ≤ 59)
  | _, _ => false

/-- Hours, minutes and seconds, and perhaps a fraction. -/
def isTime (text : List Char) : Bool :=
  match isHourMinute (text.take 5), text.drop 5 with
  | true, ':' :: rest =>
    (fixed? 2 (rest.take 2)).any (· ≤ 60) &&
      (match rest.drop 2 with
        | [] => true
        | '.' :: fraction => !fraction.isEmpty && fraction.all Char.isDigit
        | _ => false)
  | _, _ => false

/-- A time that may carry its distance from universal time. -/
def isZonedTime (text : List Char) : Bool :=
  let zone := text.drop 8 |>.dropWhile fun c => c = '.' || c.isDigit
  let time := text.take (text.length - zone.length)
  isTime time &&
    (match zone with
      | [] => true
      | ['Z'] => true
      | ['z'] => true
      | '+' :: rest => isHourMinute rest
      | '-' :: rest => isHourMinute rest
      | _ => false)

def isDateTime (text : List Char) : Bool :=
  isDate (text.take 10) &&
    (match text.drop 10 with
      | [] => true
      | c :: time => (c = 'T' || c = 't') && isZonedTime time)

/-- A blank between date and time belongs to the value if a time follows it. -/
def spacedTime? (token rest : List Char) : Option (List Char × List Char) :=
  match rest with
  | ' ' :: more =>
    let time := more.takeWhile isScalarChar
    if isDate token ∧ isZonedTime time then
      some (token ++ ' ' :: time, more.dropWhile isScalarChar)
    else none
  | _ => none

def ofToken? (token : List Char) : Option Value :=
  if token = ['t', 'r', 'u', 'e'] then some (.boolean true)
  else if token = ['f', 'a', 'l', 's', 'e'] then some (.boolean false)
  else if isDateTime token || isTime token then some (.datetime (String.ofList token))
  else
    match integer? token with
    | some n => some (.integer n)
    | none => if isFloat token then some (.float (String.ofList token)) else none

/-- The scalar at the front of a text, and the rest of the text. -/
def scalar? (text : List Char) : Option (Value × List Char) :=
  let token := text.takeWhile isScalarChar
  let rest := text.dropWhile isScalarChar
  match spacedTime? token rest with
  | some (lexeme, rest) => some (.datetime (String.ofList lexeme), rest)
  | none => (ofToken? token).map (·, rest)

end Floppy.Toml
