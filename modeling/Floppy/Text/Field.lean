/-!
# Fields of text lines

Hexadecimal numerals with a least width, texts padded to a column, and values that may be missing.
-/
namespace Floppy.Text

def hexDigits (n : Nat) : List Char := Nat.toDigits 16 n

def padLeft (filler : Char) (width : Nat) (text : String) : String :=
  String.ofList (List.replicate (width - text.length) filler) ++ text

def padRight (width : Nat) (text : String) : String :=
  text ++ String.ofList (List.replicate (width - text.length) ' ')

/-- Lower-case hexadecimal, with leading zeros up to the width. -/
def hexLower (width n : Nat) : String :=
  padLeft '0' width (String.ofList (hexDigits n))

/-- Upper-case hexadecimal, with leading zeros up to the width. -/
def hexUpper (width n : Nat) : String :=
  padLeft '0' width (String.ofList ((hexDigits n).map Char.toUpper))

/-- A decimal numeral in a column of the given width, aligned to the right. -/
def column (width n : Nat) : String := padLeft ' ' width (toString n)

def optional : Option String → String
  | none => "None"
  | some text => "Some(" ++ text ++ ")"

def bit (b : Bool) : String := if b then "1" else "0"

def word (b : Bool) : String := if b then "true" else "false"

end Floppy.Text
