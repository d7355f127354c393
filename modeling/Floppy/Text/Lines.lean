import Floppy.Text.Utf8

/-!
# Lines of a file
-/
namespace Floppy.Text

/-- Cuts at each line feed; what follows the last one is the last piece. -/
def splitLines : List Char → List (List Char)
  | [] => [[]]
  | c :: rest =>
    match splitLines rest with
    | [] => []
    | line :: lines => if c = '\n' then [] :: line :: lines else (c :: line) :: lines

/-- A carriage return in front of the line feed belongs to the end of the line. -/
def dropReturn (line : List Char) : List Char :=
  if line.getLast? = some '\r' then line.dropLast else line

/-- Each line feed ends a line; text after the last one is a line of its own. -/
def linesOf (text : List Char) : List String :=
  let pieces := splitLines text
  let last := pieces.getLast?.getD []
  (pieces.dropLast.map fun line => String.ofList (dropReturn line)) ++
    (if last = [] then [] else [String.ofList last])

def notUtf8 : String := "stream did not contain valid UTF-8"

def lines (content : List UInt8) : Except String (List String) :=
  match Utf8.decode? content with
  | some text => .ok (linesOf text)
  | none => .error notUtf8

end Floppy.Text
