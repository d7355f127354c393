import Floppy.Text.Field
import Floppy.Text.Mark
import Floppy.Text.Unseen

/-!
# Quoted text

Text between quotation marks, on one line, with escapes for what would not be seen or would change the look of
the character before it.
-/
namespace Floppy.Text

def quotedChar (c : Char) : List Char :=
  if c = '\x00' then ['\\', '0']
  else if c = '\t' then ['\\', 't']
  else if c = '\n' then ['\\', 'n']
  else if c = '\r' then ['\\', 'r']
  else if c = '"' ∨ c = '\\' then ['\\', c]
  else if isMark c || isUnseen c then ['\\', 'u', '\x7b'] ++ hexDigits c.toNat ++ ['\x7d']
  else [c]

def quoted (text : List Char) : String := String.ofList ('"' :: text.flatMap quotedChar ++ ['"'])

end Floppy.Text
