import Floppy.Hex
import Floppy.Text.Blank

/-!
# Requests

A request for a track is `<TT`, one for a sector of it `<TTS`, each on a line of its own.
-/
namespace Floppy.Fetch

structure Request where
  track : UInt8
  /-- Without a sector the whole track is asked for. -/
  sector : Option UInt8
deriving DecidableEq, Repr

namespace Request

/-- Of the sector number the low four bits are sent. -/
def encode (request : Request) : List UInt8 :=
  60 :: Hex.pair request.track ++ (request.sector.toList.map Hex.digit) ++ [10]

/-- Two or three hex digits, of either case. -/
def ofDigits? : List Char → Option Request
  | [a, b] => do return ⟨((← Hex.charDigit? a) <<< 4) ||| (← Hex.charDigit? b), none⟩
  | [a, b, c] => do
    let track := ((← Hex.charDigit? a) <<< 4) ||| (← Hex.charDigit? b)
    return ⟨track, some (← Hex.charDigit? c)⟩
  | _ => none

/-- White space at both ends of the line is ignored. -/
def parse? (line : List Char) : Option Request :=
  match Text.trim line with
  | '<' :: digits => ofDigits? digits
  | _ => none

end Request
end Floppy.Fetch
