import Floppy.Gcr.AddressField
import Floppy.Playback

/-!
# Data fields

A data field carries the 342 symbols of a sector, each combined by exclusive or with its predecessor, then
the last symbol as a checksum. It is written and read as a whole or one byte at a time.
-/
namespace Floppy.Gcr

def checksum (bytes : List UInt8) : UInt8 := bytes.foldl (· ^^^ ·) 0

inductive CodecError where
  | missingPrologue
  | invalidDiskByte (byte : UInt8) (offset : Nat)
  | truncated (received : Nat)
  | checksumMismatch
  | missingEpilogue
deriving DecidableEq, Repr

namespace CodecError

def message : CodecError → String
  | missingPrologue => "Data field prologue not found"
  | invalidDiskByte byte offset =>
    "Invalid disk byte " ++ Text.hexUpper 2 byte.toNat ++ " at offset " ++ toString offset
  | truncated received => "Data field truncated after " ++ toString received ++ " bytes"
  | checksumMismatch => "Data field checksum mismatch"
  | missingEpilogue => "Data field epilogue not found"

/-- The name of the fault, without its particulars. -/
def kind : CodecError → String
  | missingPrologue => "MissingPrologue"
  | invalidDiskByte .. => "InvalidDiskByte"
  | truncated _ => "Truncated"
  | checksumMismatch => "ChecksumMismatch"
  | missingEpilogue => "MissingEpilogue"

end CodecError

namespace DataField

def marker : List UInt8 := [0xD5, 0xAA, 0xAD]

def trailer : List UInt8 := [0xDE, 0xAA, 0xEB]

/-- A sync byte, the prologue, the symbols and their checksum, and the epilogue. -/
abbrev size : Nat := 350

/-- The symbols as disk bytes, each combined with the one before it; the last stands alone at the end. -/
def chain (last : UInt8) : List UInt8 → List UInt8
  | [] => [translate last]
  | s :: rest => translate (last ^^^ s) :: chain s rest

theorem length_chain (last : UInt8) (symbols : List UInt8) :
    (chain last symbols).length = symbols.length + 1 := by
  induction symbols generalizing last with
  | nil => rfl
  | cons s rest ih => simp [chain, ih]

def encode (sector : Sector) : List UInt8 :=
  syncByte :: marker ++ chain 0 (Gcr.encode sector).toList ++ trailer

theorem length_encode (sector : Sector) : (encode sector).length = size := by
  simp [encode, length_chain, marker, trailer]; rfl

/-- The bytes after the first prologue, with the number of bytes up to its end. -/
def afterMarker? : List UInt8 → Option (Nat × List UInt8)
  | [] => none
  | b :: rest =>
    if marker <+: b :: rest then some (3, rest.drop 2)
    else (afterMarker? rest).map fun (start, body) => (start + 1, body)

/-- Undoes `chain` up to the checksum; `offset` counts the bytes before the first one. -/
def unchain (last : UInt8) (offset : Nat) : List UInt8 → Except CodecError (List UInt8 × UInt8)
  | [] => .ok ([], last)
  | b :: rest =>
    match untranslate? b with
    | none => .error (.invalidDiskByte b offset)
    | some v => (unchain (last ^^^ v) (offset + 1) rest).map fun (symbols, final) =>
        ((last ^^^ v) :: symbols, final)

/-- The sector of a body that starts right after the prologue. The third epilogue byte is often
clipped, so only two are asked for. -/
def decodeBody (start : Nat) (body : List UInt8) : Except CodecError Sector :=
  if body.length < symbolCount + 1 then .error (.truncated body.length)
  else do
    let (symbols, last) ← unchain 0 start (body.take symbolCount)
    let tail := body.drop symbolCount
    let sum := tail.headD 0
    match untranslate? sum with
    | none => .error (.invalidDiskByte sum (start + symbolCount))
    | some c =>
      if c ≠ last then .error .checksumMismatch
      else if trailer.take 2 <+: tail.drop 1 then
        let symbols := symbols.toArray
        .ok (Gcr.decode (Vector.ofFn fun i => symbols.getD i 0))
      else .error .missingEpilogue

/-- Whatever comes before the first prologue is skipped. -/
def decode (stream : List UInt8) : Except CodecError Sector :=
  match afterMarker? stream with
  | none => .error .missingPrologue
  | some (start, body) => decodeBody start body

/-- The data field of a sector, ready to be given out byte by byte. -/
def play (sector : Sector) : Playback size :=
  .ofVector ⟨(encode sector).toArray, by simp [length_encode]⟩

/-- Reads data fields out of a stream that comes byte by byte. Outside a field the last three bytes are
kept, inside one all bytes from its prologue on. -/
inductive Reader where
  | searching (a b c : UInt8)
  | collecting (received : Array UInt8)
deriving DecidableEq, Repr

namespace Reader

def start : Reader := .searching 0 0 0

def received : Reader → Nat
  | searching .. => 0
  | collecting bytes => bytes.size

/-- The prologue, symbols, checksum and two epilogue bytes. -/
abbrev fieldLength : Nat := 348

/-- Takes one byte; gives the sector, or what is wrong with it, once the field is complete. -/
def push (byte : UInt8) : Reader → Reader × Option (Except CodecError Sector)
  | searching _ b c =>
    if [b, c, byte] = marker then (.collecting marker.toArray, none)
    else (.searching b c byte, none)
  | collecting bytes =>
    let bytes := bytes.push byte
    if bytes.size = fieldLength then (start, some (decode bytes.toList))
    else (.collecting bytes, none)

end Reader
end DataField
end Floppy.Gcr
