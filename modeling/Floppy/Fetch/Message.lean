import Floppy.Fetch.Error
import Floppy.Gcr.DataField
import Floppy.Hex

/-!
# The response stream

The source of the disk answers with messages: a sector is `#TTS`, two hex digits for each of its bytes, and
`=CC` with their checksum; `*` ends a transfer and may carry the CRC of the track; `@VV` announces the volume
of the disk. `Tokenizer` reads the stream byte by byte, wherever it is cut.
-/
namespace Floppy.Fetch

inductive Message where
  | sector (track number : UInt8) (bytes : Sector)
  | transferEnd (crc : Option UInt32)
  | volume (v : UInt8)
deriving DecidableEq

namespace Message

/-- The payload in lines of 32 bytes. -/
def payload : List UInt8 → List UInt8
  | [] => []
  | b :: rest =>
    Hex.text ((b :: rest).take 32) ++ (if 32 ≤ (b :: rest).length then [10] else []) ++
      payload ((b :: rest).drop 32)
termination_by bytes => bytes.length
decreasing_by simp only [List.length_drop, List.length_cons]; omega

def encode : Message → List UInt8
  | sector track number bytes =>
    35 :: Hex.pair track ++ [Hex.digit number, 10] ++ payload bytes.toList ++
      61 :: Hex.pair (Gcr.checksum bytes.toList) ++ [10]
  | transferEnd crc => 42 :: (crc.toList.flatMap Hex.word) ++ [10]
  | volume v => 64 :: Hex.pair v ++ [10]

end Message

inductive StreamEvent where
  | sectorStart (track sector : UInt8)
  | payload (byte : UInt8)
  | sectorEnd (checksum : UInt8)
  | transferEnd
  | trackCrc (crc : UInt32)
  | volume (volume : UInt8)
  | error (cause : FetchError)
deriving DecidableEq, Repr

/-- Tokens that begin with a marker and go on with digits. -/
inductive TokenKind where
  | sectorStart
  | checksum
  | volume
  | crc
deriving DecidableEq, Repr

namespace TokenKind

def marker : TokenKind → Char
  | sectorStart => '#'
  | checksum => '='
  | volume => '@'
  | crc => '*'

def ofMarker? (byte : UInt8) : Option TokenKind :=
  if byte = 35 then some sectorStart
  else if byte = 61 then some checksum
  else if byte = 64 then some volume
  else if byte = 42 then some crc
  else none

def digits : TokenKind → Nat
  | sectorStart => 3
  | checksum => 2
  | volume => 2
  | crc => 8

def meaning : TokenKind → UInt32 → StreamEvent
  | sectorStart, value => .sectorStart (value >>> 4).toUInt8 (value &&& 0x0F).toUInt8
  | checksum, value => .sectorEnd value.toUInt8
  | volume, value => .volume value.toUInt8
  | crc, value => .trackCrc value

/-- A token that another byte cuts short. Only the digits of a CRC may be fewer, or none. -/
def cut : TokenKind → (digits : Nat) → (value : UInt32) → (byte : UInt8) → List StreamEvent
  | crc, 0, _, _ => []
  | crc, _ + 1, value, _ => [.trackCrc value]
  | kind, _, _, byte => [.error (.malformedToken kind.marker byte)]

end TokenKind

structure OpenToken where
  kind : TokenKind
  digits : Nat := 0
  value : UInt32 := 0
deriving DecidableEq, Repr

/-- Where in the stream the tokenizer stands: a token that is not complete, and the first digit of a
payload byte. -/
structure Tokenizer where
  token : Option OpenToken := none
  half : Option UInt8 := none
deriving DecidableEq, Repr

namespace Tokenizer

def isIdle (t : Tokenizer) : Bool := t.token.isNone && t.half.isNone

def dangling (t : Tokenizer) : List StreamEvent :=
  if t.half.isSome then [.error .danglingNibble] else []

/-- A byte outside a token. -/
def scan (t : Tokenizer) (byte : UInt8) : Tokenizer × List StreamEvent :=
  match TokenKind.ofMarker? byte with
  | some kind =>
    ({ token := some { kind } }, t.dangling ++ (if kind = .crc then [.transferEnd] else []))
  | none =>
    if byte = 32 ∨ byte = 9 ∨ byte = 13 ∨ byte = 10 then ({ t with half := none }, t.dangling)
    else
      match Hex.digit? byte, t.half with
      | some d, some high => ({ t with half := none }, [.payload ((high <<< 4) ||| d)])
      | some d, none => ({ t with half := some d }, [])
      | none, _ => (t, [.error (.framing byte)])

/-- A byte that ends a token early is looked at once more, on its own. -/
def push (t : Tokenizer) (byte : UInt8) : Tokenizer × List StreamEvent :=
  match t.token with
  | none => t.scan byte
  | some { kind, digits, value } =>
    match Hex.digit? byte with
    | some d =>
      let value := (value <<< 4) ||| d.toUInt32
      if digits + 1 = kind.digits then ({ t with token := none }, [kind.meaning value])
      else ({ t with token := some { kind, digits := digits + 1, value } }, [])
    | none =>
      let (next, events) := { t with token := none }.scan byte
      (next, kind.cut digits value byte ++ events)

def feed (t : Tokenizer) : List UInt8 → Tokenizer × List StreamEvent
  | [] => (t, [])
  | byte :: rest =>
    let (t, first) := t.push byte
    let (t, later) := t.feed rest
    (t, first ++ later)

theorem feed_append (t : Tokenizer) (a b : List UInt8) :
    t.feed (a ++ b) = (((t.feed a).1.feed b).1, (t.feed a).2 ++ ((t.feed a).1.feed b).2) := by
  induction a generalizing t with
  | nil => simp [feed]
  | cons x a ih => simp [feed, ih]

end Tokenizer
end Floppy.Fetch
