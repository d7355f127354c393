import Floppy.Text.Field

/-!
# Faults in a transfer
-/
namespace Floppy.Fetch

inductive FetchError where
  | framing (byte : UInt8)
  | malformedToken (token : Char) (byte : UInt8)
  | danglingNibble
  | orphan
  | overflow
  | shortSector (track sector : UInt8) (received : Nat)
  | sectorChecksum (track sector expected actual : UInt8)
  | trackCrc (track : UInt8) (expected actual : UInt32)
  | timeout (passes : Nat)
deriving DecidableEq, Repr

open Text in
def FetchError.message : FetchError → String
  | framing byte => "Unexpected byte " ++ hexUpper 2 byte.toNat ++ " in fetch stream"
  | malformedToken token byte =>
    "Malformed '" ++ String.singleton token ++ "' token at byte " ++ hexUpper 2 byte.toNat
  | danglingNibble => "Half-received payload nibble dropped"
  | orphan => "Payload byte received outside of a sector"
  | overflow => "Sector payload overflow"
  | shortSector track sector received =>
    "Sector [t:" ++ toString track.toNat ++ " s:" ++ toString sector.toNat ++ "] ended after " ++
      toString received ++ " bytes"
  | sectorChecksum track sector expected actual =>
    "Sector [t:" ++ toString track.toNat ++ " s:" ++ toString sector.toNat ++
      "] checksum mismatch: expected " ++ hexUpper 2 expected.toNat ++ ", computed " ++
      hexUpper 2 actual.toNat
  | trackCrc track expected actual =>
    "Track " ++ toString track.toNat ++ " CRC mismatch: expected " ++ hexUpper 8 expected.toNat ++
      ", computed " ++ hexUpper 8 actual.toNat
  | timeout passes => "Transfer abandoned after " ++ toString passes ++ " empty passes"

/-- The name of the fault, without its particulars. -/
def FetchError.kind : FetchError → String
  | framing _ => "Framing"
  | malformedToken .. => "MalformedToken"
  | danglingNibble => "DanglingNibble"
  | orphan => "Orphan"
  | overflow => "Overflow"
  | shortSector .. => "ShortSector"
  | sectorChecksum .. => "SectorChecksum"
  | trackCrc .. => "TrackCrc"
  | timeout _ => "Timeout"

end Floppy.Fetch
