import Floppy.Gcr.Symbols

/-!
# Address fields

The address field names the volume, track and place of the sector that follows it. Each value is written
as two bytes between a prologue and an epilogue, and a checksum guards them.
-/
namespace Floppy.Gcr

def syncByte : UInt8 := 0xFF

structure AddressField where
  volume : UInt8
  track : UInt8
  /-- Place on the track, not the logical number. -/
  sector : UInt8
deriving DecidableEq, Repr

namespace AddressField

def marker : List UInt8 := [0xD5, 0xAA, 0x96]

def trailer : List UInt8 := [0xDE, 0xAA, 0xEB]

def checksum (field : AddressField) : UInt8 := field.volume ^^^ field.track ^^^ field.sector

def oddEvenPair (value : UInt8) : List UInt8 := [(oddEvenEncode value).1, (oddEvenEncode value).2]

def encode (field : AddressField) : List UInt8 :=
  marker ++ oddEvenPair field.volume ++ oddEvenPair field.track ++ oddEvenPair field.sector ++
    oddEvenPair field.checksum ++ trailer

/-- What goes ahead of a data field: two sync bytes and the address field. -/
def header (field : AddressField) : List UInt8 := syncByte :: syncByte :: field.encode

/-- The address field that starts here, if its checksum holds. -/
def ofBytes? : List UInt8 → Option AddressField
  | 0xD5 :: 0xAA :: 0x96 :: v₁ :: v₂ :: t₁ :: t₂ :: s₁ :: s₂ :: c₁ :: c₂ :: _ =>
    let field : AddressField := ⟨oddEvenDecode v₁ v₂, oddEvenDecode t₁ t₂, oddEvenDecode s₁ s₂⟩
    if field.checksum = oddEvenDecode c₁ c₂ then some field else none
  | _ => none

/-- The first address field in the stream whose checksum holds. -/
def find? : List UInt8 → Option AddressField
  | [] => none
  | b :: rest => (ofBytes? (b :: rest)).or (find? rest)

def text (field : AddressField) : String :=
  "[v:" ++ Text.column 3 field.volume.toNat ++ " t:" ++ Text.column 2 field.track.toNat ++
    " ps:" ++ Text.column 2 field.sector.toNat ++ "]"

end AddressField
end Floppy.Gcr
