import Floppy.Gcr.DataField

/-!
# Frames

A frame is what passes under the head for one sector: the header with its address field, then the data
field.
-/
namespace Floppy.Gcr.Frame

abbrev headerSize : Nat := 16

abbrev size : Nat := headerSize + DataField.size

def encode (address : AddressField) (sector : Sector) : List UInt8 :=
  address.header ++ DataField.encode sector

theorem length_header (address : AddressField) : address.header.length = headerSize := rfl

theorem length_encode (address : AddressField) (sector : Sector) :
    (encode address sector).length = size := by
  simp [encode, length_header, DataField.length_encode]

def address (volume track sector : UInt8) : AddressField := ⟨volume, track, physicalOfLogical sector⟩

def play (address : AddressField) (sector : Sector) : Playback size :=
  .ofVector ⟨(encode address sector).toArray, by simp [length_encode]⟩

end Floppy.Gcr.Frame
