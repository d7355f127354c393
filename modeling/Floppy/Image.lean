import Floppy.Crc32
import Floppy.Geometry

/-!
# Disk images

The sectors of all tracks in logical order.
-/
namespace Floppy

/-- The sector of a linear image of any size, if it is all there. -/
def sectorAt? (bytes : Array UInt8) (track sector : UInt8) : Option Sector :=
  let start := imageOffset track sector
  if start + sectorSize ≤ bytes.size then some (.ofArray (bytes.extract start (start + sectorSize)))
  else none

abbrev Image := Vector UInt8 diskSize

namespace Image

def ofArray? (bytes : Array UInt8) : Option Image :=
  if h : bytes.size = diskSize then some ⟨bytes, h⟩ else none

def sizeText (size : Nat) : String :=
  " is " ++ toString size ++ " bytes, expected " ++ toString diskSize

def sector? (image : Image) (track sector : UInt8) : Option Sector := sectorAt? image.toArray track sector

def trackBytes (image : Image) (track : UInt8) : Array UInt8 :=
  image.toArray.extract (imageOffset track 0) (imageOffset track 0 + trackSize)

def patternByte (offset : Nat) : UInt8 :=
  UInt8.ofNat (offset / sectorSize) ^^^ UInt8.ofNat offset

def pattern : Image := Vector.ofFn fun i => patternByte i.val

end Image
end Floppy
