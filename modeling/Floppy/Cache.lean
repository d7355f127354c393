import Floppy.Geometry
import Floppy.Log
import Floppy.Crc32

/-!
# The track cache

Each drive has one line that holds at most one track. A sector can be read once it was committed under the
line's present track and volume.
-/
namespace Floppy

structure TrackLine where
  track : Option UInt8 := none
  volume : UInt8 := 0
  valid : Vector Bool 16 := .replicate 16 false
  /-- The checksum of the whole track was compared with the one that the source gave, and they agree. -/
  validated : Bool := false
  lastCrc : Option UInt32 := none
  /-- Old data stays when the line is given another track; only the validity bits go. -/
  sectors : Vector Sector 16 := .replicate 16 .zero
deriving DecidableEq

namespace TrackLine

def isTagged (line : TrackLine) (track volume : UInt8) : Bool :=
  line.track = some track && line.volume = volume

def isComplete (line : TrackLine) : Bool := line.valid = .replicate 16 true

/-- Bit `i` stands for sector `i`. -/
def validBits (line : TrackLine) : Nat :=
  line.valid.toList.foldr (fun b n => 2 * n + b.toNat) 0

def sector? (line : TrackLine) (track volume sector : UInt8) : Option Sector :=
  if line.isTagged track volume && line.valid.get (sectorIndex sector) then
    some (line.sectors.get (sectorIndex sector))
  else none

def data (line : TrackLine) : List UInt8 := line.sectors.toList.flatMap (·.toList)

def crc (line : TrackLine) : UInt32 :=
  Crc32.finish (line.sectors.foldl (fun r s => s.foldl Crc32.push r) Crc32.start)

theorem crc_eq (line : TrackLine) : line.crc = Crc32.ofList line.data := by
  simp only [crc, Crc32.ofList, data, ← Vector.foldl_toList, List.foldl_flatMap]

def invalidate (line : TrackLine) : TrackLine :=
  { line with valid := .replicate 16 false, validated := false, lastCrc := none }

/-- Points the line at a track. Nothing changes if it is there already. -/
def retag (line : TrackLine) (track volume : UInt8) : TrackLine :=
  if line.isTagged track volume then line else { line.invalidate with track := some track, volume }

def retags (line : TrackLine) (track volume : UInt8) : Bool := !line.isTagged track volume

def commit (line : TrackLine) (sector : UInt8) (bytes : Sector) : TrackLine :=
  { line with
    sectors := line.sectors.set (sectorIndex sector).val bytes (sectorIndex_lt sector)
    valid := line.valid.set (sectorIndex sector).val true (sectorIndex_lt sector) }

def flush (line : TrackLine) : TrackLine := { line.invalidate with track := none, volume := 0 }

def validate (line : TrackLine) (crc : UInt32) : TrackLine :=
  { line with validated := true, lastCrc := some crc }

def setLastCrc (line : TrackLine) (crc : UInt32) : TrackLine := { line with lastCrc := some crc }

def trackText (line : TrackLine) : String := Text.optional (line.track.map fun t => toString t.toNat)

def retagLog (line : TrackLine) (slot : DriveSlot) (track volume : UInt8) : Log :=
  if line.isTagged track volume then []
  else [⟨.debug, "Cache " ++ slot.name ++ ": retag " ++ line.trackText ++ "/" ++
    toString line.volume.toNat ++ " -> " ++ toString track.toNat ++ "/" ++ toString volume.toNat⟩]

end TrackLine

abbrev TrackCache := PerDrive TrackLine

namespace TrackCache

def empty : TrackCache := .both {}

def sector? (cache : TrackCache) (slot : DriveSlot) (track volume sector : UInt8) : Option Sector :=
  (cache.get slot).sector? track volume sector

def retag (cache : TrackCache) (slot : DriveSlot) (track volume : UInt8) : TrackCache :=
  cache.modify slot (·.retag track volume)

def retags (cache : TrackCache) (slot : DriveSlot) (track volume : UInt8) : Bool :=
  (cache.get slot).retags track volume

def commit (cache : TrackCache) (slot : DriveSlot) (sector : UInt8) (bytes : Sector) : TrackCache :=
  cache.modify slot (·.commit sector bytes)

def flush (cache : TrackCache) (slot : DriveSlot) : TrackCache := cache.modify slot (·.flush)

def validate (cache : TrackCache) (slot : DriveSlot) (crc : UInt32) : TrackCache :=
  cache.modify slot (·.validate crc)

def setLastCrc (cache : TrackCache) (slot : DriveSlot) (crc : UInt32) : TrackCache :=
  cache.modify slot (·.setLastCrc crc)

end TrackCache
end Floppy
