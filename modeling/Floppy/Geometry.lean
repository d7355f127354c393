import Floppy.Text.Field

/-!
# Disk geometry

Thirty-five tracks of sixteen sectors of 256 bytes, the two drive slots, and the interleave between
the sector numbers of an image and their places on the track.
-/
namespace Floppy

abbrev sectorSize : Nat := 256
abbrev sectorsPerTrack : Nat := 16
abbrev trackSize : Nat := sectorsPerTrack * sectorSize
abbrev trackCount : Nat := 35
abbrev diskSize : Nat := trackCount * trackSize

/-- The arm moves in half tracks; the last track lies at twice its number. -/
abbrev maxHalfTrack : Nat := (trackCount - 1) * 2

/-- The volume number that is written when none is given. -/
def defaultVolume : UInt8 := 254

abbrev Sector := Vector UInt8 sectorSize

namespace Sector

/-- The bytes cut or filled with zeros to the size of a sector. -/
def ofArray (bytes : Array UInt8) : Sector := Vector.ofFn fun i => bytes.getD i 0

def zero : Sector := Vector.replicate sectorSize 0

end Sector

def physicalOrder : Vector UInt8 16 :=
  #v[0x0, 0xD, 0xB, 0x9, 0x7, 0x5, 0x3, 0x1, 0xE, 0xC, 0xA, 0x8, 0x6, 0x4, 0x2, 0xF]

def logicalOrder : Vector UInt8 16 :=
  #v[0x0, 0x7, 0xE, 0x6, 0xD, 0x5, 0xC, 0x4, 0xB, 0x3, 0xA, 0x2, 0x9, 0x1, 0x8, 0xF]

/-- Only the low four bits of a sector number count. -/
def sectorIndex (sector : UInt8) : Fin 16 := ⟨sector.toNat % 16, Nat.mod_lt _ (by decide)⟩

theorem sectorIndex_lt (sector : UInt8) : (sectorIndex sector).val < 16 := (sectorIndex sector).isLt

def physicalOfLogical (sector : UInt8) : UInt8 := physicalOrder[sectorIndex sector]

def logicalOfPhysical (sector : UInt8) : UInt8 := logicalOrder[sectorIndex sector]

/-- Where a logical sector starts in an image. -/
def imageOffset (track sector : UInt8) : Nat :=
  track.toNat * trackSize + (sectorIndex sector).val * sectorSize

/-- The external drive is fed over the link, the internal one from storage. -/
inductive DriveSlot where
  | external
  | internal
deriving DecidableEq, Repr

namespace DriveSlot

def ofSelect (bit : UInt8) : DriveSlot :=
  if bit &&& 1 = 0 then external else internal

def index : DriveSlot → Nat
  | external => 0
  | internal => 1

def name : DriveSlot → String
  | external => "external"
  | internal => "internal"

def label : DriveSlot → String
  | external => "External"
  | internal => "Internal"

end DriveSlot

/-- One value for each of the two drives. -/
structure PerDrive (α : Type) where
  external : α
  internal : α
deriving DecidableEq, Repr

namespace PerDrive
variable {α : Type}

def both (a : α) : PerDrive α := ⟨a, a⟩

def get (p : PerDrive α) : DriveSlot → α
  | .external => p.external
  | .internal => p.internal

def set (p : PerDrive α) (slot : DriveSlot) (a : α) : PerDrive α :=
  match slot with
  | .external => { p with external := a }
  | .internal => { p with internal := a }

def modify (p : PerDrive α) (slot : DriveSlot) (f : α → α) : PerDrive α :=
  p.set slot (f (p.get slot))

@[simp] theorem get_set_self (p : PerDrive α) (d : DriveSlot) (a : α) : (p.set d a).get d = a := by
  cases d <;> rfl

@[simp] theorem get_set_of_ne (p : PerDrive α) {d e : DriveSlot} (h : e ≠ d) (a : α) :
    (p.set d a).get e = p.get e := by
  cases d <;> cases e <;> simp_all [set, get]

@[simp] theorem set_set (p : PerDrive α) (d : DriveSlot) (a b : α) : (p.set d a).set d b = p.set d b := by
  cases d <;> rfl

@[simp] theorem set_get (p : PerDrive α) (d : DriveSlot) : p.set d (p.get d) = p := by
  cases d <;> rfl

end PerDrive

/-- A track and a logical sector of it. -/
structure Position where
  track : UInt8
  sector : UInt8
deriving DecidableEq, Repr

def Position.text (p : Position) : String :=
  "[t:" ++ Text.column 2 p.track.toNat ++ " s:" ++ Text.column 2 p.sector.toNat ++ "]"

end Floppy
