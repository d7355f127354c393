import Floppy.Cache
import Floppy.Drive
import Floppy.Gcr.Frame

/-!
# The head

Gives the controller the bytes that pass under the head: the frame of a sector, then that of the next sector
in rotation, which is the one with the next lower number. A sector that is not cached is asked for, and
sync bytes go out meanwhile. A frame that is cut short is never resumed.
-/
namespace Floppy
open Gcr

structure FillRequest where
  slot : DriveSlot
  track : UInt8
  volume : UInt8
  sector : UInt8
deriving DecidableEq, Repr

inductive HeadState where
  | inactive
  | sending (frame : Playback Frame.size)
  | receiving (reader : DataField.Reader)
deriving DecidableEq, Repr

structure HeadStats where
  headersSent : Nat := 0
  sectorsSent : Nat := 0
  fillersSent : Nat := 0
  tornSectors : Nat := 0
deriving DecidableEq, Repr

structure Head where
  state : HeadState := .inactive
  slot : Option DriveSlot := none
  track : UInt8 := 0
  /-- The logical number. -/
  sector : UInt8 := 0
  stats : HeadStats := {}
deriving DecidableEq, Repr

/-- A byte of a frame, or a sync byte that keeps the controller in step. -/
inductive HeadOutput where
  | byte (b : UInt8)
  | filler
deriving DecidableEq, Repr

def HeadOutput.value : HeadOutput → UInt8
  | .byte b => b
  | .filler => syncByte

namespace Head

def isActive (head : Head) : Bool := head.state ≠ .inactive

def position (head : Head) : Position := ⟨head.track, head.sector⟩

/-- How many bytes of the present sector have gone out, or have come in. -/
def bytesSent (head : Head) : Nat :=
  match head.state with
  | .inactive => 0
  | .sending frame => frame.position
  | .receiving reader => reader.received

def remaining (head : Head) : Nat :=
  match head.state with
  | .sending frame => frame.remaining
  | _ => 0

def stateName (head : Head) : String :=
  match head.state with
  | .inactive => "Inactive"
  | .sending frame => if frame.position < Frame.headerSize then "Header" else "Data"
  | .receiving _ => "Receiving"

def abandon (head : Head) : Head :=
  if head.isActive then
    { head with state := .inactive, stats.tornSectors := head.stats.tornSectors + 1 }
  else head

/-- Drops the sector in progress and goes on with the given one. -/
def reset (head : Head) (sector : UInt8) : Head :=
  { head.abandon with sector := sector &&& 0x0F }

/-- The arm stands on a track; a sector of another one cannot be finished. -/
def moveTo (head : Head) (track : UInt8) : Head :=
  if head.track ≠ track then head.abandon else head

def moveLog (head : Head) (track : UInt8) : Log :=
  if head.track ≠ track ∧ head.isActive then
    [⟨.trace, "Head: arm moved " ++ toString head.track.toNat ++ " -> " ++ toString track.toNat ++
      " after " ++ toString head.bytesSent ++ " bytes"⟩]
  else []

/-- On arrival at another drive or track a hint for that track says where to start. -/
def arrive (head : Head) (slot : DriveSlot) (track : UInt8) (hint : Option Position) : Head :=
  if head.slot = some slot ∧ head.track = track then head
  else
    { head with
      slot := some slot
      track
      sector := match hint.filter (·.track = track) with
        | some p => p.sector &&& 0x0F
        | none => head.sector }

/-- The byte that passes next, and what has to be fetched for it. -/
structure Pass where
  head : Head
  output : HeadOutput
  fill : Option FillRequest := none
  log : Log := []

/-- Sends the next byte of a frame. After its last byte the head goes on to the sector before. -/
def send (head : Head) (frame : Playback Frame.size) : Head × HeadOutput :=
  match frame.next? with
  | none => ({ head with state := .inactive }, .filler)
  | some (b, rest) =>
    if rest.isDone then
      ({ head with
          state := .inactive
          sector := (head.sector - 1) &&& 0x0F
          stats.sectorsSent := head.stats.sectorsSent + 1 }, .byte b)
    else ({ head with state := .sending rest }, .byte b)

/-- Starts the frame of the present sector, or asks for the sector. -/
def start (head : Head) (slot : DriveSlot) (drive : Drive) (cache : TrackCache) : Pass :=
  match cache.sector? slot drive.track drive.volume head.sector with
  | none =>
    { head := { head with stats.fillersSent := head.stats.fillersSent + 1 }
      output := .filler
      fill := some ⟨slot, drive.track, drive.volume, head.sector⟩ }
  | some bytes =>
    let frame := Frame.play (Frame.address drive.volume drive.track head.sector) bytes
    let head := { head with stats.headersSent := head.stats.headersSent + 1 }
    let (head, output) := head.send frame
    { head, output }

/-- The byte under the head of a drive. -/
def next (head : Head) (slot : DriveSlot) (drive : Drive) (cache : TrackCache)
    (hint : Option Position) : Pass :=
  let log := head.moveLog drive.track
  let head := head.moveTo drive.track
  match head.state with
  | .inactive => { (head.arrive slot drive.track hint).start slot drive cache with log }
  | .sending frame =>
    let (head, output) := head.send frame
    { head, output, log }
  | .receiving _ => { head, output := .filler, log }

def beginWrite (head : Head) : Head := { head.abandon with state := .receiving .start }

/-- A byte that the host writes; gives the sector once its field is complete. -/
def receive (head : Head) (byte : UInt8) : Head × Option (Except CodecError Sector) :=
  match head.state with
  | .receiving reader =>
    match reader.push byte with
    | (reader, none) => ({ head with state := .receiving reader }, none)
    | (_, some result) => ({ head with state := .inactive }, some result)
  | _ => (head, none)

end Head
end Floppy
