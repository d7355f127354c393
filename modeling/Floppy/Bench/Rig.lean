import Floppy.Bench.Levers
import Floppy.System.Tasks
import Floppy.Transport.Rings

/-!
# A disk system on the bench

A machine with a disk system whose registers are set by hand and whose transport is fed by hand.
-/
namespace Floppy.Bench
open Schedule

abbrev Bay := DiskSystem Levers Rings Flash

abbrev Rig := Machine Bay

namespace Rig

def turn (rig : Rig) : Rig := (rig.tick 1).pass

def setLevers (rig : Rig) (change : Levers → Levers) : Rig :=
  { rig with context := { rig.context with registers := change rig.context.registers } }

def setRings (rig : Rig) (change : Rings → Rings) : Rig :=
  { rig with context := { rig.context with transport := change rig.context.transport } }

def receive (rig : Rig) (bytes : List UInt8) : Rig := rig.setRings (·.receive bytes)

def insert (rig : Rig) (volume : UInt8) : Rig := (rig.receive (Fetch.Message.volume volume).encode).turn

/-- Feeds bytes into the ring as it has room, turn by turn. Gives the number of turns. -/
def stream : (fuel : Nat) → List UInt8 → Rig → Nat × Rig
  | 0, _, rig => (0, rig)
  | _ + 1, [], rig => (0, rig)
  | fuel + 1, b :: rest, rig =>
    let room := rig.context.transport.receiveRoom
    let (turns, rig) := stream fuel ((b :: rest).drop room) (rig.receive ((b :: rest).take room)).turn
    (turns + 1, rig)

def setPhase (phase : UInt8) (l : Levers) : Levers := { l with lines := { l.lines with phase } }

def pullToward (halfTrack target : Int) : UInt8 :=
  1 <<< UInt8.ofInt ((halfTrack + (if halfTrack < target then 1 else 3)) % 4)

/-- Steps the arm of the selected drive to a half track. Gives the number of turns. -/
def steps (target : Int) : (fuel : Nat) → Rig → Nat × Rig
  | 0, rig => (0, rig)
  | fuel + 1, rig =>
    let halfTrack := (rig.context.controller.drives.get rig.context.registers.lines.drive).halfTrack
    if halfTrack = target then (0, rig)
    else
      let (turns, rig) := steps target fuel (rig.setLevers (setPhase (pullToward halfTrack target))).turn
      (turns + 1, rig)

def seek (rig : Rig) (track : Nat) : Nat × Rig :=
  let rig := rig.setLevers fun l => { l with lines := { l.lines with wanted := false } }
  let (turns, rig) := steps (2 * track) 200 rig
  (turns, rig.setLevers (setPhase 0))

end Rig
end Floppy.Bench
