import Floppy.Status

/-!
# Drive mechanics

The arm is pulled by four stepper phases and moves in half tracks between the stop at track 0 and the last
track.
-/
namespace Floppy

structure Drive where
  halfTrack : Int := 0
  /-- The phase that was energized last, 0 to 3. -/
  phase : UInt8 := 0
  motor : Bool := false
  wanted : Bool := false
  volume : UInt8 := defaultVolume
deriving DecidableEq, Repr

/-- What the stepper did: nothing, a move, or a push against the stop at track 0. -/
inductive Step where
  | idle
  | moved («from» «to» : Int)
  | hitStop
deriving DecidableEq, Repr

namespace Drive

def ofVolume (volume : UInt8) : Drive := { volume }

/-- The state at power-on; the inserted volume stays. -/
def reset (drive : Drive) : Drive := { volume := drive.volume }

def track (drive : Drive) : UInt8 := UInt8.ofInt (drive.halfTrack.tdiv 2)

def latch (drive : Drive) (status : Status) : Drive :=
  { drive with motor := status.motor, wanted := status.wanted }

/-- The number of the only line that is set, if it is the only one. -/
def lonePhase? (lines : UInt8) : Option UInt8 :=
  match lines &&& 0x0F with
  | 1 => some 0
  | 2 => some 1
  | 4 => some 2
  | 8 => some 3
  | _ => none

/-- Where a phase pulls the arm from another one: to its neighbours, and nowhere else. -/
def pull («from» «to» : UInt8) : Int :=
  if («from» + 1) &&& 3 = «to» then 1 else if («to» + 1) &&& 3 = «from» then -1 else 0

/-- A lone phase beside the last one pulls the arm by a half track. -/
def step (drive : Drive) (lines : UInt8) : Drive × Step :=
  match lonePhase? lines with
  | none => (drive, .idle)
  | some phase =>
    let target := drive.halfTrack + pull drive.phase phase
    if target < 0 then ({ drive with phase, halfTrack := 0 }, .hitStop)
    else
      let halfTrack := min target maxHalfTrack
      ({ drive with phase, halfTrack },
        if halfTrack = drive.halfTrack then .idle else .moved drive.halfTrack halfTrack)

end Drive
end Floppy
