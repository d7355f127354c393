import Floppy.Head

/-!
# The drive controller

Each poll reads the status register, moves the arm of the selected drive, and, if a byte is wanted and the
last one was taken, writes the next byte from the head. In burst mode the rest of a frame follows within the
same poll, for as long as the host takes the bytes and the lines stay as they are.
-/
namespace Floppy
open Gcr

structure ControllerStats where
  polls : Nat := 0
  bytesWritten : Nat := 0
  fillers : Nat := 0
  steps : Nat := 0
  stopHits : Nat := 0
  /-- Bursts that ended because bytes were no longer taken. -/
  burstStalls : Nat := 0
deriving DecidableEq, Repr

structure ControllerSettings where
  burst : Bool := true
  /-- How many polls in a row may find the last byte still pending. -/
  burstPollLimit : Nat := 5
  traceStatus : Bool := false
  traceTrackChange : Bool := false
deriving DecidableEq, Repr

structure Controller where
  settings : ControllerSettings
  drives : PerDrive Drive
  head : Head := {}
  lastStatus : Option Status := none
  stats : ControllerStats := {}
deriving DecidableEq, Repr

namespace Controller

/-- A controller in the middle of a poll, with what the poll has done so far. -/
structure Run (ρ : Type) where
  controller : Controller
  registers : ρ
  written : Array UInt8 := #[]
  fills : List FillRequest := []
  ticks : Nat := 0
  log : Log := []

def ofVolume (volume : UInt8) (settings : ControllerSettings) : Controller where
  settings
  drives := .both (.ofVolume volume)

/-- Starts over at sector 0, as after a change of disks. -/
def resetHead (c : Controller) : Controller := { c with head := c.head.reset 0 }

/-- The state at power-on; the inserted volumes stay. -/
def reset (c : Controller) : Controller where
  settings := c.settings
  drives := ⟨c.drives.external.reset, c.drives.internal.reset⟩

def setVolume (c : Controller) (slot : DriveSlot) (volume : UInt8) : Controller :=
  { c with drives := c.drives.modify slot fun d => { d with volume } }

/-- The lines are reported when the upper half of the register differs from the last poll. -/
def statusLog (c : Controller) (status : Status) : Log :=
  let changed := match c.lastStatus with
    | none => true
    | some last => last.toByte &&& 0xF0 ≠ status.toByte &&& 0xF0
  if c.settings.traceStatus && changed then [⟨.debug, "Controller: " ++ status.text⟩] else []

/-- Lets the stepper act on the selected drive; the head follows the arm. -/
def moveArm (c : Controller) (status : Status) : Controller × Log :=
  let slot := status.drive
  let (drive, step) := ((c.drives.get slot).latch status).step status.phase
  let c := { c with drives := c.drives.set slot drive }
  match step with
  | .idle => (c, [])
  | .hitStop => ({ c with head := c.head.reset 0, stats.stopHits := c.stats.stopHits + 1 }, [])
  | .moved a b =>
    let moveLog : Log := if c.settings.traceTrackChange then
      [⟨.debug, slot.name ++ " " ++ (if a < b then ">" else "<") ++ " " ++ toString b⟩] else []
    ({ c with head := c.head.moveTo drive.track, stats.steps := c.stats.steps + 1 },
      moveLog ++ c.head.moveLog drive.track)

def switchTo (c : Controller) (slot : DriveSlot) : Controller :=
  if c.head.isActive ∧ c.head.slot ≠ some slot then { c with head := c.head.reset c.head.sector } else c

namespace Run
variable {ρ : Type} [Registers ρ]

def poll (run : Run ρ) : Status × Run ρ :=
  let p := Registers.poll run.registers
  let stats := run.controller.stats
  (p.status,
    { run with
      registers := p.registers
      ticks := run.ticks + p.ticks
      log := run.log ++ p.log
      controller.stats := { stats with polls := stats.polls + 1 } })

/-- Writes the next byte from the head. -/
def write (run : Run ρ) (slot : DriveSlot) (cache : TrackCache) (hint : Option Position) : Run ρ :=
  let c := run.controller
  let pass := c.head.next slot (c.drives.get slot) cache hint
  let (registers, log) := Registers.write run.registers pass.output.value
  { run with
    controller.head := pass.head
    controller.stats := { c.stats with
      fillers := c.stats.fillers + (if pass.output = .filler then 1 else 0)
      bytesWritten := c.stats.bytesWritten + 1 }
    registers
    written := run.written.push pass.output.value
    fills := run.fills ++ pass.fill.toList
    log := run.log ++ pass.log ++ log }

/-- How waiting for the host to take a byte ends. -/
inductive Readiness where
  | ready
  | changed
  | stalled
deriving DecidableEq, Repr

/-- Polls until the last byte is taken, but at most `patience` times. The motor line may change. -/
def await (first : Status) : Nat → Run ρ → Readiness × Run ρ
  | 0, run => (.stalled, run)
  | patience + 1, run =>
    let (status, run) := run.poll
    if !status.wanted || status.phase ≠ first.phase || status.drive ≠ first.drive then (.changed, run)
    else if status.pending then await first patience run
    else (.ready, run)

/-- Writes the rest of a frame of which `remaining` bytes are left. -/
def burst (first : Status) (cache : TrackCache) : Nat → Run ρ → Run ρ
  | 0, run => run
  | remaining + 1, run =>
    match await first (max 1 run.controller.settings.burstPollLimit) run with
    | (.changed, run) => run
    | (.stalled, run) =>
      let stats := run.controller.stats
      { run with controller.stats := { stats with burstStalls := stats.burstStalls + 1 } }
    | (.ready, run) => burst first cache remaining (run.write first.drive cache none)

end Run

/-- One poll. -/
def pollOnce {ρ : Type} [Registers ρ] (c : Controller) (registers : ρ) (cache : TrackCache) : Run ρ :=
  let (status, run) := Run.poll { controller := c, registers : Run ρ }
  let statusLog := c.statusLog status
  let (c, moveLog) := { run.controller with lastStatus := some status }.moveArm status
  let run := { run with controller := c, log := run.log ++ statusLog ++ moveLog }
  if !status.wanted || status.pending then run
  else
    let run := { run with controller := c.switchTo status.drive }
    let run := run.write status.drive cache (Registers.hint run.registers)
    if c.settings.burst then run.burst status cache run.controller.head.remaining else run

end Controller
end Floppy
