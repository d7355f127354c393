import Floppy.Bench.Levers
import Floppy.Proofs.Controller.Pieces

/-!
# What stands in the data register

The bytes that a controller writes from one reset to the next are single sync bytes and beginnings of frames,
one after the other. What is cut off is never made up for.
-/
namespace Floppy
open Gcr

namespace Controller
variable {ρ : Type} [Registers ρ]

/-- The bytes that a poll writes, each with the drive that the poll selects and what it finds there. The arm
moves before the first byte is written. -/
def deposits (run : Run ρ) (slot : DriveSlot) (cache : TrackCache) : List Deposit :=
  run.written.toList.map fun byte =>
    ⟨byte, slot, (run.controller.drives.get slot).track, (run.controller.drives.get slot).volume, cache⟩

/-- A run of a controller wrote these pieces, the last of them for this drive. -/
def Wrote (before : List Deposit) (slot : DriveSlot) (cache : TrackCache) (run : Run ρ) : Prop :=
  ∃ pieces : List Piece, pieces.flatMap (·.deposits) = before ++ deposits run slot cache ∧
    Woven run.controller.head pieces ∧
    (run.controller.head.state = .inactive ∨ run.controller.head.slot = some slot)

namespace Wrote
variable {before : List Deposit} {slot : DriveSlot} {cache : TrackCache} {run : Run ρ}

theorem poll (h : Wrote before slot cache run) : Wrote before slot cache run.poll.2 := h

theorem await (h : Wrote before slot cache run) (first : Status) (patience : ℕ) :
    Wrote before slot cache (run.await first patience).2 := by
  induction patience generalizing run with
  | zero => exact h
  | succ patience ih =>
    simp only [Run.await]
    split
    · exact h.poll
    · split
      · exact ih h.poll
      · exact h.poll

theorem write (h : Wrote before slot cache run) (hint : Option Position) :
    Wrote before slot cache (run.write slot cache hint) := by
  obtain ⟨pieces, same, woven, owner⟩ := h
  obtain ⟨grown, more, woven, owner⟩ := woven.next owner (run.controller.drives.get slot) cache hint
  refine ⟨grown, ?_, woven, .inr owner⟩
  rw [more, same]
  simp [deposits, Run.write]

theorem burst (first : Status) (remaining : ℕ) (h : Wrote before first.drive cache run) :
    Wrote before first.drive cache (run.burst first cache remaining) := by
  induction remaining generalizing run with
  | zero => exact h
  | succ remaining ih =>
    have waited := h.await first (max 1 run.controller.settings.burstPollLimit)
    simp only [Run.burst]
    split
    case h_1 eq => rw [eq] at waited; exact waited
    case h_2 eq => rw [eq] at waited; exact waited
    case h_3 eq => rw [eq] at waited; exact ih (waited.write none)

end Wrote

theorem moveArm_woven {c : Controller} {pieces : List Piece} (h : Woven c.head pieces) (status : Status) :
    Woven (c.moveArm status).1.head pieces := by
  rcases stepped : ((c.drives.get status.drive).latch status).step status.phase with ⟨drive, step⟩
  cases step with
  | idle => simpa only [moveArm, stepped] using h
  | hitStop => simpa only [moveArm, stepped] using h.reset 0
  | moved a b => simpa only [moveArm, stepped] using h.moveTo drive.track

theorem switchTo_woven {c : Controller} {pieces : List Piece} (h : Woven c.head pieces) (slot : DriveSlot) :
    Woven (c.switchTo slot).head pieces ∧
      ((c.switchTo slot).head.state = .inactive ∨ (c.switchTo slot).head.slot = some slot) := by
  unfold switchTo
  split
  case isTrue => exact ⟨h.reset _, .inl (Woven.abandon_state c.head)⟩
  case isFalse same =>
    refine ⟨h, ?_⟩
    by_cases idle : c.head.state = .inactive
    · exact .inl idle
    · exact .inr (by simpa [Head.isActive, idle] using same)

theorem pollOnce_woven {c : Controller} {pieces : List Piece} (h : Woven c.head pieces) (registers : ρ)
    (cache : TrackCache) :
    ∃ grown : List Piece, grown.flatMap (·.deposits) = pieces.flatMap (·.deposits) ++
        deposits (c.pollOnce registers cache) (Registers.poll registers).status.drive cache ∧
      Woven (c.pollOnce registers cache).controller.head grown := by
  let status := (Registers.poll registers).status
  let polled : Run ρ := (Run.poll { controller := c, registers }).2
  let latched : Controller := { polled.controller with lastStatus := some status }
  let moved := latched.moveArm status
  have armed : Woven moved.1.head pieces := moveArm_woven (c := latched) h status
  obtain ⟨switched, owner⟩ := switchTo_woven armed status.drive
  have ready (log : Log) : Wrote (pieces.flatMap (·.deposits)) status.drive cache
      { polled with controller := moved.1.switchTo status.drive, log } :=
    ⟨pieces, by simp [deposits, polled, Run.poll], switched, owner⟩
  unfold pollOnce
  simp only
  split
  · exact ⟨pieces, by simp [deposits, Run.poll], armed⟩
  · split
    · obtain ⟨grown, same, woven, -⟩ := ((ready _).write _).burst status _
      exact ⟨grown, same, woven⟩
    · obtain ⟨grown, same, woven, -⟩ := (ready _).write _
      exact ⟨grown, same, woven⟩

/-- What can happen to a controller. Registers, cache and settings may be others each time. -/
inductive Event (ρ : Type) where
  | poll (registers : ρ) (cache : TrackCache)
  | configure (settings : ControllerSettings)
  | setVolume (slot : DriveSlot) (volume : UInt8)
  | resetHead
  | reset

/-- A controller with all that it wrote, from one reset to the next, and with what its head had counted by
then. -/
structure Tape where
  controller : Controller
  finished : List (HeadStats × List Deposit) := []
  current : List Deposit := []

namespace Tape

def step (tape : Tape) : Event ρ → Tape
  | .poll registers cache =>
    let run := tape.controller.pollOnce registers cache
    { tape with
      controller := run.controller
      current := tape.current ++ deposits run (Registers.poll registers).status.drive cache }
  | .configure settings => { tape with controller.settings := settings }
  | .setVolume slot volume => { tape with controller := tape.controller.setVolume slot volume }
  | .resetHead => { tape with controller := tape.controller.resetHead }
  | .reset =>
    { controller := tape.controller.reset
      finished := tape.finished ++ [(tape.controller.head.stats, tape.current)] }

def run (tape : Tape) (events : List (Event ρ)) : Tape := events.foldl step tape

/-- What was written from one reset to the next, the latest last. -/
def sessions (tape : Tape) : List (HeadStats × List Deposit) :=
  tape.finished ++ [(tape.controller.head.stats, tape.current)]

/-- All that was written up to the last reset is unspliced, and so is what was written since, with the head
where the last piece leaves it. -/
structure Sound (tape : Tape) : Prop where
  finished : ∀ session ∈ tape.finished, Unspliced session.1 session.2
  current : ∃ pieces : List Piece, pieces.flatMap (·.deposits) = tape.current ∧
    Woven tape.controller.head pieces

theorem Sound.step {tape : Tape} (h : tape.Sound) (event : Event ρ) : (tape.step event).Sound := by
  obtain ⟨pieces, same, woven⟩ := h.current
  cases event with
  | poll registers cache =>
    obtain ⟨grown, more, woven⟩ := pollOnce_woven woven registers cache
    exact ⟨h.finished, grown, by rw [more, same]; rfl, woven⟩
  | configure settings => exact ⟨h.finished, pieces, same, woven⟩
  | setVolume slot volume => exact ⟨h.finished, pieces, same, woven⟩
  | resetHead => exact ⟨h.finished, pieces, same, woven.reset 0⟩
  | reset =>
    refine ⟨?_, [], rfl, .fresh⟩
    intro session hsession
    rcases List.mem_append.mp hsession with old | new
    · exact h.finished session old
    · rw [List.mem_singleton.mp new, ← same]
      exact woven.unspliced

theorem Sound.run {tape : Tape} (h : tape.Sound) (events : List (Event ρ)) : (tape.run events).Sound := by
  induction events generalizing tape with
  | nil => exact h
  | cons event rest ih => exact ih (h.step event)

end Tape

/-- Whatever the registers show, whatever the cache holds from poll to poll, and whenever disks, settings
and the head change: from one reset to the next a controller writes single sync bytes and beginnings of
frames, as many frames as its head has begun, each of a sector that could be read when its first byte was
written, and each with the drive and the track unchanged. -/
theorem deposits_unspliced (volume : UInt8) (settings : ControllerSettings) (events : List (Event ρ)) :
    ∀ session ∈ (Tape.run { controller := .ofVolume volume settings } events).sessions,
      Unspliced session.1 session.2 := by
  have start : Tape.Sound { controller := ofVolume volume settings } := ⟨by simp, [], rfl, .fresh⟩
  obtain ⟨finished, pieces, same, woven⟩ := start.run events
  intro session hsession
  rcases List.mem_append.mp hsession with old | new
  · exact finished session old
  · rw [List.mem_singleton.mp new, ← same]
    exact woven.unspliced

/-- A byte of a blank sector is wanted, then the controller is reset. -/
def oneByte : List (Event Bench.Levers) :=
  [.poll { lines := { phase := 0, motor := true, drive := .external, wanted := true, pending := false } }
      ((TrackCache.empty.retag .external 0 defaultVolume).commit .external 0 .zero),
    .reset]

theorem deposits_unspliced_oneByte :
    ∃ session ∈ (Tape.run { controller := .ofVolume defaultVolume { burst := false } } oneByte).sessions,
      session.2.length = 1 ∧ session.1.headersSent = 1 ∧ Unspliced session.1 session.2 := by
  let tape := Tape.run { controller := .ofVolume defaultVolume { burst := false } } oneByte
  have some : tape.finished ≠ [] := List.cons_ne_nil _ _
  have mem : tape.finished.head some ∈ tape.sessions := List.mem_append_left _ (List.head_mem some)
  exact ⟨tape.finished.head some, mem, rfl, rfl, deposits_unspliced _ _ oneByte _ mem⟩

end Controller

end Floppy
