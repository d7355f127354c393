import Floppy.Bench.Levers
import Floppy.Proofs.Controller.Pieces
import Floppy.Proofs.Controller.Poll

/-!
# While nothing moves the arm

As long as the external drive is selected and no phase is energized, the arm stays where it is and its drive
stays the same, over polls, waits and bursts. What was written is never taken back.
-/
namespace Floppy
open Gcr

namespace Bench.Levers

/-- The external drive is selected and no phase is energized, now and in all that is still to be shown. -/
structure Still (l : Levers) : Prop where
  drive : l.lines.drive = .external
  phase : l.lines.phase = 0
  script : ∀ b ∈ l.script, (Status.ofByte b).drive = .external ∧ (Status.ofByte b).phase = 0

namespace Still
variable {l : Levers}

theorem settle (h : l.Still) : l.settle.Still := by
  unfold Levers.settle
  split
  case isTrue => exact h
  case isFalse => split <;> exact ⟨h.drive, h.phase, h.script⟩

theorem poll (h : l.Still) :
    (Registers.poll l).status.drive = .external ∧ (Registers.poll l).status.phase = 0 ∧
      (Registers.poll l).registers.Still := by
  change l.poll.status.drive = .external ∧ l.poll.status.phase = 0 ∧ l.poll.registers.Still
  unfold Levers.poll
  cases shown : l.script with
  | nil => exact ⟨h.settle.drive, h.settle.phase, h.settle⟩
  | cons b script =>
    have tail : ∀ c ∈ script, (Status.ofByte c).drive = .external ∧ (Status.ofByte c).phase = 0 :=
      fun c mem => h.script c (by simp [shown, mem])
    exact ⟨(h.script b (by simp [shown])).1, (h.script b (by simp [shown])).2, h.drive, h.phase, tail⟩

theorem write (h : l.Still) (byte : UInt8) : (Registers.write l byte).1.Still := ⟨h.drive, h.phase, h.script⟩

end Still

theorem written_poll (l : Levers) : (Registers.poll l).registers.written = l.written := by
  change l.poll.registers.written = l.written
  unfold Levers.poll Levers.settle
  split
  · rfl
  · split
    · rfl
    · split <;> rfl

theorem hint_poll (l : Levers) : (Registers.poll l).registers.hint = l.hint := by
  change l.poll.registers.hint = l.hint
  unfold Levers.poll Levers.settle
  split
  · rfl
  · split
    · rfl
    · split <;> rfl

@[simp] theorem written_write (l : Levers) (byte : UInt8) :
    (Registers.write l byte).1.written = l.written.push byte := rfl

end Bench.Levers

namespace Controller
open Bench (Levers)

/-- The arm of the external drive stands on a track, and the lines will leave it there. -/
structure Rests (track volume : UInt8) (c : Controller) (registers : Levers) : Prop where
  still : registers.Still
  track : (c.drives.get .external).track = track
  volume : (c.drives.get .external).volume = volume

theorem Rests.congr {track volume : UInt8} {c d : Controller} {registers next : Levers}
    (h : Rests track volume c registers) (same : next = registers) (drives : d.drives = c.drives) :
    Rests track volume d next := by
  subst same
  exact ⟨h.still, drives ▸ h.track, drives ▸ h.volume⟩

abbrev Stands (track volume : UInt8) (run : Run Levers) : Prop :=
  Rests track volume run.controller run.registers

variable {track volume : UInt8} {run : Run Levers}

theorem Rests.poll (h : Stands track volume run) : Stands track volume run.poll.2 :=
  ⟨h.still.poll.2.2, h.track, h.volume⟩

theorem Rests.write (h : Stands track volume run) (slot : DriveSlot) (cache : TrackCache)
    (hint : Option Position) : Stands track volume (run.write slot cache hint) :=
  ⟨h.still.write _, h.track, h.volume⟩

theorem Rests.await (first : Status) (patience : ℕ) (h : Stands track volume run) :
    Stands track volume (run.await first patience).2 := by
  induction patience generalizing run with
  | zero => exact h
  | succ patience ih =>
    unfold Run.await
    dsimp only
    split
    case isTrue => exact h.poll
    case isFalse =>
      split
      case isTrue => exact ih h.poll
      case isFalse => exact h.poll

/-- Two runs with the same head that have written and asked for the same. -/
structure Alike (run next : Run Levers) : Prop where
  head : next.controller.head = run.controller.head
  fills : next.fills = run.fills
  written : next.registers.written = run.registers.written

theorem Alike.trans {a b c : Run Levers} (h : Alike a b) (g : Alike b c) : Alike a c :=
  ⟨g.head.trans h.head, g.fills.trans h.fills, g.written.trans h.written⟩

theorem alike_poll (run : Run Levers) : Alike run run.poll.2 := ⟨rfl, rfl, run.registers.written_poll⟩

theorem alike_await (first : Status) (patience : ℕ) (run : Run Levers) :
    Alike run (run.await first patience).2 := by
  induction patience generalizing run with
  | zero => exact ⟨rfl, rfl, rfl⟩
  | succ patience ih =>
    unfold Run.await
    dsimp only
    split
    case isTrue => exact alike_poll run
    case isFalse =>
      split
      case isTrue => exact (alike_poll run).trans (ih run.poll.2)
      case isFalse => exact alike_poll run

theorem written_write (run : Run Levers) (slot : DriveSlot) (cache : TrackCache) (hint : Option Position) :
    run.registers.written.toList <+: (run.write slot cache hint).registers.written.toList := by
  simp [Run.write]

theorem written_burst (first : Status) (cache : TrackCache) (remaining : ℕ) (run : Run Levers) :
    run.registers.written.toList <+: (run.burst first cache remaining).registers.written.toList := by
  induction remaining generalizing run with
  | zero => exact List.prefix_refl _
  | succ remaining ih =>
    have awaited := (alike_await first (max 1 run.controller.settings.burstPollLimit) run).written
    unfold Run.burst
    rcases found : run.await first (max 1 run.controller.settings.burstPollLimit) with ⟨readiness, next⟩
    rw [found] at awaited
    rw [← awaited]
    cases readiness with
    | changed => exact List.prefix_refl _
    | stalled => exact List.prefix_refl _
    | ready => exact (written_write ..).trans (ih _)

theorem written_polled (c : Controller) (registers : Levers) :
    (c.polled registers).registers.written = registers.written := registers.written_poll

theorem length_written_serve (run : Run Levers) (status : Status) (cache : TrackCache) :
    run.registers.written.toList.length < (run.serve status cache).registers.written.toList.length := by
  let next := (run.switch status.drive).write status.drive cache (Registers.hint run.registers)
  have first : next.registers.written.toList.length = run.registers.written.toList.length + 1 := by
    simp [next, Run.write, Run.switch]
  have rest : next.registers.written.toList <+: (run.serve status cache).registers.written.toList := by
    unfold Run.serve
    split
    case isTrue => exact written_burst ..
    case isFalse => exact List.prefix_refl _
  exact (Nat.lt_of_lt_of_eq (Nat.lt_succ_self _) first.symm).trans_le rest.length_le

theorem written_serve (run : Run Levers) (status : Status) (cache : TrackCache) :
    run.registers.written.toList <+: (run.serve status cache).registers.written.toList := by
  have first := written_write (run.switch status.drive) status.drive cache run.registers.hint
  unfold Run.serve
  dsimp only
  split
  case isTrue => exact first.trans (written_burst ..)
  case isFalse => exact first

theorem written_pollOnce (c : Controller) (registers : Levers) (cache : TrackCache) :
    registers.written.toList <+: (c.pollOnce registers cache).registers.written.toList := by
  rw [pollOnce_eq, ← c.written_polled registers]
  split
  case isTrue => exact List.prefix_refl _
  case isFalse => exact written_serve ..

theorem length_written_pollOnce {c : Controller} {registers : Levers} (cache : TrackCache)
    (wanted : (Registers.poll registers).status.wanted = true)
    (free : (Registers.poll registers).status.pending = false) :
    registers.written.toList.length < (c.pollOnce registers cache).registers.written.toList.length := by
  rw [pollOnce_eq, wanted, free, ← c.written_polled registers]
  exact length_written_serve ..

variable {c : Controller} {registers : Levers}

theorem Rests.lonePhase (h : Rests track volume c registers) :
    Drive.lonePhase? (Registers.poll registers).status.phase = none := by
  rw [h.still.poll.2.1]
  decide

theorem head_polled (h : Rests track volume c registers) : (c.polled registers).controller.head = c.head := by
  simp only [polled, Run.poll, moveArm, Drive.step, h.lonePhase]

theorem Rests.polled (h : Rests track volume c registers) : Stands track volume (c.polled registers) := by
  obtain ⟨slot, -, still⟩ := h.still.poll
  refine ⟨still, ?_, ?_⟩
  · simp only [Controller.polled, Run.poll, moveArm, Drive.step, h.lonePhase, slot, PerDrive.get_set_self]
    exact h.track
  · simp only [Controller.polled, Run.poll, moveArm, Drive.step, h.lonePhase, slot, PerDrive.get_set_self]
    exact h.volume

theorem Run.switch_of_slot {slot : DriveSlot} (h : run.controller.head.slot = some slot) :
    run.switch slot = run := by
  have same : run.controller.switchTo slot = run.controller := if_neg fun torn => torn.2 h
  rw [switch, same]

theorem switchTo_of_ne {slot : DriveSlot} (h : c.head.slot ≠ some slot) :
    (c.switchTo slot).head.state = .inactive ∧ (c.switchTo slot).head.slot = c.head.slot ∧
      (c.switchTo slot).drives = c.drives := by
  unfold switchTo
  split
  case isTrue active => simp [Head.reset, Head.abandon, active.1]
  case isFalse idle =>
    have state : c.head.state = .inactive := by simpa [Head.isActive, h] using idle
    exact ⟨state, rfl, rfl⟩

end Controller
end Floppy
