import Floppy.Controller
import Mathlib.Tactic

/-!
# Where the arms stand

Whatever the registers show, both arms stay between the stop and the last track, and a sector is asked for only on the
track that an arm stands on.
-/
namespace Floppy

namespace Drive

def OnDisk (drive : Drive) : Prop := 0 ≤ drive.halfTrack ∧ drive.halfTrack ≤ maxHalfTrack

theorem OnDisk.track_lt {drive : Drive} (onDisk : drive.OnDisk) : drive.track.toNat < trackCount := by
  obtain ⟨low, high⟩ := onDisk
  have h : ∀ n : Fin (maxHalfTrack + 1), (UInt8.ofInt ((n.val : Int).tdiv 2)).toNat < trackCount := by decide
  obtain ⟨n, same⟩ := Int.eq_ofNat_of_zero_le low
  rw [Drive.track, same]
  exact h ⟨n, by omega⟩

theorem OnDisk.home {drive : Drive} (home : drive.halfTrack = 0) : drive.OnDisk := by
  rw [OnDisk, home]
  exact ⟨le_rfl, by decide⟩

theorem OnDisk.step {drive : Drive} (h : drive.OnDisk) (lines : UInt8) : (drive.step lines).1.OnDisk := by
  unfold Drive.step
  split
  · exact h
  · dsimp only
    split
    · exact .home rfl
    · exact ⟨by simp only [maxHalfTrack, trackCount]; omega, min_le_right _ _⟩

end Drive

theorem Head.target_fill {head : Head} {slot : DriveSlot} {drive : Drive} {cache : TrackCache} {hint : Option Position}
    {fill : FillRequest} (asks : (head.next slot drive cache hint).fill = some fill) :
    fill.slot = slot ∧ fill.track = drive.track := by
  unfold Head.next at asks
  dsimp only at asks
  split at asks
  · unfold Head.start at asks
    split at asks
    · exact (Option.some.inj asks) ▸ ⟨rfl, rfl⟩
    · cases asks
  · cases asks
  · cases asks

namespace Controller

/-- Both arms stand on their disks. -/
def OnDisk (c : Controller) : Prop := ∀ slot, (c.drives.get slot).OnDisk

namespace Run
variable {ρ : Type} [Registers ρ] {run : Run ρ}

/-- Nothing beyond the last track was asked for. -/
structure OnDisk (run : Run ρ) : Prop where
  arms : run.controller.OnDisk
  fills : ∀ fill ∈ run.fills, fill.track.toNat < trackCount

namespace OnDisk

theorem await (h : run.OnDisk) (first : Status) (patience : ℕ) : (run.await first patience).2.OnDisk := by
  induction patience generalizing run with
  | zero => exact h
  | succ patience ih =>
    have polled : run.poll.2.OnDisk := ⟨h.arms, h.fills⟩
    simp only [Run.await]
    split
    · exact polled
    · split
      · exact ih polled
      · exact polled

theorem write (h : run.OnDisk) (slot : DriveSlot) (cache : TrackCache) (hint : Option Position) :
    (run.write slot cache hint).OnDisk := by
  refine ⟨h.arms, List.forall_mem_append.mpr ⟨h.fills, fun fill mem => ?_⟩⟩
  rw [(Head.target_fill (Option.mem_toList.mp mem)).2]
  exact (h.arms slot).track_lt

theorem burst (h : run.OnDisk) (first : Status) (cache : TrackCache) (remaining : ℕ) :
    (run.burst first cache remaining).OnDisk := by
  induction remaining generalizing run with
  | zero => exact h
  | succ remaining ih =>
    have waited := h.await first (max 1 run.controller.settings.burstPollLimit)
    simp only [Run.burst]
    split
    case h_1 eq => rw [eq] at waited; exact waited
    case h_2 eq => rw [eq] at waited; exact ⟨waited.arms, waited.fills⟩
    case h_3 eq => rw [eq] at waited; exact ih (waited.write first.drive cache none)

end OnDisk
end Run

variable {c : Controller}

theorem drives_moveArm (c : Controller) (status : Status) : (c.moveArm status).1.drives =
    c.drives.set status.drive (((c.drives.get status.drive).latch status).step status.phase).1 := by
  unfold Controller.moveArm
  dsimp only
  split <;> rfl

theorem moveArm_of_zero (c : Controller) {status : Status} (still : status.phase = 0) :
    (c.moveArm status).1.head = c.head ∧
      ∀ slot, ((c.moveArm status).1.drives.get slot).track = (c.drives.get slot).track := by
  have idle (drive : Drive) : drive.step 0 = (drive, .idle) := rfl
  refine ⟨?_, fun slot => ?_⟩
  · unfold Controller.moveArm
    dsimp only
    rw [still, idle]
  · rw [drives_moveArm, still, idle]
    by_cases selected : slot = status.drive
    · rw [selected, PerDrive.get_set_self]
      rfl
    · rw [PerDrive.get_set_of_ne _ selected]

theorem OnDisk.moveArm (h : c.OnDisk) (status : Status) : (c.moveArm status).1.OnDisk := by
  have latched : ((c.drives.get status.drive).latch status).OnDisk := h status.drive
  have stepped := latched.step status.phase
  intro slot
  rw [drives_moveArm]
  by_cases selected : slot = status.drive
  · rw [selected, PerDrive.get_set_self]
    exact stepped
  · rw [PerDrive.get_set_of_ne _ selected]
    exact h slot

theorem OnDisk.switchTo (h : c.OnDisk) (slot : DriveSlot) : (c.switchTo slot).OnDisk := by
  unfold Controller.switchTo
  split <;> exact h

theorem OnDisk.setVolume (h : c.OnDisk) (slot : DriveSlot) (volume : UInt8) : (c.setVolume slot volume).OnDisk := by
  intro other
  cases slot <;> cases other
  exacts [h .external, h .internal, h .external, h .internal]

theorem OnDisk.reset (c : Controller) : c.reset.OnDisk := by
  intro slot
  cases slot <;> exact .home rfl

theorem OnDisk.ofVolume (volume : UInt8) (settings : ControllerSettings) : (ofVolume volume settings).OnDisk := by
  intro slot
  cases slot <;> exact .home rfl

/-- The arms stay on their disks in a poll, and so does all that is asked for. -/
theorem OnDisk.pollOnce {ρ : Type} [Registers ρ] (h : c.OnDisk) (registers : ρ) (cache : TrackCache) :
    (c.pollOnce registers cache).OnDisk := by
  let status := (Registers.poll registers).status
  let polled : Run ρ := (Run.poll { controller := c, registers }).2
  let latched : Controller := { polled.controller with lastStatus := some status }
  have armed : latched.OnDisk := h
  have moved := armed.moveArm status
  have ready (log : Log) : Run.OnDisk
      { polled with controller := (latched.moveArm status).1.switchTo status.drive, log } :=
    ⟨moved.switchTo _, List.forall_mem_nil _⟩
  unfold Controller.pollOnce
  simp only
  split
  · exact ⟨moved, List.forall_mem_nil _⟩
  · split
    · exact ((ready _).write _ _ _).burst _ _ _
    · exact (ready _).write _ _ _

end Controller
end Floppy
