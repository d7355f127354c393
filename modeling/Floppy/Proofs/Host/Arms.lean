import Floppy.Proofs.Byte
import Floppy.Proofs.Controller.Arm
import Floppy.Proofs.Controller.Observed
import Floppy.Proofs.Host.ByteOutcome

/-!
# Where a host takes the arms to be

A host pulls an arm by one phase line at a time, and the drive follows only the first read of a poll. Still no phase is
lost: where the host has found the stop of a drive once, it knows the half track of its arm, and while it looks for a
sector or reads it the arm stands on the track of the sector.
-/
namespace Floppy
open Gcr

namespace Drive
variable {drive : Drive}

theorem step_lone {lines phase : UInt8} (lone : lonePhase? lines = some phase) : (drive.step lines).1 =
    { drive with phase, halfTrack := max 0 (min (drive.halfTrack + pull drive.phase phase) maxHalfTrack) } := by
  unfold step
  rw [lone]
  dsimp only
  split
  case isTrue past =>
    rw [max_eq_left (by omega)]
  case isFalse inside =>
    rw [max_eq_right (by simp only [maxHalfTrack, trackCount]; omega)]

def phaseOf (halfTrack : ℤ) : UInt8 := UInt8.ofInt (halfTrack % 4)

theorem lonePhase?_phaseLine (halfTrack : ℤ) : lonePhase? (Host.phaseLine halfTrack) = some (phaseOf halfTrack) := by
  have phases : halfTrack % 4 = 0 ∨ halfTrack % 4 = 1 ∨ halfTrack % 4 = 2 ∨ halfTrack % 4 = 3 := by omega
  unfold Host.phaseLine phaseOf
  rcases phases with same | same | same | same <;> rw [same] <;> decide

theorem pull_phaseOf (halfTrack : ℤ) : pull (phaseOf halfTrack) (phaseOf (halfTrack + 1)) = 1 ∧
    pull (phaseOf (halfTrack + 1)) (phaseOf halfTrack) = -1 := by
  have phases : halfTrack % 4 = 0 ∧ (halfTrack + 1) % 4 = 1 ∨ halfTrack % 4 = 1 ∧ (halfTrack + 1) % 4 = 2 ∨
      halfTrack % 4 = 2 ∧ (halfTrack + 1) % 4 = 3 ∨ halfTrack % 4 = 3 ∧ (halfTrack + 1) % 4 = 0 := by omega
  unfold phaseOf
  rcases phases with ⟨same, next⟩ | ⟨same, next⟩ | ⟨same, next⟩ | ⟨same, next⟩ <;> rw [same, next] <;> decide

/-- The arm stands on a half track, pulled there by its phase. -/
structure At (drive : Drive) (arm : ℤ) : Prop where
  halfTrack : drive.halfTrack = arm
  phase : drive.phase = phaseOf arm

theorem At.step {arm next : ℤ} (h : drive.At arm) (beside : next = arm + 1 ∨ next = arm - 1) (low : 0 ≤ next)
    (high : next ≤ maxHalfTrack) : (drive.step (Host.phaseLine next)).1.At next := by
  have pulled : arm + pull (phaseOf arm) (phaseOf next) = next := by
    rcases beside with rfl | rfl
    · rw [(pull_phaseOf arm).1]
    · have down := (pull_phaseOf (arm - 1)).2
      rw [sub_add_cancel] at down
      rw [down, ← sub_eq_add_neg]
  rw [step_lone (lonePhase?_phaseLine next), h.phase, h.halfTrack, pulled, min_eq_left high, max_eq_right low]
  exact ⟨rfl, rfl⟩

/-- So many steps outward surely reach the stop. -/
structure Near (drive : Drive) (left : ℕ) : Prop where
  halfTrack : drive.halfTrack ≤ left
  phase : drive.phase = phaseOf left

theorem Near.step {left : ℕ} (h : drive.Near (left + 1)) : (drive.step (Host.phaseLine left)).1.Near left := by
  have down := (pull_phaseOf left).2
  have near := h.halfTrack
  rw [step_lone (lonePhase?_phaseLine left), h.phase, Nat.cast_succ, down]
  refine ⟨?_, rfl⟩
  dsimp only
  omega

theorem near_step (drive : Drive) {left : ℕ} (many : maxHalfTrack ≤ left) :
    (drive.step (Host.phaseLine left)).1.Near left := by
  rw [step_lone (lonePhase?_phaseLine left)]
  refine ⟨?_, rfl⟩
  dsimp only
  omega

theorem Near.stop (onDisk : drive.OnDisk) (h : drive.Near 0) : drive.At 0 :=
  ⟨le_antisymm h.halfTrack onDisk.1, h.phase⟩

theorem step_zero (drive : Drive) : (drive.step 0).1 = drive := rfl

end Drive

namespace Host

/-- A track of the disk, which the selected drive is to read. -/
structure Handles (host : Host) (job : Job) : Prop where
  taken : host.current = some job
  slot : job.slot = host.slot
  onDisk : job.track.toNat < trackCount

/-- What a host is at, beside the drive that it has selected. -/
inductive Stage (host : Host) (drive : Drive) : Prop
  | resting (activity : host.activity = .idle ∨ host.activity = .done) (free : host.current = none)
      (lines : host.phaseLines = 0)
  | recalibrating {job : Job} {left : ℕ} (activity : host.activity = .recalibrate (left + 1))
      (handles : host.Handles job) (lost : host.arms.get host.slot = none)
      (near : left + 1 = recalibrateSteps ∨ drive.Near (left + 1))
  | seeking {job : Job} {arm : ℤ} (activity : host.activity = .seek (2 * job.track.toNat)) (handles : host.Handles job)
      (known : host.arms.get host.slot = some arm)
  | reading {job : Job} (wanted : host.wanted = true) (handles : host.Handles job)
      (known : host.arms.get host.slot = some (2 * job.track.toNat)) (lines : host.phaseLines = 0)

theorem Stage.of_wanted {host : Host} {drive : Drive} (h : host.Stage drive) (wanted : host.wanted = true) :
    ∃ job, host.Handles job ∧ host.arms.get host.slot = some (2 * job.track.toNat) ∧ host.phaseLines = 0 := by
  cases h with
  | resting activity =>
    rcases activity with activity | activity
    · rw [Host.wanted, activity] at wanted
      cases wanted
    · rw [Host.wanted, activity] at wanted
      cases wanted
  | recalibrating activity =>
    rw [Host.wanted, activity] at wanted
    cases wanted
  | seeking activity =>
    rw [Host.wanted, activity] at wanted
    cases wanted
  | reading _ handles known lines => exact ⟨_, handles, known, lines⟩

/-- The host knows where the arms are. -/
structure Aligned (host : Host) (drives : PerDrive Drive) : Prop where
  jobs : ∀ job ∈ host.jobs, job.track.toNat < trackCount
  onDisk : ∀ slot, (drives.get slot).OnDisk
  known : ∀ slot arm, host.arms.get slot = some arm → (drives.get slot).At arm
  stage : host.Stage (drives.get host.slot)

theorem halfTrackOf_of_lt {track : UInt8} (onDisk : track.toNat < trackCount) :
    halfTrackOf track = 2 * track.toNat :=
  forall_byte (p := fun t => t.toNat < trackCount → halfTrackOf t = 2 * t.toNat) (by decide) track onDisk

variable {host : Host} {job : Job} {drives : PerDrive Drive}

theorem cases_of_wanted (wanted : host.wanted = true) :
    (∃ window headers, host.activity = .findAddress window headers) ∨ ∃ reader, host.activity = .readData reader := by
  cases doing : host.activity with
  | findAddress window headers => exact .inl ⟨window, headers, rfl⟩
  | readData reader => exact .inr ⟨reader, rfl⟩
  | _ =>
    rw [Host.wanted, doing] at wanted
    cases wanted

theorem advance_of_wanted (wanted : host.wanted = true) : host.advance.1 = host := by
  obtain ⟨window, headers, looks⟩ | ⟨reader, reads⟩ := cases_of_wanted wanted
  · simp only [advance, looks]
  · simp only [advance, reads]

theorem startSeek_eq (handles : host.Handles job) :
    ∃ seeks, host.startSeek = { host with report.seeks := seeks, activity := .seek (2 * job.track.toNat) } := by
  unfold startSeek
  rw [handles.taken, ← halfTrackOf_of_lt handles.onDisk]
  exact ⟨_, rfl⟩

def follow (host : Host) (drives : PerDrive Drive) : PerDrive Drive :=
  drives.set host.slot ((drives.get host.slot).step host.phaseLines).1

namespace Aligned

/-- The selected drive takes a step, and the host knows of it. -/
theorem of_set {next : Host} {drive : Drive} (h : Aligned host drives)
    (jobs : ∀ job ∈ next.jobs, job.track.toNat < trackCount) (onDisk : drive.OnDisk)
    (others : ∀ slot ≠ next.slot, next.arms.get slot = host.arms.get slot)
    (known : ∀ arm, next.arms.get next.slot = some arm → drive.At arm) (stage : next.Stage drive) :
    Aligned next (drives.set next.slot drive) where
  jobs := jobs
  onDisk slot := by
    by_cases own : slot = next.slot
    · rw [own, PerDrive.get_set_self]
      exact onDisk
    · rw [PerDrive.get_set_of_ne _ own]
      exact h.onDisk slot
  known slot arm knows := by
    by_cases own : slot = next.slot
    · rw [own] at knows
      rw [own, PerDrive.get_set_self]
      exact known arm knows
    · rw [others slot own] at knows
      rw [PerDrive.get_set_of_ne _ own]
      exact h.known slot arm knows
  stage := by
    rw [PerDrive.get_set_self]
    exact stage

theorem of_lines {next : Host} (lines : next.phaseLines = 0) (h : Aligned next drives) :
    Aligned next (next.follow drives) := by
  rw [follow, lines, Drive.step_zero, PerDrive.set_get]
  exact h

theorem nextJob (h : Aligned host drives) (free : host.current = none) (lines : host.phaseLines = 0) :
    Aligned host.nextJob.1 drives ∧ host.nextJob.1.phaseLines = 0 := by
  unfold Host.nextJob
  cases queued : host.jobs with
  | nil => exact ⟨⟨List.forall_mem_nil _, h.onDisk, h.known, .resting (.inr rfl) free lines⟩, lines⟩
  | cons job jobs =>
    have low := List.forall_mem_cons.mp (queued ▸ h.jobs)
    dsimp only
    cases known : host.arms.get job.slot with
    | none =>
      have steps : Activity.recalibrate recalibrateSteps = .recalibrate (75 + 1) := rfl
      exact ⟨⟨low.2, h.onDisk, h.known, .recalibrating steps ⟨rfl, rfl, low.1⟩ known (.inl rfl)⟩, lines⟩
    | some arm =>
      let next : Host := { host with jobs, current := some job, jobBytes := 0, slot := job.slot }
      have handles : next.Handles job := ⟨rfl, rfl, low.1⟩
      obtain ⟨seeks, same⟩ := startSeek_eq handles
      rw [Option.isNone_some, if_neg Bool.false_ne_true, same]
      exact ⟨⟨low.2, h.onDisk, h.known, .seeking rfl ⟨rfl, rfl, low.1⟩ known⟩, lines⟩

/-- A step outward. The last one finds the stop. -/
theorem recalibrate (h : Aligned host drives) {left : ℕ} (activity : host.activity = .recalibrate (left + 1))
    (handles : host.Handles job) (lost : host.arms.get host.slot = none)
    (near : left + 1 = recalibrateSteps ∨ (drives.get host.slot).Near (left + 1)) :
    Aligned host.advance.1 (host.advance.1.follow drives) := by
  have onDisk := (h.onDisk host.slot).step (phaseLine left)
  have nearer : ((drives.get host.slot).step (phaseLine left)).1.Near left := by
    rcases near with first | near
    · exact Drive.near_step _ (by simp only [recalibrateSteps, maxHalfTrack, trackCount] at first ⊢; omega)
    · exact near.step
  simp only [Host.advance, activity, Nat.add_sub_cancel]
  cases left with
  | zero =>
    let next : Host :=
      { host with
        activity := .recalibrate 0
        phaseLines := phaseLine (0 : ℕ)
        arms := host.arms.set host.slot (some 0) }
    have handles : next.Handles job := ⟨handles.taken, handles.slot, handles.onDisk⟩
    obtain ⟨seeks, same⟩ := startSeek_eq handles
    have found : (host.arms.set host.slot (some 0)).get host.slot = some 0 := PerDrive.get_set_self _ _ _
    have stop := nearer.stop onDisk
    rw [if_pos rfl]
    change Aligned next.startSeek (next.startSeek.follow drives)
    rw [same]
    refine h.of_set h.jobs onDisk (fun slot other => PerDrive.get_set_of_ne _ other _) (fun arm known => ?_) ?_
    · obtain rfl : 0 = arm := Option.some.inj (found.symm.trans known)
      exact stop
    · exact .seeking rfl ⟨handles.taken, handles.slot, handles.onDisk⟩ found
  | succ left =>
    rw [if_neg (Nat.succ_ne_zero left)]
    refine h.of_set h.jobs onDisk (fun _ _ => rfl) (fun arm known => ?_) ?_
    · rw [lost] at known
      cases known
    · exact .recalibrating rfl ⟨handles.taken, handles.slot, handles.onDisk⟩ lost (.inr nearer)

/-- A step toward the track of the job, or the arm has arrived. -/
theorem seek (h : Aligned host drives) {arm : ℤ} (activity : host.activity = .seek (2 * job.track.toNat))
    (handles : host.Handles job) (known : host.arms.get host.slot = some arm) :
    Aligned host.advance.1 (host.advance.1.follow drives) := by
  have here := h.known host.slot arm known
  simp only [Host.advance, activity, known]
  by_cases arrived : arm = 2 * job.track.toNat
  · rw [if_pos arrived]
    rw [arrived] at known
    exact .of_lines rfl
      ⟨h.jobs, h.onDisk, h.known, .reading rfl ⟨handles.taken, handles.slot, handles.onDisk⟩ known rfl⟩
  · rw [if_neg arrived]
    obtain ⟨low, high⟩ := h.onDisk host.slot
    rw [here.halfTrack] at low high
    have target := handles.onDisk
    simp only [maxHalfTrack, trackCount] at high target
    have found (next : ℤ) : (host.arms.set host.slot (some next)).get host.slot = some next :=
      PerDrive.get_set_self _ _ _
    refine h.of_set h.jobs ((h.onDisk host.slot).step _) (fun slot other => PerDrive.get_set_of_ne _ other _)
      (fun next knows => ?_) ?_
    · obtain rfl := Option.some.inj ((found _).symm.trans knows)
      refine here.step (by split <;> simp) (by split <;> omega) ?_
      simp only [maxHalfTrack, trackCount]
      split <;> omega
    · exact .seeking rfl ⟨handles.taken, handles.slot, handles.onDisk⟩ (found _)

theorem advance (h : Aligned host drives) : Aligned host.advance.1 (host.advance.1.follow drives) := by
  cases h.stage with
  | resting activity free lines =>
    rcases activity with idle | done
    · have next := h.nextJob free lines
      simp only [Host.advance, idle]
      exact .of_lines next.2 next.1
    · simp only [Host.advance, done]
      exact .of_lines lines h
  | recalibrating activity handles lost near => exact h.recalibrate activity handles lost near
  | seeking activity handles known => exact h.seek activity handles known
  | reading wanted handles known lines =>
    rw [advance_of_wanted wanted]
    exact .of_lines lines h

/-- The motor and the request lines have nothing to do with the arm. -/
theorem latch (h : Aligned host drives) (slot : DriveSlot) (status : Status) :
    Aligned host (drives.set slot ((drives.get slot).latch status)) := by
  have same (other : DriveSlot) :
      ((drives.set slot ((drives.get slot).latch status)).get other).halfTrack = (drives.get other).halfTrack ∧
      ((drives.set slot ((drives.get slot).latch status)).get other).phase = (drives.get other).phase := by
    by_cases own : other = slot
    · rw [own, PerDrive.get_set_self]
      exact ⟨rfl, rfl⟩
    · rw [PerDrive.get_set_of_ne _ own]
      exact ⟨rfl, rfl⟩
  refine ⟨h.jobs, fun other => ?_, fun other arm knows => ?_, ?_⟩
  · rw [Drive.OnDisk, (same other).1]
    exact h.onDisk other
  · have here := h.known other arm knows
    exact ⟨(same other).1.trans here.halfTrack, (same other).2.trans here.phase⟩
  · cases h.stage with
    | resting activity free lines => exact .resting activity free lines
    | recalibrating activity handles lost near =>
      refine .recalibrating activity handles lost (near.imp_right fun near => ?_)
      exact ⟨(same _).1.trans_le near.halfTrack, (same _).2.trans near.phase⟩
    | seeking activity handles known => exact .seeking activity handles known
    | reading wanted handles known lines => exact .reading wanted handles known lines

/-- What the host does not have to do with the arms may change. -/
theorem congr {next : Host} (h : Aligned host drives) (jobs : next.jobs = host.jobs)
    (activity : next.activity = host.activity) (current : next.current = host.current) (slot : next.slot = host.slot)
    (arms : next.arms = host.arms) (lines : next.phaseLines = host.phaseLines) : Aligned next drives := by
  obtain ⟨jobs', current', activity', slot', arms', lines', pending, bytes, images, report⟩ := next
  dsimp only at jobs activity current slot arms lines
  subst jobs activity current slot arms lines
  refine ⟨h.jobs, h.onDisk, h.known, ?_⟩
  cases h.stage with
  | resting activity free lines => exact .resting activity free lines
  | recalibrating activity handles lost near =>
    exact .recalibrating activity ⟨handles.taken, handles.slot, handles.onDisk⟩ lost near
  | seeking activity handles known => exact .seeking activity ⟨handles.taken, handles.slot, handles.onDisk⟩ known
  | reading wanted handles known lines =>
    exact .reading wanted ⟨handles.taken, handles.slot, handles.onDisk⟩ known lines

theorem poll (h : Aligned host drives) :
    let status := (Registers.poll host).status
    Aligned (Registers.poll host).registers
      (drives.set status.drive (((drives.get status.drive).latch status).step status.phase).1) := by
  intro status
  have moved := (h.latch status.drive status).advance
  let drives' := drives.set status.drive ((drives.get status.drive).latch status)
  change Aligned host.advance.1 (drives'.set status.drive ((drives'.get status.drive).step status.phase).1) at moved
  rw [PerDrive.get_set_self, PerDrive.set_set] at moved
  exact moved.congr rfl rfl rfl rfl rfl rfl

end Aligned

def Still (host : Host) : Prop :=
  match host.activity with
  | .recalibrate _ | .seek _ => False
  | _ => True

theorem still_of_wanted (wanted : host.wanted = true) : host.Still := by
  obtain ⟨window, headers, looks⟩ | ⟨reader, reads⟩ := cases_of_wanted wanted
  · simp only [Still, looks]
  · simp only [Still, reads]

/-- After this the host looks for a sector or reads it, or has settled its job. -/
def Ruling.Reading : Ruling → Prop
  | .goes activity _ => ∀ host : Host, { host with activity }.wanted = true
  | .settles .. => True

theorem reading_hear (job : Job) (window : List UInt8) (headers : ℕ) (byte : UInt8) :
    (hear job window headers byte).Reading := by
  unfold hear
  split
  · split
    · exact fun _ => rfl
    · split
      · exact fun _ => rfl
      · split
        · trivial
        · exact fun _ => rfl
  · exact fun _ => rfl

theorem reading_ruling (wanted : host.wanted = true) (job : Job) (byte : UInt8) : (host.ruling job byte).Reading := by
  unfold ruling
  split
  · trivial
  · obtain ⟨window, headers, looks⟩ | ⟨reader, reads⟩ := cases_of_wanted wanted
    · rw [looks]
      exact reading_hear ..
    · rw [reads]
      dsimp only [Host.read]
      split
      · exact fun _ => rfl
      · trivial

namespace Aligned

theorem poll_still (h : Aligned host drives) (still : host.Still) : Aligned (Registers.poll host).registers drives := by
  have next : Aligned host.advance.1 drives := by
    cases h.stage with
    | resting activity free lines =>
      rcases activity with idle | done
      · simp only [Host.advance, idle]
        exact (h.nextJob free lines).1
      · simp only [Host.advance, done]
        exact h
    | recalibrating activity => simp only [Still, activity] at still
    | seeking activity => simp only [Still, activity] at still
    | reading wanted => exact (advance_of_wanted wanted).symm ▸ h
  exact next.congr rfl rfl rfl rfl rfl rfl

/-- A byte settles a job or not; the host knows as much of the arms as before. -/
theorem write (h : Aligned host drives) (still : host.Still) (byte : UInt8) :
    Aligned (Registers.write host byte).1 drives ∧ (Registers.write host byte).1.Still := by
  change Aligned (host.accept byte).1 drives ∧ (host.accept byte).1.Still
  cases h.stage with
  | resting activity free lines =>
    rw [accept_of_none free]
    exact ⟨h.congr rfl rfl rfl rfl rfl rfl, still⟩
  | recalibrating activity => simp only [Still, activity] at still
  | seeking activity => simp only [Still, activity] at still
  | @reading job wanted handles known lines =>
    have reads := reading_ruling wanted job byte
    rw [accept_eq handles.taken]
    cases ruled : host.ruling job byte with
    | goes activity headers =>
      rw [ruled] at reads
      have wanted := reads (host.counted headers)
      exact ⟨⟨h.jobs, h.onDisk, h.known, .reading wanted ⟨handles.taken, handles.slot, handles.onDisk⟩ known lines⟩,
        still_of_wanted wanted⟩
    | settles verdict headers =>
      refine ⟨⟨?_, h.onDisk, h.known, .resting (.inl rfl) rfl lines⟩, trivial⟩
      unfold obey settled
      dsimp only
      split
      · exact List.forall_mem_cons.mpr ⟨handles.onDisk, h.jobs⟩
      · exact h.jobs

end Aligned
end Host

namespace Controller

theorem drives_switchTo (c : Controller) (slot : DriveSlot) : (c.switchTo slot).drives = c.drives := by
  unfold switchTo
  split <;> rfl

theorem aligned_upkeep (first : Status) (cache : TrackCache) :
    Upkeep first cache (fun run : Run Host => run.registers.Aligned run.controller.drives ∧ run.registers.Still)
      (fun run => run.registers.Aligned run.controller.drives) where
  write _ _ h := h.1.write h.2 _
  read _ h := ⟨h.1.poll_still h.2, fun wanted _ => ⟨h.1.poll_still h.2, Host.still_of_wanted wanted⟩⟩
  stop _ h := h.1
  stall _ _ h := h

theorem drives_polled {ρ : Type} [Registers ρ] (c : Controller) (registers : ρ) :
    let status := (Registers.poll registers).status
    (c.polled registers).controller.drives =
      c.drives.set status.drive (((c.drives.get status.drive).latch status).step status.phase).1 :=
  drives_moveArm _ (Registers.poll registers).status

theorem aligned_pollOnce {c : Controller} {host : Host} (h : host.Aligned c.drives) (cache : TrackCache) :
    (c.pollOnce host cache).registers.Aligned (c.pollOnce host cache).controller.drives := by
  have polled : (c.polled host).registers.Aligned (c.polled host).controller.drives := by
    rw [drives_polled]
    exact h.poll
  refine (aligned_upkeep (Registers.poll host).status cache).pollOnce polled fun wanted => ⟨?_, ?_⟩
  · rw [Run.switch, drives_switchTo]
    exact polled
  · exact Host.still_of_wanted wanted

namespace Pairing

/-- Whatever the drives start from, and whatever the cache holds: while the host looks for a sector or reads it, the arm
stands on the track of the sector, and where the host takes an arm to be, it is. -/
theorem arms_known (c : Controller) (onDisk : ∀ slot, (c.drives.get slot).OnDisk) (jobs : List Host.Job)
    (low : ∀ job ∈ jobs, job.track.toNat < trackCount) (images : PerDrive (Option (Array UInt8)))
    (calls : List (ControllerSettings × TrackCache)) :
    let p := run { controller := c, registers := { jobs, images : Host } } calls
    (p.registers.wanted = true → ∃ job, p.registers.current = some job ∧
      (p.controller.drives.get job.slot).halfTrack = 2 * job.track.toNat) ∧
    ∀ slot arm, p.registers.arms.get slot = some arm → (p.controller.drives.get slot).halfTrack = arm := by
  intro p
  have start : Host.Aligned { jobs, images } c.drives := by
    refine ⟨low, onDisk, fun slot arm knows => ?_, .resting (.inl rfl) rfl rfl⟩
    cases slot <;> cases knows
  have aligned : p.registers.Aligned p.controller.drives :=
    List.foldlRecOn calls step (motive := fun p : Pairing Host => p.registers.Aligned p.controller.drives) start
      fun _ aligned call _ => aligned_pollOnce (by exact aligned) call.2
  refine ⟨fun wanted => ?_, fun slot arm knows => (aligned.known slot arm knows).halfTrack⟩
  obtain ⟨job, handles, known, -⟩ := aligned.stage.of_wanted wanted
  exact ⟨job, handles.taken, handles.slot ▸ (aligned.known _ _ known).halfTrack⟩

/-- From the last track the host finds the stop, and then track 17. -/
theorem arms_known_from_last_track :
    let c : Controller := { settings := {}, drives := ⟨{ halfTrack := 68, phase := 2 }, {}⟩ }
    let jobs : List Host.Job := [⟨.external, 17, 3, 0⟩]
    let p := run { controller := c, registers := { jobs : Host } } (List.replicate 115 ({}, .empty))
    (∀ slot, (c.drives.get slot).OnDisk) ∧ (∀ job ∈ jobs, job.track.toNat < trackCount) ∧ p.registers.wanted = true ∧
      (∃ job, p.registers.current = some job ∧
        (p.controller.drives.get job.slot).halfTrack = 2 * job.track.toNat) ∧
      ∀ slot arm, p.registers.arms.get slot = some arm → (p.controller.drives.get slot).halfTrack = arm := by
  intro c jobs p
  have onDisk : ∀ slot, (c.drives.get slot).OnDisk := by
    intro slot
    cases slot <;> exact ⟨by decide, by decide⟩
  have low : ∀ job ∈ jobs, job.track.toNat < trackCount := by decide
  have wanted : p.registers.wanted = true := by decide +kernel
  have known := arms_known c onDisk jobs low (.both none) (List.replicate 115 ({}, .empty))
  exact ⟨onDisk, low, wanted, known.1 wanted, known.2⟩

end Pairing
end Controller
end Floppy
