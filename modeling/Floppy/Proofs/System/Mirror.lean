import Floppy.Proofs.Schedule.RelyGuarantee
import Floppy.Proofs.System.Reboot
import Floppy.Proofs.System.Sane

/-!
# The image and the mirror

Only the fetch task writes to storage, behind the image, and it counts a track as mirrored when all of it is written.
While it waits for storage the other tasks run, and the drive may turn the line of the external drive to another track,
but what is written was taken from the line at once, right after the pass in which its CRC came.
-/
namespace Floppy.DiskSystem
open Fetch Schedule

/-- A track that is found in the queue is the one that the line holds. -/
theorem nextMirror_spec (line : TrackLine) (queue : List UInt8) :
    (nextMirror line queue).2.1 <:+ queue.tail ∧
      ∀ track, (nextMirror line queue).1 = some track → track ∈ queue ∧ line.track = some track := by
  induction queue with
  | nil => exact ⟨List.suffix_rfl, nofun⟩
  | cons first rest ih =>
    rw [nextMirror]
    split
    case isTrue holds =>
      refine ⟨List.suffix_rfl, ?_⟩
      rintro track ⟨rfl⟩
      exact ⟨List.mem_cons_self, by simpa using (Bool.and_eq_true_iff.mp holds).1⟩
    case isFalse =>
      refine ⟨ih.1.trans (List.tail_suffix rest), fun track found => ?_⟩
      obtain ⟨mem, held⟩ := ih.2 track found
      exact ⟨List.mem_cons_of_mem _ mem, held⟩

variable {ρ τ : Type}

/-- Storage holds what it held, and no more tracks are mirrored than before. -/
def Leaves (c c' : DiskSystem ρ τ Flash) : Prop :=
  c'.storage.bytes = c.storage.bytes ∧ c'.tracksMirrored = c.tracksMirrored

/-- What surrounds the system has the registers and the transport in its hands. -/
def Ambient {δ : Type} (c c' : DiskSystem ρ τ δ) : Prop := ∃ registers transport, c' = { c with registers, transport }

/-- What comes at once is never more than was asked for. -/
def Bounded (τ : Type) [Transport τ] : Prop :=
  ∀ (transport : τ) (limit : ℕ), (Transport.read transport limit).1.length ≤ limit

variable [Transport τ] {deeds later : Deeds (DiskSystem ρ τ Flash)} {track : UInt8} {line : TrackLine}

/-- A fetch pass left the line of the external drive so, complete, and the CRC of its data came in it for the track
while the line held it. -/
def Vouched (deeds : Deeds (DiskSystem ρ τ Flash)) (track : UInt8) (line : TrackLine) : Prop :=
  ∃ c : DiskSystem ρ τ Flash, (c, c.fetchPass.2.context) ∈ deeds ∧ c.fetchPass.2.context.cache.external = line ∧
    line.track = some track ∧ line.isComplete = true ∧
    c.client.Hears c.transport c.cache.external c.controller.drives.external.volume track (Crc32.ofList line.data)

/-- In the place of a track storage holds what was vouched for. -/
def Mirrored (deeds : Deeds (DiskSystem ρ τ Flash)) (bytes : Array UInt8) : Prop :=
  ∃ track line, track.toNat < trackCount ∧ Vouched deeds track line ∧
    bytes.extract (mirrorBase + track.toNat * trackSize) (mirrorBase + track.toNat * trackSize + trackSize) =
      line.data.toArray

theorem Vouched.mono (h : Vouched deeds track line) (longer : deeds <+: later) : Vouched later track line := by
  obtain ⟨c, mem, rest⟩ := h
  exact ⟨c, longer.subset mem, rest⟩

/-- What the tasks do to the image and to the mirror. The fetch task has the second slot. -/
def conduct (image : Array UInt8) : Conduct (DiskSystem ρ τ Flash) where
  always := Sane image
  calm c := Sane image c ∧ c.mirrorQueue = []
  may slot deeds c c' := Sane image c' ∧ (slot ≠ 1 → Leaves c c') ∧ (slot = 1 → c'.tracksMirrored = c.tracksMirrored ∨
    c'.tracksMirrored = c.tracksMirrored + 1 ∧ (Bounded τ → Mirrored deeds c'.storage.bytes))
  bears slot c c' := slot = 1 → Leaves c c'
  ambient := Ambient

variable {image : Array UInt8} {c c' : DiskSystem ρ τ Flash}

theorem may_of_count (sane : Sane image c') (count : c'.tracksMirrored = c.tracksMirrored) :
    (conduct image).may 1 deeds c c' :=
  ⟨sane, fun other => absurd rfl other, fun _ => .inl count⟩

section Writing
variable {next : Except StorageError Unit → Program (DiskSystem ρ τ Flash)} {offset : ℕ} {data : List UInt8}

/-- However a write of the data ends, the task keeps to the conduct afterwards. -/
structure GoesOn (image : Array UInt8) (deeds : Deeds (DiskSystem ρ τ Flash)) (offset : ℕ) (data : List UInt8)
    (next : Except StorageError Unit → Program (DiskSystem ρ τ Flash)) : Prop where
  fails : ∀ later c error, deeds <+: later → (conduct image).calm c →
    (next (.error error)).Upholds (conduct image) 1 later c
  ends : ∀ later c, deeds <+: later → (conduct image).calm c →
    c.storage.bytes.extract offset (offset + data.length) = data.toArray →
    (next (.ok ())).Upholds (conduct image) 1 later c

theorem GoesOn.mono (h : GoesOn image deeds offset data next) (longer : deeds <+: later) :
    GoesOn image later offset data next :=
  ⟨fun last c error longest => h.fails last c error (longer.trans longest),
    fun last c longest => h.ends last c (longer.trans longest)⟩

/-- Waiting for storage leaves the task where it was, with time passed. -/
theorem upholds_awaitStorage {patience : ℕ} (calm : (conduct image).calm c)
    (goes : ∀ later c', deeds <+: later → Leaves c c' → (conduct image).calm c' → ∀ result,
      result = .error .busy ∨ result = .ok () → (next result).Upholds (conduct image) 1 later c') :
    (awaitStorage next patience).Upholds (conduct image) 1 deeds c := by
  induction patience generalizing deeds c with
  | zero => exact goes deeds c List.prefix_rfl ⟨rfl, rfl⟩ calm _ (.inl rfl)
  | succ patience ih =>
    rintro view rfl
    dsimp only
    split
    · refine ⟨calm, fun later c' longer bears calm => ih calm fun last c'' longest leaves => ?_⟩
      have left := bears rfl
      exact goes last c'' (longer.trans longest) ⟨leaves.1.trans left.1, leaves.2.trans left.2⟩
    · exact goes deeds _ List.prefix_rfl ⟨rfl, rfl⟩ calm _ (.inr rfl)

/-- However often the writer has to wait, what it has written so far lies in storage as one piece. -/
theorem upholds_writeRest (behind : diskSize ≤ offset) (goesOn : GoesOn image deeds offset data next) (requested : ℕ)
    {fuel written : ℕ} (calm : (conduct image).calm c) (placed : Flash.Placed data offset written c.storage.bytes) :
    (writeRest offset requested next fuel written (data.drop written)).Upholds (conduct image) 1 deeds c := by
  induction fuel generalizing deeds c written with
  | zero => exact goesOn.fails deeds c _ List.prefix_rfl calm
  | succ fuel ih =>
    cases rest : data.drop written with
    | nil => exact goesOn.ends deeds c List.prefix_rfl calm (placed.whole rest)
    | cons b more =>
      rw [writeRest]
      refine upholds_awaitStorage calm fun later c' longer leaves calm result said => ?_
      rcases said with rfl | rfl
      · exact goesOn.fails later c' _ longer calm
      rintro view rfl
      have sane := calm.1.writeOnce (behind.trans (Nat.le_add_right offset written)) (b :: more)
      have piece := (show Flash.Placed data offset written view.context.storage.bytes by rwa [leaves.1]).write
      have left (count : ℕ) : (b :: more).drop count = data.drop (written + count) := by rw [← rest, List.drop_drop]
      rw [rest] at piece
      refine ⟨may_of_count sane rfl, ?_⟩
      have goesOn (deed) := goesOn.mono (longer.trans (List.prefix_append later [deed]))
      dsimp only
      split
      · exact (goesOn _).fails _ _ _ List.prefix_rfl ⟨sane, calm.2⟩
      · rw [left]
        exact ih (goesOn _) ⟨sane, calm.2⟩ piece

theorem upholds_writeWaiting (behind : diskSize ≤ offset) (inWord : offset + data.length < UInt64.size)
    (goesOn : GoesOn image deeds offset data next) (calm : (conduct image).calm c)
    (panic : Program (DiskSystem ρ τ Flash)) :
    (writeWaiting offset data panic next).Upholds (conduct image) 1 deeds c := by
  rw [writeWaiting, rangeEnd?_of_lt inWord]
  rintro view rfl
  dsimp only
  split
  case isTrue => exact goesOn.fails _ _ _ List.prefix_rfl calm
  case isFalse fits => exact upholds_writeRest behind goesOn _ calm (.start (Nat.le_of_not_lt fits))

end Writing

theorem mirror_inWord (track : UInt8) (line : TrackLine) :
    mirrorBase + track.toNat * trackSize + line.data.length < UInt64.size := by
  have low := track.toNat_lt
  rw [line.length_data]
  simp only [mirrorBase, diskSize, trackSize, trackCount, sectorsPerTrack, sectorSize, UInt64.size]
  omega

theorem upholds_mirror_idle (patience : ℕ) (calm : (conduct image).calm c) :
    (mirror patience).Upholds (conduct image) 1 deeds c := by
  cases patience with
  | zero => exact calm
  | succ patience =>
    rintro view rfl
    have none : view.context.takeMirror.1 = none := by rw [takeMirror, calm.2]; rfl
    have left : view.context.takeMirror.2.context.mirrorQueue = [] := by rw [takeMirror, calm.2]; rfl
    refine ⟨may_of_count calm.1.takeMirror rfl, ?_⟩
    rw [none]
    exact ⟨calm.1.takeMirror, left⟩

/-- The line is taken at once, before any other task runs. -/
theorem upholds_mirror {patience : ℕ} (patient : patience ≠ 0) (sane : Sane image c) (few : c.mirrorQueue.length ≤ 1)
    (vouched : Bounded τ → ∀ track ∈ c.mirrorQueue, c.cache.external.track = some track →
      Vouched deeds track c.cache.external) :
    (mirror patience).Upholds (conduct image) 1 deeds c := by
  obtain ⟨patience, rfl⟩ := Nat.exists_eq_succ_of_ne_zero patient
  rintro view rfl
  obtain ⟨suffix, found⟩ := nextMirror_spec view.context.cache.external view.context.mirrorQueue
  have calm : (conduct image).calm view.context.takeMirror.2.context := by
    have short := suffix.length_le
    rw [List.length_tail] at short
    exact ⟨sane.takeMirror, List.eq_nil_of_length_eq_zero (Nat.le_zero.mp (short.trans (Nat.sub_le_of_le_add few)))⟩
  refine ⟨may_of_count sane.takeMirror rfl, ?_⟩
  dsimp only [takeMirror]
  cases taken : (nextMirror view.context.cache.external view.context.mirrorQueue).1 with
  | none => exact calm
  | some track =>
    obtain ⟨mem, held⟩ := found track taken
    refine upholds_writeWaiting (Nat.le_add_right _ _) (mirror_inWord track _) ⟨?_, ?_⟩ calm _
    · intro later c' error longer calm'
      cases error with
      | interrupted => exact calm'
      | _ => exact ⟨may_of_count calm'.1 rfl, upholds_mirror_idle patience calm'⟩
    · intro later c' longer calm' placed
      refine ⟨⟨calm'.1.mirrorDone, fun other => absurd rfl other, fun _ => .inr ⟨rfl, fun bounded => ?_⟩⟩,
        upholds_mirror_idle patience ⟨calm'.1.mirrorDone, calm'.2⟩⟩
      refine ⟨track, view.context.cache.external, sane.external track held,
        (vouched bounded track mem held).mono ((List.prefix_append _ _).trans longer), ?_⟩
      rw [TrackLine.length_data] at placed
      exact placed

theorem upholds_fetchTask (calm : (conduct image).calm c) :
    (fetchTask : Routine (DiskSystem ρ τ Flash)).body.Upholds (conduct image) 1 deeds c := by
  have queue : c.fetchPass.2.context.mirrorQueue =
      c.mirrorQueue ++ if c.settings.fetch.mirrorTracks then c.served.1.outcome.validatedTrack.toList else [] := rfl
  rw [calm.2, List.nil_append] at queue
  refine ⟨may_of_count calm.1.fetchPass rfl, upholds_mirror (by decide) calm.1.fetchPass ?_ ?_⟩
  · rw [queue]
    split
    · exact Option.length_toList_le
    · exact Nat.zero_le _
  · intro bounded track mem held
    rw [queue] at mem
    split at mem
    case isTrue =>
      have reported : c.served.1.outcome.validatedTrack.isSome :=
        Option.isSome_of_mem (Option.mem_toList.mp mem)
      obtain ⟨complete, hears⟩ := Client.confirmed (bounded c.transport _) calm.1.clear reported held
      rw [TrackLine.crc_eq] at hears
      exact ⟨c, List.mem_append_right _ (List.mem_singleton_self _), rfl, held, complete, hears⟩
    case isFalse => cases mem

variable [Registers ρ]

theorem upholds_tasks {slot : ℕ} {task : Routine (DiskSystem ρ τ Flash)} (registered : tasks[slot]? = some task)
    (calm : (conduct image).calm c) : task.body.Upholds (conduct image) slot deeds c := by
  have apart {slot : ℕ} {c' : DiskSystem ρ τ Flash} (other : slot ≠ 1) (sane : Sane image c') (leaves : Leaves c c')
      (queue : c'.mirrorQueue = c.mirrorQueue) :
      (conduct image).may slot deeds c c' ∧ (conduct image).calm c' :=
    ⟨⟨sane, fun _ => leaves, fun same => absurd same other⟩, sane, queue.trans calm.2⟩
  match slot, registered with
  | 0, registered =>
    obtain rfl : driveTask = task := Option.some.inj registered
    obtain ⟨storage, mirrored, queue⟩ := c.mirror_drivePass
    exact apart (by decide) calm.1.drivePass ⟨congrArg Flash.bytes storage, mirrored⟩ queue
  | 1, registered =>
    obtain rfl : fetchTask = task := Option.some.inj registered
    exact upholds_fetchTask calm
  | 2, registered =>
    obtain rfl : internalTask = task := Option.some.inj registered
    exact apart (by decide) calm.1.internalPass ⟨rfl, rfl⟩ rfl
  | 3, registered =>
    obtain rfl : storageTask = task := Option.some.inj registered
    exact apart (by decide) calm.1.storagePass ⟨c.storage.bytes_service, rfl⟩ rfl
  | slot + 4, registered => cases registered

theorem lawful_conduct : (conduct image : Conduct (DiskSystem ρ τ Flash)).Lawful boot where
  always_of_calm := And.left
  always_of_may := And.left
  bears_refl _ _ _ := ⟨rfl, rfl⟩
  bears_trans first second waits :=
    ⟨(second waits).1.trans (first waits).1, (second waits).2.trans (first waits).2⟩
  bears_of_may may apart waits := may.2.1 fun same => apart (same.trans waits.symm)
  bears_of_ambient := by
    rintro slot c c' ⟨registers, transport, rfl⟩ _
    exact ⟨rfl, rfl⟩
  calm_of_ambient := by
    rintro c c' ⟨sane, queue⟩ ⟨registers, transport, rfl⟩
    exact ⟨sane.surrounded registers transport, queue⟩
  calm_of_boot calm := ⟨calm.1.reinit, rfl⟩
  docile _ := docile_tasks
  upholds registered _ _ calm := upholds_tasks registered calm

section Runs
variable (settings : SystemSettings) (trace : Trace) (registers : ρ) (transport : τ) (storage : Flash)
  (crashLog : CrashLog) {s : State (DiskSystem ρ τ Flash)}

theorem behaved_launched : Behaved (conduct storage.bytes) boot settings.schedule.maxNesting []
    ((new settings trace registers transport storage).launched crashLog) := by
  let system := new settings trace registers transport storage
  have fair : Fair settings.schedule.maxNesting (system.launched crashLog) := (system.tame_launched crashLog).fair
  refine .resting (c := system) fair lawful_conduct (system.manned_launched crashLog).boot rfl ?_
  obtain ⟨_, launched⟩ := system.launch_eq crashLog
  have context : (system.launch crashLog).context = system.reinit.context :=
    (congrArg Machine.context launched).trans (Machine.context_start ..)
  rw [context]
  exact ⟨(Sane.new settings trace registers transport storage).reinit, rfl⟩

/-- Passes in whatever surroundings, with reboots or without: whenever another track is counted as mirrored, a whole line
that was checked against the CRC of its source is in its place in storage. -/
theorem mirrored_whole (bounded : Bounded τ) :
    let start := (new settings trace registers transport storage).launched crashLog
    (∀ deeds m roster, Chronicle Ambient start deeds ⟨m, roster, .resting⟩ →
      ∃ more roster', Chronicle Ambient start (deeds ++ more) ⟨m.pass, roster', .resting⟩) ∧
    ∀ deeds s s', Chronicle Ambient start deeds s → Happens Ambient s s' →
      s'.machine.context.tracksMirrored = s.machine.context.tracksMirrored ∨
        s'.machine.context.tracksMirrored = s.machine.context.tracksMirrored + 1 ∧
          Mirrored deeds s'.machine.context.storage.bytes := by
  intro start
  have first := behaved_launched settings trace registers transport storage crashLog
  refine ⟨fun deeds m roster chronicle => chronicle.pass (first.chronicle lawful_conduct chronicle).fair,
    fun deeds s s' chronicle happens => ?_⟩
  have behaved := first.chronicle lawful_conduct chronicle
  obtain ⟨-, allows⟩ := behaved.happens lawful_conduct happens
  generalize s.machine.context = c at allows ⊢
  generalize s'.machine.context = c' at allows ⊢
  cases allows with
  | same => exact .inl rfl
  | @may slot _ may =>
    obtain ⟨-, others, fetch⟩ := may
    by_cases second : slot = 1
    · rcases fetch second with same | ⟨more, mirrored⟩
      · exact .inl same
      · exact .inr ⟨more, mirrored bounded⟩
    · exact .inl (others second).2
  | ambient calm ambient =>
    obtain ⟨_, _, rfl⟩ := ambient
    exact .inl rfl
  | boot calm => exact .inl rfl

/-- With storage that has room for the mirror and is busy for two turns after each page. -/
theorem mirrored_whole_pipe :
    let start := (new { fetch := { mirrorTracks := true } } {} ({} : Bench.Levers) ({} : Bench.Pipe)
      (Flash.erased storageSize 256 2)).launched {}
    Bounded Bench.Pipe ∧ ∀ deeds s s', Chronicle Ambient start deeds s → Happens Ambient s s' →
      s'.machine.context.tracksMirrored = s.machine.context.tracksMirrored ∨
        s'.machine.context.tracksMirrored = s.machine.context.tracksMirrored + 1 ∧
          Mirrored deeds s'.machine.context.storage.bytes := by
  have bounded : Bounded Bench.Pipe := fun pipe limit => List.length_take_le _ _
  exact ⟨bounded, (mirrored_whole _ _ _ _ _ _ bounded).2⟩

/-- Passes in whatever surroundings, with reboots or without: the image of the internal disk stays as it is, and a sector
that can be read from the line of the internal drive is that of the image. -/
theorem internal_true :
    let start := (new settings trace registers transport storage).launched crashLog
    (∀ deeds m roster, Chronicle Ambient start deeds ⟨m, roster, .resting⟩ →
      ∃ more roster', Chronicle Ambient start (deeds ++ more) ⟨m.pass, roster', .resting⟩) ∧
    ∀ deeds s, Chronicle Ambient start deeds s →
      let c := s.machine.context
      c.storage.bytes.size = storage.bytes.size ∧
        c.storage.bytes.extract 0 diskSize = storage.bytes.extract 0 diskSize ∧
        ∀ track volume sector bytes, c.cache.sector? .internal track volume sector = some bytes →
          track.toNat < trackCount ∧ (track.toNat + 1) * trackSize ≤ c.storage.bytes.size ∧
            bytes.toArray = c.storage.bytes.extract (imageOffset track sector) (imageOffset track sector + sectorSize) := by
  intro start
  have first := behaved_launched settings trace registers transport storage crashLog
  refine ⟨fun deeds m roster chronicle => chronicle.pass (first.chronicle lawful_conduct chronicle).fair,
    fun deeds s chronicle => ?_⟩
  have sane : Sane storage.bytes s.machine.context := (first.chronicle lawful_conduct chronicle).always
  refine ⟨sane.size, sane.kept, fun track volume sector bytes read => ?_⟩
  exact (sane.internal.congr sane.size sane.kept).sector? read

end Runs

end Floppy.DiskSystem
