import Floppy.Proofs.Host.Arms
import Floppy.Proofs.Host.FieldReading

/-!
# The verdicts of a host

A host at a controller whose cache holds nothing but what is on the disks reads no wrong sector: each data field that it
decodes is the one that it was looking for. A sector is tried again only because it was not found.
-/
namespace Floppy
open Gcr

namespace Host

/-- A byte that settles no job as bad: a data field that it completes is that of the job. -/
structure Fair (images : PerDrive (Array UInt8)) (write : Host × UInt8) : Prop where
  decoded : ∀ job reader result, write.1.current = some job → write.1.activity = .readData reader →
    (reader.push write.2).2 = some result →
      ∃ sector, result = .ok sector ∧ sectorAt? (images.get job.slot) job.track job.sector = some sector
  verdict : ∀ verdict, write.1.verdict? write.2 = some verdict → verdict = .ok ∨ verdict = .notFound

def count (verdict : Verdict) (writes : List (Host × UInt8)) : ℕ :=
  writes.countP fun write => write.1.verdict? write.2 = some verdict

/-- The report tells what the verdicts were: a sector was right, or it was not found and tried again or given up. -/
structure Tally (report : Report) (writes : List (Host × UInt8)) : Prop where
  right : report.sectorsOk = count .ok writes
  missed : report.retries + report.notFound = count .notFound writes
  bad : report.sectorsBad = 0
  unverified : report.sectorsUnverified = 0

variable {images : PerDrive (Array UInt8)} {host : Host} {writes : List (Host × UInt8)} {byte : UInt8}

theorem verdict?_eq {job : Job} (taken : host.current = some job) (byte : UInt8) :
    host.verdict? byte = (host.ruling job byte).verdict? := by
  rw [verdict?, taken, Option.bind_some]

theorem count_concat (verdict : Verdict) (writes : List (Host × UInt8)) (write : Host × UInt8) :
    count verdict (writes ++ [write]) =
      count verdict writes + if write.1.verdict? write.2 = some verdict then 1 else 0 := by
  simp only [count, List.countP_append, List.countP_singleton, decide_eq_true_eq]

namespace Tally

theorem concat_none {report next : Report} (h : Tally report writes) (nothing : host.verdict? byte = none)
    (right : next.sectorsOk = report.sectorsOk) (retries : next.retries = report.retries)
    (missed : next.notFound = report.notFound) (bad : next.sectorsBad = report.sectorsBad)
    (unverified : next.sectorsUnverified = report.sectorsUnverified) : Tally next (writes ++ [(host, byte)]) := by
  refine ⟨?_, ?_, bad.trans h.bad, unverified.trans h.unverified⟩
  · rw [count_concat, nothing, if_neg (Option.some_ne_none _).symm, right, h.right, Nat.add_zero]
  · rw [count_concat, nothing, if_neg (Option.some_ne_none _).symm, retries, missed, h.missed, Nat.add_zero]

theorem settle {report : Report} {verdict : Verdict} (h : Tally report writes)
    (brings : host.verdict? byte = some verdict) (fair : verdict = .ok ∨ verdict = .notFound) (again : Bool) :
    Tally (report.settle verdict (verdict.fails && again)) (writes ++ [(host, byte)]) := by
  obtain ⟨right, missed, bad, unverified⟩ := h
  rcases fair with rfl | rfl
  · refine ⟨?_, ?_, bad, unverified⟩
    · rw [count_concat, brings, if_pos rfl, ← right]
      rfl
    · rw [count_concat, brings, if_neg (by decide), ← missed]
      rfl
  · cases again with
    | true =>
      refine ⟨?_, ?_, bad, unverified⟩
      · rw [count_concat, brings, if_neg (by decide), ← right]
        rfl
      · rw [count_concat, brings, if_pos rfl, ← missed]
        exact Nat.succ_add _ _
    | false =>
      refine ⟨?_, ?_, bad, unverified⟩
      · rw [count_concat, brings, if_neg (by decide), ← right]
        rfl
      · rw [count_concat, brings, if_pos rfl, ← missed]
        rfl

theorem accept (h : Tally host.report writes) (fair : Fair images (host, byte)) :
    Tally (host.accept byte).1.report (writes ++ [(host, byte)]) := by
  cases taken : host.current with
  | none =>
    rw [accept_of_none taken]
    exact h.concat_none (by rw [verdict?, taken]; rfl) rfl rfl rfl rfl rfl
  | some job =>
    have brings := verdict?_eq taken byte
    rw [accept_eq taken]
    cases ruled : host.ruling job byte with
    | goes activity headers =>
      rw [ruled] at brings
      exact h.concat_none brings rfl rfl rfl rfl rfl
    | settles verdict headers =>
      rw [ruled] at brings
      have counted : Tally (host.counted headers).report writes := ⟨h.right, h.missed, h.bad, h.unverified⟩
      exact counted.settle brings (fair.verdict verdict brings) _

end Tally

/-- A read of the status register leaves the disks and the counts of verdicts alone. -/
theorem advance_keeps (host : Host) : host.advance.1.images = host.images ∧
    ∃ seeks done, host.advance.1.report = { host.report with seeks, done } := by
  have startSeek (host : Host) : host.startSeek.images = host.images ∧
      ∃ seeks done, host.startSeek.report = { host.report with seeks, done } := by
    unfold Host.startSeek
    split <;> exact ⟨rfl, _, _, rfl⟩
  unfold advance
  split
  case h_1 =>
    unfold nextJob
    split
    · exact ⟨rfl, _, _, rfl⟩
    · dsimp only
      split
      · exact ⟨rfl, _, _, rfl⟩
      · exact startSeek _
  case h_2 =>
    dsimp only
    split
    · exact startSeek _
    · exact ⟨rfl, _, _, rfl⟩
  case h_3 =>
    split
    · exact ⟨rfl, _, _, rfl⟩
    · split <;> exact ⟨rfl, _, _, rfl⟩
  case h_4 => exact ⟨rfl, _, _, rfl⟩

theorem wanted_startSeek (host : Host) : host.startSeek.wanted = false := by
  unfold startSeek
  split <;> rfl

theorem wanted_nextJob (host : Host) : host.nextJob.1.wanted = false := by
  unfold nextJob
  split
  · rfl
  · dsimp only
    split
    · rfl
    · dsimp only
      exact wanted_startSeek _

/-- A host that begins to look for an address has heard nothing. -/
theorem fresh_of_wanted (unwanted : host.wanted = false) (wanted : host.advance.1.wanted = true) :
    host.advance.1.activity = .findAddress [] 0 := by
  unfold advance at wanted ⊢
  cases doing : host.activity with
  | idle =>
    rw [doing] at wanted
    exact absurd ((wanted_nextJob host).symm.trans wanted) Bool.false_ne_true
  | recalibrate left =>
    rw [doing] at wanted
    dsimp only at wanted
    split at wanted
    · exact absurd ((wanted_startSeek _).symm.trans wanted) Bool.false_ne_true
    · cases wanted
  | seek target =>
    rw [doing] at wanted
    dsimp only at wanted ⊢
    split at wanted
    case h_1 => exact absurd (unwanted.symm.trans wanted) Bool.false_ne_true
    case h_2 =>
      split at wanted
      case isTrue arrived => rw [if_pos arrived]
      case isFalse => cases wanted
  | findAddress window headers =>
    rw [Host.wanted, doing] at unwanted
    cases unwanted
  | readData reader =>
    rw [Host.wanted, doing] at unwanted
    cases unwanted
  | done =>
    rw [doing] at wanted
    exact absurd (unwanted.symm.trans wanted) Bool.false_ne_true

theorem wanted_of_engaged (engaged : host.Engaged) : host.wanted = true := by
  cases doing : host.activity with
  | findAddress window headers => simp only [Host.wanted, doing]
  | readData reader => simp only [Host.wanted, doing]
  | _ =>
    rw [Engaged, doing] at engaged
    cases engaged

theorem Hears.congr {next : Host} {standing : Standing} (h : host.Hears images standing)
    (activity : next.activity = host.activity) (current : next.current = host.current) :
    next.Hears images standing := by
  cases h with
  | deaf unwanted => exact .deaf (by rw [Host.wanted, activity]; exact unwanted)
  | looking looks trails => exact .looking (activity.trans looks) trails
  | reading reads taken inside short held =>
    exact .reading (activity.trans reads) (current.trans taken) inside short held

theorem fresh_poll (unwanted : host.wanted = false) (images : PerDrive (Array UInt8)) (standing : Standing) :
    (Registers.poll host).registers.Hears images standing ∧ ¬ (Registers.poll host).registers.Engaged := by
  let next := (Registers.poll host).registers
  cases wanted : next.wanted with
  | false => exact ⟨.deaf wanted, fun engaged => Bool.false_ne_true (wanted.symm.trans (wanted_of_engaged engaged))⟩
  | true =>
    have fresh : next.activity = .findAddress [] 0 := fresh_of_wanted unwanted wanted
    refine ⟨.looking fresh (.nil standing), fun engaged => ?_⟩
    unfold Engaged at engaged
    rw [fresh] at engaged
    exact engaged rfl

/-- The host knows where the arms are, and it has heard the frame that the head is in. -/
structure Tuned (images : PerDrive (Array UInt8)) (host : Host) (head : Head) (drives : PerDrive Drive) : Prop where
  aligned : host.Aligned drives
  shown : ∀ slot, host.images.get slot = some (images.get slot)
  heard : ∃ standing, head.Plays images standing ∧ host.Hears images standing
  settled : host.Engaged → head.slot = some host.slot ∧ head.track = (drives.get host.slot).track

/-- The same while a drive is served: bytes may be written. -/
structure Served (images : PerDrive (Array UInt8)) (slot : DriveSlot) (host : Host) (head : Head)
    (drives : PerDrive Drive) : Prop extends Tuned images host head drives where
  still : host.Still
  own : head.state ≠ .inactive → head.slot = some slot
  here : host.wanted = true → host.slot = slot

variable {head : Head} {drives : PerDrive Drive} {slot : DriveSlot}

theorem poll_of_wanted (wanted : host.wanted = true) :
    (Registers.poll host).registers = { host with pending := false } :=
  congrArg (fun next : Host => { next with pending := false }) (advance_of_wanted wanted)

theorem shown_poll (shown : ∀ slot, host.images.get slot = some (images.get slot)) (slot : DriveSlot) :
    (Registers.poll host).registers.images.get slot = some (images.get slot) :=
  (congrArg (·.get slot) host.advance_keeps.1).trans (shown slot)

namespace Tuned

theorem poll (h : Tuned images host head drives) (still : host.Still) :
    Tuned images (Registers.poll host).registers head drives := by
  have aligned := h.aligned.poll_still still
  have shown := shown_poll h.shown
  obtain ⟨standing, plays, hears⟩ := h.heard
  cases wanted : host.wanted with
  | false =>
    have fresh := fresh_poll wanted images standing
    exact ⟨aligned, shown, ⟨standing, plays, fresh.1⟩, fun engaged => absurd engaged fresh.2⟩
  | true =>
    rw [poll_of_wanted wanted] at aligned shown ⊢
    exact ⟨aligned, shown, ⟨standing, plays, hears.congr rfl rfl⟩, h.settled⟩

theorem moveArm {c : Controller} (h : Tuned images host c.head c.drives) :
    let status := (Registers.poll host).status
    Tuned images (Registers.poll host).registers (c.moveArm status).1.head (c.moveArm status).1.drives := by
  intro status
  have aligned : (Registers.poll host).registers.Aligned (c.moveArm status).1.drives := by
    rw [Controller.drives_moveArm]
    exact h.aligned.poll
  have shown := shown_poll h.shown
  obtain ⟨standing, plays, hears⟩ := h.heard
  cases wanted : host.wanted with
  | false =>
    obtain ⟨next, plays⟩ := plays.moveArm status
    have fresh := fresh_poll wanted images next
    exact ⟨aligned, shown, ⟨next, plays, fresh.1⟩, fun engaged => absurd engaged fresh.2⟩
  | true =>
    obtain ⟨job, handles, known, lines⟩ := h.aligned.stage.of_wanted wanted
    have same := poll_of_wanted wanted
    have phase : status.phase = 0 := (congrArg (·.phaseLines) same).trans lines
    obtain ⟨head, track⟩ := c.moveArm_of_zero phase
    rw [same] at aligned shown ⊢
    refine ⟨aligned, shown, ⟨standing, ?_, hears.congr rfl rfl⟩, fun engaged => ?_⟩
    · rw [head]
      exact plays
    · rw [head, track]
      exact h.settled engaged

/-- A frame that was begun for the other drive is torn, and nothing was heard of it. -/
theorem switchTo {c : Controller} (h : Tuned images host c.head c.drives) (here : host.slot = slot) :
    Tuned images host (c.switchTo slot).head (c.switchTo slot).drives ∧
      ((c.switchTo slot).head.state ≠ .inactive → (c.switchTo slot).head.slot = some slot) := by
  unfold Controller.switchTo
  split
  case isTrue torn =>
    have free : ¬ host.Engaged := fun engaged => torn.2 ((h.settled engaged).1.trans (congrArg some here))
    obtain ⟨standing, -, hears⟩ := h.heard
    have idle := Head.Plays.reset images c.head c.head.sector
    refine ⟨⟨h.aligned, h.shown, ⟨_, idle, hears.of_not_engaged free _⟩, fun engaged => absurd engaged free⟩,
      fun busy => ?_⟩
    cases idle with
    | idle still => exact absurd still busy
  case isFalse kept =>
    refine ⟨h, fun busy => ?_⟩
    by_contra other
    exact kept ⟨by simpa [Head.isActive] using busy, other⟩

end Tuned

theorem Aligned.free (h : host.Aligned drives) (still : host.Still) (unwanted : host.wanted = false) :
    host.current = none := by
  cases h.stage with
  | resting _ free => exact free
  | recalibrating activity => simp only [Still, activity] at still
  | seeking activity => simp only [Still, activity] at still
  | reading wanted => exact absurd (unwanted.symm.trans wanted) Bool.false_ne_true

namespace Served
variable {cache : TrackCache}

theorem poll (h : Served images slot host head drives) :
    Tuned images (Registers.poll host).registers head drives ∧
      ((Registers.poll host).status.wanted = true → (Registers.poll host).status.drive = slot →
        Served images slot (Registers.poll host).registers head drives) := by
  have tuned := h.toTuned.poll h.still
  exact ⟨tuned, fun wanted drive => ⟨tuned, still_of_wanted wanted, h.own, fun _ => drive⟩⟩

/-- A byte that nobody waits for is counted, and that is all. -/
theorem write_unwanted (h : Served images slot host head drives) (unwanted : host.wanted = false) {after : Head}
    {standing : Standing} (plays : after.Plays images standing) (own : after.slot = some slot) (byte : UInt8) :
    Served images slot (host.accept byte).1 after drives ∧ Fair images (host, byte) := by
  have free := h.aligned.free h.still unwanted
  obtain ⟨aligned, still⟩ := h.aligned.write h.still byte
  have next : (host.accept byte).1.wanted = false := by
    rw [accept_of_none free]
    exact unwanted
  have idle {P : Prop} (wanted : (host.accept byte).1.wanted = true) : P :=
    absurd (next.symm.trans wanted) Bool.false_ne_true
  have shown : (host.accept byte).1.images = host.images := by rw [accept_of_none free]
  refine ⟨⟨⟨aligned, ?_, ⟨standing, plays, .deaf next⟩, fun engaged => idle (wanted_of_engaged engaged)⟩, still,
    fun _ => own, idle⟩, ⟨fun job _ _ taken => ?_, fun verdict brings => ?_⟩⟩
  · rw [shown]
    exact h.shown
  · cases free.symm.trans taken
  · rw [verdict?, free] at brings
    cases brings

/-- A byte for which the host waits is that of the frame in which the head stands. -/
theorem write_wanted (h : Served images slot host head drives) (wanted : host.wanted = true) {after : Head}
    {here next : Standing} {passed : Passed} (hears : host.Hears images here) (gives : here.Gives passed next)
    (plays : after.Plays images next) (place : after.slot = some slot ∧ after.track = (drives.get slot).track) :
    Served images slot (host.accept passed.byte).1 after drives ∧ Fair images (host, passed.byte) := by
  obtain ⟨job, handles, -⟩ := h.aligned.stage.of_wanted wanted
  have own : job.slot = slot := handles.slot.trans (h.here wanted)
  have ruling := hears.ruling wanted handles.taken (h.shown job.slot) gives
    fun address sector sent inside => own ▸ (plays.genuine place.1 inside).1
  have brings := verdict?_eq handles.taken passed.byte
  obtain ⟨aligned, still⟩ := h.aligned.write h.still passed.byte
  change (host.accept passed.byte).1.Aligned drives at aligned
  change (host.accept passed.byte).1.Still at still
  have decoded (job : Job) (reader : DataField.Reader) (result : Except CodecError Sector)
      (taken : host.current = some job) (reads : host.activity = .readData reader)
      (done : (reader.push passed.byte).2 = some result) :
      ∃ sector, result = .ok sector ∧ sectorAt? (images.get job.slot) job.track job.sector = some sector :=
    hears.decoded taken reads gives done
  rw [accept_eq handles.taken] at aligned still ⊢
  cases ruled : host.ruling job passed.byte with
  | goes activity headers =>
    rw [ruled] at ruling brings aligned still
    refine ⟨⟨⟨aligned, h.shown, ⟨next, plays, ruling.congr rfl rfl⟩, fun _ => ?_⟩, still, fun _ => place.1,
      fun _ => h.here wanted⟩, ⟨decoded, fun verdict brought => nomatch brings.symm.trans brought⟩⟩
    change after.slot = some host.slot ∧ after.track = (drives.get host.slot).track
    rw [h.here wanted]
    exact place
  | settles verdict headers =>
    rw [ruled] at ruling brings aligned still
    refine ⟨⟨⟨aligned, h.shown, ⟨next, plays, .deaf rfl⟩, fun engaged => engaged.elim⟩, still, fun _ => place.1,
      fun wanted => (Bool.false_ne_true wanted).elim⟩, ⟨decoded, fun other brought => ?_⟩⟩
    obtain rfl := Option.some.inj (brings.symm.trans brought)
    exact ruling

theorem write (h : Served images slot host head drives) (truthful : cache.Truthful images) (hint : Option Position) :
    let pass := head.next slot (drives.get slot) cache hint
    Served images slot (host.accept pass.output.value).1 pass.head drives ∧ Fair images (host, pass.output.value) := by
  intro pass
  obtain ⟨standing, plays, hears⟩ := h.heard
  obtain ⟨here, passed, next, origin, gives, byte, plays⟩ := plays.next truthful slot (drives.get slot) hint
  have place : pass.head.slot = some slot ∧ pass.head.track = (drives.get slot).track :=
    head.next_at h.own (drives.get slot) cache hint
  cases wanted : host.wanted with
  | false => exact h.write_unwanted wanted plays place.1 _
  | true =>
    rw [← byte]
    refine h.write_wanted wanted ?_ gives plays place
    rcases origin with rfl | ⟨rfl, moved⟩
    · exact hears
    · refine hears.of_not_engaged (fun engaged => moved ?_) _
      rw [(h.settled engaged).2, h.here wanted]

end Served

end Host

namespace Controller
open Host

/-- What an observer has noted is right, and the report of the host says the same. -/
structure Honest (images : PerDrive (Array UInt8)) (o : Observed Host) : Prop where
  fair : ∀ write ∈ o.writes, Fair images write
  tally : Tally o.registers.report o.writes

variable {images : PerDrive (Array UInt8)} {o : Observed Host} {cache : TrackCache}

theorem Honest.poll (h : Honest images o) : Honest images (Registers.poll o).registers := by
  obtain ⟨seeks, done, report⟩ := o.registers.advance_keeps.2
  refine ⟨h.fair, ?_⟩
  change Tally o.registers.advance.1.report o.writes
  rw [report]
  exact ⟨h.tally.right, h.tally.missed, h.tally.bad, h.tally.unverified⟩

theorem Honest.write (h : Honest images o) {byte : UInt8} (fair : Fair images (o.registers, byte)) :
    Honest images (Registers.write o byte).1 :=
  ⟨List.forall_mem_append.mpr ⟨h.fair, List.forall_mem_singleton.mpr fair⟩, h.tally.accept fair⟩

theorem served_upkeep (truthful : cache.Truthful images) (first : Status) :
    Upkeep first cache
      (fun run : Run (Observed Host) =>
        Served images first.drive run.registers.registers run.controller.head run.controller.drives ∧
          Honest images run.registers)
      (fun run => Tuned images run.registers.registers run.controller.head run.controller.drives ∧
        Honest images run.registers) where
  write _ hint h :=
    have written := h.1.write truthful hint
    ⟨written.1, h.2.write written.2⟩
  read _ h := ⟨⟨h.1.poll.1, h.2.poll⟩, fun wanted drive => ⟨h.1.poll.2 wanted drive, h.2.poll⟩⟩
  stop _ h := ⟨h.1.toTuned, h.2⟩
  stall _ _ h := h

theorem tuned_pollOnce {c : Controller} (tuned : Tuned images o.registers c.head c.drives) (honest : Honest images o)
    (truthful : cache.Truthful images) :
    Tuned images (c.pollOnce o cache).registers.registers (c.pollOnce o cache).controller.head
        (c.pollOnce o cache).controller.drives ∧
      Honest images (c.pollOnce o cache).registers := by
  have polled : Tuned images (c.polled o).registers.registers (c.polled o).controller.head
      (c.polled o).controller.drives := Tuned.moveArm (by exact tuned)
  refine (served_upkeep truthful (Registers.poll o).status).pollOnce ⟨polled, honest.poll⟩ fun wanted => ?_
  have here : (c.polled o).registers.registers.slot = (Registers.poll o).status.drive := rfl
  obtain ⟨switched, own⟩ := polled.switchTo here
  exact ⟨⟨switched, still_of_wanted wanted, own, fun _ => rfl⟩, honest.poll⟩

namespace Pairing

/-- A host at a fresh controller, with a disk in each drive and a cache that may be any before each poll, but holds
nothing that is not on the disks. Each data field that the host decodes is the sector of its job; it finds no sector
bad, and whatever was tried again or given up was not found. -/
theorem no_sector_misread (volume : UInt8) (settings : ControllerSettings) (images : PerDrive (Array UInt8))
    (jobs : List Job) (low : ∀ job ∈ jobs, job.track.toNat < trackCount)
    (calls : List (ControllerSettings × TrackCache)) (truthful : ∀ call ∈ calls, call.2.Truthful images) :
    let host : Host := { jobs, images := ⟨some images.external, some images.internal⟩ }
    let p := run { controller := .ofVolume volume settings, registers := { registers := host : Observed Host } } calls
    let report := p.registers.registers.report
    run { controller := .ofVolume volume settings, registers := host } calls =
        { controller := p.controller, registers := p.registers.registers } ∧
      (∀ write ∈ p.registers.writes, ∀ job reader result, write.1.current = some job →
        write.1.activity = .readData reader → (reader.push write.2).2 = some result →
          ∃ sector, result = .ok sector ∧ sectorAt? (images.get job.slot) job.track job.sector = some sector) ∧
      (∀ write ∈ p.registers.writes, ∀ verdict, write.1.verdict? write.2 = some verdict →
        verdict = .ok ∨ verdict = .notFound) ∧
      report.sectorsBad = 0 ∧ report.sectorsUnverified = 0 ∧ report.sectorsOk = count .ok p.registers.writes ∧
      report.retries + report.notFound = count .notFound p.registers.writes := by
  intro host p report
  have start : Tuned images host {} (Controller.ofVolume volume settings).drives := by
    refine ⟨⟨low, OnDisk.ofVolume volume settings, fun slot arm knows => ?_, .resting (.inl rfl) rfl rfl⟩,
      fun slot => ?_, ⟨_, .idle rfl, .deaf rfl⟩, fun engaged => engaged.elim⟩
    · cases slot <;> cases knows
    · cases slot <;> rfl
  have finished : Tuned images p.registers.registers p.controller.head p.controller.drives ∧
      Honest images p.registers :=
    List.foldlRecOn calls step
      (motive := fun p : Pairing (Observed Host) =>
        Tuned images p.registers.registers p.controller.head p.controller.drives ∧ Honest images p.registers)
      ⟨start, List.forall_mem_nil _, ⟨rfl, rfl, rfl, rfl⟩⟩
      fun _ h call mem => tuned_pollOnce (by exact h.1) h.2 (truthful call mem)
  have honest := finished.2
  have unnoticed := Observed.run_registers
    { controller := .ofVolume volume settings, registers := { registers := host } } calls
  exact ⟨unnoticed, fun write mem => (honest.fair write mem).decoded,
    fun write mem => (honest.fair write mem).verdict, honest.tally.bad, honest.tally.unverified, honest.tally.right,
    honest.tally.missed⟩

/-- A sector that is cached is asked for, and another one that is not. -/
theorem no_sector_misread_cached :
    let images : PerDrive (Array UInt8) := .both (Array.replicate trackSize 7)
    let jobs : List Job := [⟨.external, 0, 3, 0⟩, ⟨.internal, 34, 15, 0⟩]
    let calls : List (ControllerSettings × TrackCache) := List.replicate 100 ({}, .both (.uniform 7))
    let host : Host := { jobs, images := ⟨some images.external, some images.internal⟩ }
    let p := run { controller := .ofVolume 254 {}, registers := { registers := host : Observed Host } } calls
    (∀ job ∈ jobs, job.track.toNat < trackCount) ∧ (∀ call ∈ calls, call.2.Truthful images) ∧
      run { controller := .ofVolume 254 {}, registers := host } calls =
        { controller := p.controller, registers := p.registers.registers } ∧
      p.registers.registers.report.sectorsBad = 0 := by
  intro images jobs calls host p
  have low : ∀ job ∈ jobs, job.track.toNat < trackCount := by decide
  have truthful : ∀ call ∈ calls, call.2.Truthful images := by
    intro call mem
    have same : call = ({}, .both (.uniform 7)) := List.eq_of_mem_replicate mem
    rw [same]
    exact TrackCache.truthful_uniform 7
  refine ⟨low, truthful, ?_⟩
  clear_value images jobs calls
  obtain ⟨unnoticed, -, -, bad, -⟩ := no_sector_misread 254 {} images jobs low calls truthful
  exact ⟨unnoticed, bad⟩

end Pairing
end Controller
end Floppy
