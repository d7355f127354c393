import Floppy.Proofs.Host.Arms

/-!
# Every job is settled once

Whatever the drive does to a host, each job that was queued is waiting, in hand, or closed by a verdict that the report
counts, and it is so once. A job that fails goes back in front of the others, twice at most, and only then is it closed
as failed.
-/
namespace Floppy.Host
open Gcr

/-- What the drive does to a host: it reads the status register, or it puts a byte into the data register. -/
inductive Call where
  | poll
  | write (byte : UInt8)

def call (host : Host) : Call → Host
  | .poll => (Registers.poll host).registers
  | .write byte => (Registers.write host byte).1

/-- A job that was never put back. -/
def Job.fresh (job : Job) : Job := { job with retries := 0 }

namespace Report

/-- How many sectors a report counts with a verdict. -/
def number (report : Report) : Verdict → ℕ
  | .ok => report.sectorsOk
  | .unverified => report.sectorsUnverified
  | .bad => report.sectorsBad
  | .notFound => report.notFound

def verdictSince? (report before : Report) : Option Verdict :=
  [Verdict.ok, .unverified, .bad, .notFound].find? fun verdict => before.number verdict < report.number verdict

theorem number_settle (report : Report) (verdict other : Verdict) (again : Bool) :
    (report.settle verdict again).number other =
      report.number other + if again = false ∧ verdict = other then 1 else 0 := by
  cases again <;> cases verdict <;> cases other <;> rfl

theorem retries_settle (report : Report) (verdict : Verdict) (again : Bool) :
    (report.settle verdict again).retries = report.retries + if again then 1 else 0 := by
  cases again <;> cases verdict <;> rfl

theorem done_settle (report : Report) (verdict : Verdict) (again : Bool) :
    (report.settle verdict again).done = report.done := by
  cases again <;> cases verdict <;> rfl

variable {report before : Report}

theorem verdictSince?_eq_none (same : report.number = before.number) : report.verdictSince? before = none := by
  simp [verdictSince?, same]

theorem verdictSince?_eq_some {verdict : Verdict}
    (more : ∀ other, report.number other = before.number other + if verdict = other then 1 else 0) :
    report.verdictSince? before = some verdict := by
  cases verdict <;> simp [verdictSince?, more]

/-- Only what is counted beside the verdicts differs. -/
def Goes (before report : Report) : Prop :=
  ∃ headersSeen bytesSeen seeks, report = { before with headersSeen, bytesSeen, seeks }

theorem Goes.same (h : before.Goes report) :
    report.number = before.number ∧ report.retries = before.retries ∧ report.done = before.done := by
  obtain ⟨headersSeen, bytesSeen, seeks, rfl⟩ := h
  exact ⟨rfl, rfl, rfl⟩

end Report

def Free (host : Host) : Prop := host.activity = .idle ∨ host.activity = .done → host.current = none

/-- What one call can do to the jobs of a host. -/
inductive Turn (host next : Host) : Prop
  | goes (jobs : next.jobs = host.jobs) (current : next.current = host.current) (report : host.report.Goes next.report)
      (stays : host.Free → next.Free ∧ (host.activity = .done → next.activity = .done))
  | takes {job : Job} (idle : host.activity = .idle) (jobs : host.jobs = job :: next.jobs)
      (current : next.current = some job) (report : host.report.Goes next.report) (free : next.Free)
  | rests (idle : host.activity = .idle) (nothing : host.jobs = []) (jobs : next.jobs = [])
      (current : next.current = host.current) (report : next.report = { host.report with done := true })
      (done : next.activity = .done)
  | returns {job : Job} (taken : host.current = some job) (left : job.retries < maxRetries)
      (jobs : next.jobs = { job with retries := job.retries + 1 } :: host.jobs) (current : next.current = none)
      (number : next.report.number = host.report.number) (retries : next.report.retries = host.report.retries + 1)
      (done : next.report.done = host.report.done)
  | closes {job : Job} (verdict : Verdict) (taken : host.current = some job)
      (last : verdict.fails = true → ¬ job.retries < maxRetries) (jobs : next.jobs = host.jobs)
      (current : next.current = none)
      (number : ∀ other, next.report.number other = host.report.number other + if verdict = other then 1 else 0)
      (retries : next.report.retries = host.report.retries) (done : next.report.done = host.report.done)

variable {host : Host}

theorem startSeek_kept (host : Host) : host.startSeek.jobs = host.jobs ∧ host.startSeek.current = host.current ∧
    host.report.Goes host.startSeek.report ∧ host.startSeek.Free := by
  unfold startSeek
  split
  case h_1 free => exact ⟨rfl, rfl, ⟨_, _, _, rfl⟩, fun _ => free⟩
  case h_2 => exact ⟨rfl, rfl, ⟨_, _, _, rfl⟩, by rintro (idle | done) <;> contradiction⟩

theorem turn_nextJob (idle : host.activity = .idle) : Turn host { host.nextJob.1 with pending := false } := by
  unfold nextJob
  cases queued : host.jobs with
  | nil => exact .rests idle queued rfl rfl rfl rfl
  | cons job jobs =>
    dsimp only
    split
    · refine .takes idle queued rfl ⟨_, _, _, rfl⟩ ?_
      rintro (idle | done) <;> contradiction
    · let host' : Host := { host with jobs, current := some job, jobBytes := 0, slot := job.slot }
      obtain ⟨same, current, report, free⟩ := host'.startSeek_kept
      refine .takes idle ?_ current report free
      rw [queued]
      exact congrArg (job :: ·) same.symm

/-- A read of the status register counts no verdict. -/
theorem turn_poll (host : Host) : Turn host (host.call .poll) := by
  change Turn host { host.advance.1 with pending := false }
  cases doing : host.activity with
  | idle =>
    rw [advance, doing]
    exact turn_nextJob doing
  | recalibrate left =>
    have busy : host.activity ≠ .done := by simp [doing]
    rw [advance, doing]
    dsimp only
    split
    · obtain ⟨jobs, current, report, free⟩ := startSeek_kept
        { host with
          activity := .recalibrate (left - 1)
          phaseLines := phaseLine (left - 1 : ℕ)
          arms := host.arms.set host.slot (some 0) }
      exact .goes jobs current report fun _ => ⟨free, fun done => absurd done busy⟩
    · refine .goes rfl rfl ⟨_, _, _, rfl⟩ fun _ => ⟨?_, fun done => absurd done busy⟩
      rintro (idle | done) <;> contradiction
  | seek target =>
    have busy : host.activity ≠ .done := by simp [doing]
    rw [advance, doing]
    dsimp only
    split
    · exact .goes rfl rfl ⟨_, _, _, rfl⟩ fun free => ⟨free, fun done => absurd done busy⟩
    · split
      all_goals
        refine .goes rfl rfl ⟨_, _, _, rfl⟩ fun _ => ⟨?_, fun done => absurd done busy⟩
        rintro (idle | done) <;> contradiction
  | _ =>
    rw [advance, doing]
    exact .goes rfl rfl ⟨_, _, _, rfl⟩ fun free => ⟨free, id⟩

/-- A byte that settles nothing leaves the host reading, or as it was. -/
theorem activity_of_ruling {job : Job} {byte : UInt8} {activity : Activity} {headers : ℕ}
    (ruled : host.ruling job byte = .goes activity headers) :
    activity = host.activity ∨ ∀ host : Host, { host with activity }.wanted = true := by
  cases wanted : host.wanted with
  | true =>
    have reading := reading_ruling wanted job byte
    rw [ruled] at reading
    exact .inr reading
  | false =>
    unfold ruling at ruled
    unfold Host.wanted at wanted
    split at ruled
    · cases ruled
    · split at ruled
      case h_1 | h_2 => simp_all
      case h_3 => exact .inl (Ruling.goes.inj ruled).1.symm

theorem turn_settled {job : Job} (taken : host.current = some job) (verdict : Verdict) (headers : ℕ) :
    Turn host ((host.counted headers).settled job verdict) := by
  let report := (host.counted headers).report
  unfold settled
  cases again : verdict.fails && decide (job.retries < maxRetries) with
  | true =>
    refine .returns taken ?_ rfl rfl (funext fun other => report.number_settle verdict other true)
      (report.retries_settle verdict true) (report.done_settle verdict true)
    simpa using Bool.and_elim_right again
  | false =>
    refine .closes verdict taken (fun fails => ?_) rfl rfl (fun other => ?_) (report.retries_settle verdict false)
      (report.done_settle verdict false)
    · rw [fails, Bool.true_and] at again
      exact of_decide_eq_false again
    · have counts := report.number_settle verdict other false
      simp only [true_and] at counts
      exact counts

theorem turn_write (host : Host) (byte : UInt8) : Turn host (host.call (.write byte)) := by
  change Turn host (host.accept byte).1
  cases taken : host.current with
  | none =>
    rw [accept_of_none taken]
    exact .goes rfl rfl ⟨_, _, _, rfl⟩ fun free => ⟨free, id⟩
  | some job =>
    rw [accept_eq taken]
    cases ruled : host.ruling job byte with
    | goes activity headers =>
      rcases activity_of_ruling ruled with rfl | reads
      · exact .goes rfl rfl ⟨_, _, _, rfl⟩ fun free => ⟨free, id⟩
      · refine .goes rfl rfl ⟨_, _, _, rfl⟩ fun free => ⟨?_, fun done => ?_⟩
        · rintro (rfl | rfl) <;> exact nomatch reads host
        · exact nomatch taken.symm.trans (free (.inr done))
    | settles verdict headers => exact turn_settled taken verdict headers

theorem turn (host : Host) (call : Call) : Turn host (host.call call) := by
  cases call with
  | poll => exact turn_poll host
  | write byte => exact turn_write host byte

/-- A host with the jobs that its report has counted so far, each with its verdict. -/
structure Docket where
  host : Host
  closed : List (Job × Verdict) := []

namespace Docket

/-- The job in hand is closed by the verdict that is counted in the call, if there is one. -/
def step (d : Docket) (call : Call) : Docket :=
  let next := d.host.call call
  let closed : Option (Job × Verdict) := do
    return (← d.host.current, ← next.report.verdictSince? d.host.report)
  { host := next, closed := d.closed ++ closed.toList }

def run (d : Docket) (calls : List Call) : Docket := calls.foldl step d

/-- All jobs: those that are closed, the one in hand, and those that wait. -/
def jobs (d : Docket) : List Job := d.closed.map Prod.fst ++ d.host.current.toList ++ d.host.jobs

theorem host_run (d : Docket) (calls : List Call) : (d.run calls).host = calls.foldl call d.host := by
  induction calls generalizing d with
  | nil => rfl
  | cons call calls ih => exact ih (d.step call)

/-- Every job that was queued is on the docket once, and the report counts what the docket says. -/
structure Kept (queued : List Job) (d : Docket) : Prop where
  once : (d.jobs.map Job.fresh).Perm queued
  few : ∀ job ∈ d.jobs, job.retries ≤ maxRetries
  retries : d.host.report.retries = (d.jobs.map Job.retries).sum
  number : ∀ verdict, d.host.report.number verdict = (d.closed.map Prod.snd).count verdict
  failed : ∀ entry ∈ d.closed, entry.2.fails = true → entry.1.retries = maxRetries
  free : d.host.Free
  done : d.host.report.done = true → d.host.activity = .done ∧ d.host.jobs = []

variable {queued : List Job} {d : Docket} {c : Call}

theorem step_quiet (same : (d.host.call c).report.number = d.host.report.number) :
    d.step c = { d with host := d.host.call c } := by
  have nothing := Report.verdictSince?_eq_none same
  simp only [step, nothing, Option.bind_eq_bind, Option.bind_none, Option.bind_fun_none, Option.toList_none,
    List.append_nil]

theorem step_closing {job : Job} {verdict : Verdict} (taken : d.host.current = some job)
    (more : ∀ other, (d.host.call c).report.number other =
      d.host.report.number other + if verdict = other then 1 else 0) :
    d.step c = ⟨d.host.call c, d.closed ++ [(job, verdict)]⟩ := by
  have brought := Report.verdictSince?_eq_some more
  simp only [step, taken, brought]
  rfl

namespace Kept

theorem unfinished (h : Kept queued d) {job : Job} (taken : d.host.current = some job) :
    d.host.report.done ≠ true := by
  intro done
  have free := h.free (.inr (h.done done).1)
  exact nomatch taken.symm.trans free

theorem quiet (h : Kept queued d) {next : Host}
    (same : next.current.toList ++ next.jobs = d.host.current.toList ++ d.host.jobs)
    (number : next.report.number = d.host.report.number) (retries : next.report.retries = d.host.report.retries)
    (free : next.Free) (done : next.report.done = true → next.activity = .done ∧ next.jobs = []) :
    Kept queued { d with host := next } := by
  have jobs : Docket.jobs { d with host := next } = d.jobs := by
    simp only [Docket.jobs, List.append_assoc, same]
  refine ⟨?_, ?_, ?_, fun verdict => ?_, h.failed, free, done⟩
  · exact jobs ▸ h.once
  · exact jobs ▸ h.few
  · exact jobs ▸ retries.trans h.retries
  · exact (congrFun number verdict).trans (h.number verdict)

theorem back (h : Kept queued d) {job : Job} (taken : d.host.current = some job) {next : Host}
    (left : job.retries < maxRetries) (current : next.current = none)
    (jobs : next.jobs = { job with retries := job.retries + 1 } :: d.host.jobs)
    (number : next.report.number = d.host.report.number) (retries : next.report.retries = d.host.report.retries + 1)
    (done : next.report.done = d.host.report.done) : Kept queued { d with host := next } := by
  have before : d.jobs = d.closed.map Prod.fst ++ job :: d.host.jobs := by
    simp only [Docket.jobs, taken, Option.toList_some, List.append_assoc, List.cons_append, List.nil_append]
  have after : Docket.jobs { d with host := next } =
      d.closed.map Prod.fst ++ { job with retries := job.retries + 1 } :: d.host.jobs := by
    simp only [Docket.jobs, current, jobs, Option.toList_none, List.append_nil]
  have few := h.few
  have sum := h.retries
  rw [before] at few sum
  refine ⟨?_, ?_, ?_, fun verdict => ?_, h.failed, fun _ => current, fun finished => ?_⟩
  · have once := h.once
    rw [before] at once
    rw [after]
    simpa [Job.fresh] using once
  · rw [after]
    simp only [List.forall_mem_append, List.forall_mem_cons] at few ⊢
    exact ⟨few.1, left, few.2.2⟩
  · rw [after]
    simp only [List.map_append, List.map_cons, List.sum_append, List.sum_cons] at sum ⊢
    omega
  · exact (congrFun number verdict).trans (h.number verdict)
  · exact absurd (done.symm.trans finished) (h.unfinished taken)

theorem closing (h : Kept queued d) {job : Job} (taken : d.host.current = some job) {next : Host} {verdict : Verdict}
    (last : verdict.fails = true → job.retries = maxRetries) (current : next.current = none)
    (jobs : next.jobs = d.host.jobs)
    (number : ∀ other, next.report.number other = d.host.report.number other + if verdict = other then 1 else 0)
    (retries : next.report.retries = d.host.report.retries) (done : next.report.done = d.host.report.done) :
    Kept queued ⟨next, d.closed ++ [(job, verdict)]⟩ := by
  have same : Docket.jobs ⟨next, d.closed ++ [(job, verdict)]⟩ = d.jobs := by
    simp [Docket.jobs, current, jobs, taken]
  refine ⟨?_, ?_, ?_, fun other => ?_, ?_, fun _ => current, fun finished => ?_⟩
  · exact same ▸ h.once
  · exact same ▸ h.few
  · exact same ▸ retries.trans h.retries
  · rw [number, h.number]
    simp [List.count_append, List.count_singleton]
  · simp only [List.forall_mem_append, List.forall_mem_singleton]
    exact ⟨h.failed, last⟩
  · exact absurd (done.symm.trans finished) (h.unfinished taken)

theorem step (h : Kept queued d) (c : Call) : Kept queued (d.step c) := by
  cases d.host.turn c with
  | goes jobs current report stays =>
    obtain ⟨number, retries, same⟩ := report.same
    rw [step_quiet number]
    refine h.quiet (by rw [jobs, current]) number retries (stays h.free).1 fun finished => ?_
    obtain ⟨done, nothing⟩ := h.done (same ▸ finished)
    exact ⟨(stays h.free).2 done, jobs.trans nothing⟩
  | takes idle jobs current report free =>
    obtain ⟨number, retries, same⟩ := report.same
    rw [step_quiet number]
    refine h.quiet ?_ number retries free fun finished => ?_
    · rw [h.free (.inl idle), jobs, current]
      rfl
    · obtain ⟨done, -⟩ := h.done (same ▸ finished)
      exact nomatch idle.symm.trans done
  | rests idle nothing jobs current report done =>
    have number : (d.host.call c).report.number = d.host.report.number := by
      rw [report]
      rfl
    rw [step_quiet number]
    refine h.quiet (by rw [jobs, nothing, current]) number (by rw [report]) (fun _ => ?_) fun _ => ⟨done, jobs⟩
    exact current.trans (h.free (.inl idle))
  | returns taken left jobs current number retries done =>
    rw [step_quiet number]
    exact h.back taken left current jobs number retries done
  | @closes job verdict taken last jobs current number retries done =>
    have few : job.retries ≤ maxRetries := h.few job (by simp [Docket.jobs, taken])
    rw [step_closing taken number]
    exact h.closing taken (fun fails => few.antisymm (not_lt.mp (last fails))) current jobs number retries done

theorem run (h : Kept queued d) (calls : List Call) : Kept queued (d.run calls) := by
  induction calls generalizing d with
  | nil => exact h
  | cons c calls ih => exact ih (h.step c)

theorem queue_all (host : Host) (jobs : List Job) : jobs.foldl queue host = { host with jobs := host.jobs ++ jobs } := by
  induction jobs generalizing host with
  | nil => simp
  | cons job jobs ih => simp [ih, queue]

theorem start (fresh : ∀ job ∈ queued, job.retries = 0) (images : PerDrive (Option (Array UInt8))) :
    Kept queued { host := queued.foldl queue { images } } := by
  rw [queue_all]
  have jobs : Docket.jobs { host := { images, jobs := [] ++ queued } } = queued := rfl
  refine ⟨?_, ?_, ?_, ?_, List.forall_mem_nil _, fun _ => rfl, nofun⟩
  · have same : queued.map Job.fresh = queued.map id :=
      List.map_congr_left fun job mem => by rw [Job.fresh, ← fresh job mem, id]
    rw [jobs, same, List.map_id]
  · exact jobs.symm ▸ fun job mem => (fresh job mem).trans_le (Nat.zero_le _)
  · rw [jobs, List.sum_eq_zero (by simpa using fresh)]
  · rintro (_ | _) <;> rfl

theorem length_closed (h : Kept queued d) : d.host.report.sectorsOk + d.host.report.sectorsBad +
    d.host.report.sectorsUnverified + d.host.report.notFound = d.closed.length := by
  have all (verdicts : List Verdict) : verdicts.count .ok + verdicts.count .bad + verdicts.count .unverified +
      verdicts.count .notFound = verdicts.length := by
    induction verdicts with
    | nil => rfl
    | cons verdict verdicts ih =>
      cases verdict <;> simp [← ih] <;> omega
  have sum := all (d.closed.map Prod.snd)
  rw [← h.number, ← h.number, ← h.number, ← h.number, List.length_map] at sum
  exact sum

end Kept
end Docket

/-- Whatever the calls, each job that was queued is waiting, in hand or closed, and it is so once. It is closed as
failed only after it was put back twice, and a host is done only when all its jobs are closed. -/
theorem settles_once (jobs : List Job) (fresh : ∀ job ∈ jobs, job.retries = 0)
    (images : PerDrive (Option (Array UInt8))) (calls : List Call) :
    let d := Docket.run { host := jobs.foldl queue { images } } calls
    d.host = calls.foldl call (jobs.foldl queue { images }) ∧
    (d.jobs.map Job.fresh).Perm jobs ∧
    d.host.report.sectorsOk + d.host.report.sectorsBad + d.host.report.sectorsUnverified + d.host.report.notFound +
      d.host.jobs.length + (if d.host.current.isSome then 1 else 0) = jobs.length ∧
    (∀ job ∈ d.jobs, job.retries ≤ 2) ∧
    d.host.report.retries = (d.jobs.map Job.retries).sum ∧ d.host.report.retries ≤ 2 * jobs.length ∧
    (∀ verdict, d.host.report.number verdict = (d.closed.map Prod.snd).count verdict) ∧
    (∀ entry ∈ d.closed, entry.2 = .bad ∨ entry.2 = .notFound → entry.1.retries = 2) ∧
    (d.host.report.done = true → (d.closed.map fun entry => entry.1.fresh).Perm jobs ∧ d.host.jobs = [] ∧
      d.host.current = none) := by
  intro d
  have kept : Docket.Kept jobs d := (Docket.Kept.start fresh images).run calls
  have count := kept.once.length_eq
  have size : d.jobs.length = d.closed.length + (if d.host.current.isSome then 1 else 0) + d.host.jobs.length := by
    rw [Docket.jobs, List.length_append, List.length_append, List.length_map]
    cases d.host.current <;> rfl
  rw [List.length_map] at count
  refine ⟨Docket.host_run _ calls, kept.once, ?_, kept.few, kept.retries, ?_, kept.number, fun entry mem failed => ?_,
    fun finished => ?_⟩
  · rw [kept.length_closed, ← count, size]
    omega
  · rw [kept.retries, ← count, ← List.length_map (f := Job.retries), mul_comm]
    exact List.sum_le_card_nsmul _ maxRetries (by simpa using kept.few)
  · exact kept.failed entry mem (by rcases failed with bad | lost <;> simp [Verdict.fails, *])
  · obtain ⟨done, nothing⟩ := kept.done finished
    have free := kept.free (.inr done)
    have once := kept.once
    rw [Docket.jobs, nothing, free] at once
    simp only [Option.toList_none, List.append_nil, List.map_map] at once
    exact ⟨once, nothing, free⟩

/-- Reads of the status register, then the header of the first sector and a data field that nothing can be read from. -/
def attempt (polls : ℕ) : List Call :=
  List.replicate polls .poll ++
    (AddressField.header ⟨254, 0, 0⟩ ++ DataField.marker ++ List.replicate 345 0).map .write

/-- The arm is moved to the stop once, and the sector is tried three times before it is closed. -/
theorem settles_once_bad :
    let job : Job := ⟨.internal, 0, 0, 0⟩
    let calls := attempt 78 ++ attempt 2 ++ attempt 2 ++ [.poll]
    let d := Docket.run { host := [job].foldl queue {} } calls
    (d.closed = [({ job with retries := 2 }, .bad)] ∧ d.host.report.done = true) ∧
      d.host.report.retries ≤ 2 * [job].length ∧ (d.closed.map fun entry => entry.1.fresh).Perm [job] := by
  intro job calls
  have fresh : ∀ other ∈ [job], other.retries = 0 := List.forall_mem_singleton.mpr rfl
  have closed :
      let d := Docket.run { host := [job].foldl queue {} } calls
      d.closed = [({ job with retries := 2 }, .bad)] ∧ d.host.report.done = true := by decide +kernel
  obtain ⟨-, -, -, -, -, retries, -, -, done⟩ := settles_once [job] fresh (.both none) calls
  exact ⟨closed, retries, (done closed.2).1⟩

end Floppy.Host
