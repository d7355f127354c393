import Floppy.Host
import Mathlib.Tactic

/-!
# What a byte comes to

While a host has a job in hand, each byte that it takes is counted, and then the job goes on, or it is settled by a
verdict: the job is done with or put back in front of the others, and the report says which.
-/
namespace Floppy.Host
open Gcr

/-- What a byte comes to for the job in hand, with the number of address fields that it completes. -/
inductive Ruling where
  | goes (activity : Activity) (headers : ℕ)
  | settles (verdict : Verdict) (headers : ℕ)

def Ruling.verdict? : Ruling → Option Verdict
  | goes .. => none
  | settles verdict _ => some verdict

def slide (window : List UInt8) (byte : UInt8) : List UInt8 :=
  window.drop (window.length + 1 - windowSize) ++ [byte]

/-- A byte while an address field is looked for. -/
def hear (job : Job) (window : List UInt8) (headers : ℕ) (byte : UInt8) : Ruling :=
  if AddressField.trailer <:+ slide window byte then
    match AddressField.find? (slide window byte) with
    | none => .goes (.findAddress (slide window byte) headers) 0
    | some field =>
      if field.track = job.track ∧ logicalOfPhysical field.sector = job.sector then .goes (.readData .start) 1
      else if maxHeaders < headers + 1 then .settles .notFound 1
      else .goes (.findAddress [] (headers + 1)) 1
  else .goes (.findAddress (slide window byte) headers) 0

/-- What comes of a data field once it was read. -/
def judge (host : Host) (job : Job) : Except CodecError Sector → Verdict
  | .ok sector => host.verify job sector
  | .error _ => .bad

def read (host : Host) (job : Job) (reader : DataField.Reader) (byte : UInt8) : Ruling :=
  match reader.push byte with
  | (reader, none) => .goes (.readData reader) 0
  | (_, some result) => .settles (host.judge job result) 0

/-- A byte while a job is in hand. -/
def ruling (host : Host) (job : Job) (byte : UInt8) : Ruling :=
  if maxJobBytes < host.jobBytes + 1 then .settles .notFound 0
  else
    match host.activity with
    | .findAddress window headers => hear job window headers byte
    | .readData reader => host.read job reader byte
    | activity => .goes activity 0

def verdict? (host : Host) (byte : UInt8) : Option Verdict :=
  host.current.bind fun job => (host.ruling job byte).verdict?

/-- A byte has come, and that many address fields were complete with it. -/
def counted (host : Host) (headers : ℕ) : Host :=
  { host with
    pending := true
    jobBytes := host.jobBytes + 1
    report.bytesSeen := host.report.bytesSeen + 1
    report.headersSeen := host.report.headersSeen + headers }

/-- A verdict that asks for another try, if there are tries left. -/
def Verdict.fails (verdict : Verdict) : Bool := verdict = .bad || verdict = .notFound

/-- What a verdict counts as, when the job is tried once more and when it is not. -/
def Report.settle (report : Report) (verdict : Verdict) (again : Bool) : Report :=
  if again then { report with retries := report.retries + 1 }
  else
    match verdict with
    | .ok => { report with sectorsOk := report.sectorsOk + 1 }
    | .unverified => { report with sectorsUnverified := report.sectorsUnverified + 1 }
    | .bad => { report with sectorsBad := report.sectorsBad + 1 }
    | .notFound => { report with notFound := report.notFound + 1 }

/-- The job in hand is settled. -/
def settled (host : Host) (job : Job) (verdict : Verdict) : Host :=
  let again := verdict.fails && decide (job.retries < maxRetries)
  { host with
    current := none
    activity := .idle
    jobs := if again then { job with retries := job.retries + 1 } :: host.jobs else host.jobs
    report := host.report.settle verdict again }

variable {host : Host} {job : Job}

theorem finish_eq (taken : host.current = some job) (verdict : Verdict) :
    (host.finish verdict).1 = host.settled job verdict := by
  unfold finish settled
  rw [taken]
  cases verdict with
  | ok => rfl
  | unverified => rfl
  | bad => by_cases left : job.retries < maxRetries <;> simp [left, Verdict.fails, Report.settle, retry]
  | notFound => by_cases left : job.retries < maxRetries <;> simp [left, Verdict.fails, Report.settle, retry]

def obey (host : Host) (job : Job) : Ruling → Host
  | .goes activity headers => { host.counted headers with activity }
  | .settles verdict headers => (host.counted headers).settled job verdict

theorem lookForAddress_eq {next : Host} (counts : next = host.counted 0) (taken : host.current = some job)
    (window : List UInt8) (headers : ℕ) (byte : UInt8) :
    (next.lookForAddress job window headers byte).1 = host.obey job (hear job window headers byte) := by
  subst counts
  have same : window.drop (window.length + 1 - windowSize) ++ [byte] = slide window byte := rfl
  unfold lookForAddress hear
  rw [same]
  by_cases ends : AddressField.trailer <:+ slide window byte
  · rw [if_pos ends, if_pos ends]
    cases AddressField.find? (slide window byte) with
    | none => rfl
    | some field =>
      dsimp only
      by_cases found : field.track = job.track ∧ logicalOfPhysical field.sector = job.sector
      · rw [if_pos found, if_pos found]
        rfl
      · rw [if_neg found, if_neg found]
        by_cases many : maxHeaders < headers + 1
        · rw [if_pos many, if_pos many]
          exact finish_eq (by exact taken) _
        · rw [if_neg many, if_neg many]
          rfl
  · rw [if_neg ends, if_neg ends]
    rfl

theorem readField_eq {next : Host} (counts : next = host.counted 0) (taken : host.current = some job)
    (reader : DataField.Reader) (byte : UInt8) :
    (next.readField job reader byte).1 = host.obey job (host.read job reader byte) := by
  subst counts
  unfold readField read
  rcases reader.push byte with ⟨reader, _ | sector | error⟩
  · rfl
  · exact finish_eq (by exact taken) _
  · exact finish_eq (by exact taken) _

/-- A byte is counted, and then the job goes on or is settled. -/
theorem accept_eq (taken : host.current = some job) (byte : UInt8) :
    (host.accept byte).1 = host.obey job (host.ruling job byte) := by
  obtain ⟨jobs, current, activity, slot, arms, phaseLines, pending, jobBytes, images, report⟩ := host
  obtain rfl : current = some job := taken
  unfold accept ruling
  dsimp only
  by_cases many : maxJobBytes < jobBytes + 1
  · rw [if_pos many, if_pos many]
    exact finish_eq (by rfl) _
  · rw [if_neg many, if_neg many]
    cases activity with
    | findAddress window headers => exact lookForAddress_eq (by rfl) (by rfl) window headers byte
    | readData reader => exact readField_eq (by rfl) (by rfl) reader byte
    | _ => rfl

theorem accept_of_none (free : host.current = none) (byte : UInt8) :
    (host.accept byte).1 = { host with pending := true, report.bytesSeen := host.report.bytesSeen + 1 } := by
  simp only [accept, free]

end Floppy.Host
