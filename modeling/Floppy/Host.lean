import Floppy.Image
import Floppy.Status
import Floppy.Gcr.DataField

/-!
# A simulated host

Plays the disk routines of the host computer against the drive: it finds the stop at track 0, seeks with
single phase steps, waits for the address field of a sector, decodes the data field that follows, and
compares the sector with an image where there is one.
-/
namespace Floppy
open Gcr

namespace Host

structure Job where
  slot : DriveSlot
  track : UInt8
  /-- The logical number. -/
  sector : UInt8
  retries : Nat := 0
deriving DecidableEq, Repr

structure Report where
  sectorsOk : Nat := 0
  sectorsBad : Nat := 0
  sectorsUnverified : Nat := 0
  notFound : Nat := 0
  retries : Nat := 0
  headersSeen : Nat := 0
  bytesSeen : Nat := 0
  seeks : Nat := 0
  done : Bool := false
deriving DecidableEq, Repr

def Report.failed (r : Report) : Bool := 0 < r.sectorsBad || 0 < r.notFound

def Report.text (r : Report) : String :=
  "ok:" ++ toString r.sectorsOk ++ " bad:" ++ toString r.sectorsBad ++ " unverified:" ++
    toString r.sectorsUnverified ++ " not found:" ++ toString r.notFound ++ " retries:" ++
    toString r.retries ++ " headers:" ++ toString r.headersSeen ++ " bytes:" ++ toString r.bytesSeen ++
    " seeks:" ++ toString r.seeks

inductive Activity where
  | idle
  /-- Steps outward that are left. -/
  | recalibrate (left : Nat)
  | seek (target : Int)
  /-- The last bytes that came, and the address fields among them so far. -/
  | findAddress (window : List UInt8) (headers : Nat)
  | readData (reader : DataField.Reader)
  | done
deriving DecidableEq, Repr

inductive Verdict where
  | ok
  | unverified
  | bad
  | notFound
deriving DecidableEq, Repr

/-- Steps that surely reach the stop. It is a multiple of four, so the last phase is phase 0. -/
def recalibrateSteps : Nat := 76

/-- Address fields without a match after which a sector is given up. -/
def maxHeaders : Nat := 48

/-- Bytes for one sector after which it is given up. -/
def maxJobBytes : Nat := 500000

def maxRetries : Nat := 2

/-- The bytes in which an address field is looked for. -/
def windowSize : Nat := 16

end Host

open Host in
structure Host where
  jobs : List Job := []
  current : Option Job := none
  activity : Activity := .idle
  slot : DriveSlot := .external
  /-- Where each arm is thought to be, in half tracks, once it was recalibrated. -/
  arms : PerDrive (Option Int) := .both none
  phaseLines : UInt8 := 0
  pending : Bool := false
  jobBytes : Nat := 0
  /-- What is to be found on each drive, if that is known. -/
  images : PerDrive (Option (Array UInt8)) := .both none
  report : Report := {}

namespace Host

def queue (host : Host) (job : Job) : Host := { host with jobs := host.jobs ++ [job] }

def trackJobs (slot : DriveSlot) (track : UInt8) : List Job :=
  (List.range sectorsPerTrack).map fun s => { slot, track, sector := UInt8.ofNat s }

def queueTracks (host : Host) (slot : DriveSlot) (tracks : List UInt8) : Host :=
  { host with jobs := host.jobs ++ tracks.flatMap (trackJobs slot) }

def wanted (host : Host) : Bool :=
  match host.activity with
  | .findAddress .. | .readData _ => true
  | _ => false

def halfTrackOf (track : UInt8) : Int := track.toInt8.toInt * 2

/-- The only phase line that is set when the arm is pulled to a half track. -/
def phaseLine (halfTrack : Int) : UInt8 := 1 <<< UInt8.ofInt (halfTrack % 4)

def startSeek (host : Host) : Host :=
  match host.current with
  | none => { host with activity := .idle }
  | some job =>
    let target := halfTrackOf job.track
    let seeks := host.report.seeks + (if host.arms.get job.slot = some target then 0 else 1)
    { host with report.seeks := seeks, activity := .seek target }

def nextJob (host : Host) : Host × Log :=
  match host.jobs with
  | [] => ({ host with report.done := true, activity := .done },
      [⟨.debug, "Simulated controller: all jobs complete"⟩])
  | job :: jobs =>
    let host := { host with jobs, current := some job, jobBytes := 0, slot := job.slot }
    if (host.arms.get job.slot).isNone then
      ({ host with activity := .recalibrate recalibrateSteps },
        [⟨.debug, "Simulated controller: recalibrating " ++ job.slot.name ++ " drive"⟩])
    else (host.startSeek, [])

/-- One step toward the sector that is looked for. -/
def advance (host : Host) : Host × Log :=
  match host.activity with
  | .idle => host.nextJob
  | .recalibrate left =>
    let left := left - 1
    let host := { host with activity := .recalibrate left, phaseLines := phaseLine left }
    if left = 0 then ({ host with arms := host.arms.set host.slot (some 0) }.startSeek, [])
    else (host, [])
  | .seek target =>
    match host.arms.get host.slot with
    | none => (host, [])
    | some arm =>
      if arm = target then ({ host with phaseLines := 0, activity := .findAddress [] 0 }, [])
      else
        let next := if arm < target then arm + 1 else arm - 1
        ({ host with arms := host.arms.set host.slot (some next), phaseLines := phaseLine next }, [])
  | _ => (host, [])

def Job.text (job : Job) : String :=
  job.slot.name ++ " track " ++ toString job.track.toNat ++ " sector " ++ toString job.sector.toNat

def Job.retryText (job : Job) : String :=
  "Simulated controller: retrying " ++ job.slot.name ++ " TrackSector \x7b track: " ++
    toString job.track.toNat ++ ", sector: " ++ toString job.sector.toNat ++ " \x7d"

/-- A failed job is tried again at once, up to its number of retries. -/
def retry (host : Host) (job : Job) : Host × Log :=
  ({ host with
      jobs := { job with retries := job.retries + 1 } :: host.jobs
      report.retries := host.report.retries + 1 },
    [⟨.debug, job.retryText⟩])

/-- Settles the current job. -/
def finish (host : Host) (verdict : Verdict) : Host × Log :=
  match host.current with
  | none => (host, [])
  | some job =>
    let host := { host with current := none, activity := .idle }
    let r := host.report
    match verdict with
    | .ok => ({ host with report.sectorsOk := r.sectorsOk + 1 }, [])
    | .unverified => ({ host with report.sectorsUnverified := r.sectorsUnverified + 1 }, [])
    | .bad =>
      if job.retries < maxRetries then host.retry job
      else ({ host with report.sectorsBad := r.sectorsBad + 1 },
        [⟨.warn, "Simulated controller: " ++ job.text ++ " does not match the image"⟩])
    | .notFound =>
      if job.retries < maxRetries then host.retry job
      else ({ host with report.notFound := r.notFound + 1 },
        [⟨.warn, "Simulated controller: " ++ job.text ++ " not found"⟩])

def verify (host : Host) (job : Job) (sector : Sector) : Verdict :=
  match host.images.get job.slot with
  | none => .unverified
  | some image => if sectorAt? image job.track job.sector = some sector then .ok else .bad

/-- A byte while an address field is looked for. -/
def lookForAddress (host : Host) (job : Job) (window : List UInt8) (headers : Nat) (byte : UInt8) :
    Host × Log :=
  let window := window.drop (window.length + 1 - windowSize) ++ [byte]
  if AddressField.trailer <:+ window then
    match AddressField.find? window with
    | none => ({ host with activity := .findAddress window headers }, [])
    | some field =>
      let headers := headers + 1
      let host := { host with report.headersSeen := host.report.headersSeen + 1 }
      if field.track = job.track ∧ logicalOfPhysical field.sector = job.sector then
        ({ host with activity := .readData .start }, [])
      else if maxHeaders < headers then { host with activity := .findAddress [] headers }.finish .notFound
      else ({ host with activity := .findAddress [] headers }, [])
  else ({ host with activity := .findAddress window headers }, [])

/-- A byte of a data field. -/
def readField (host : Host) (job : Job) (reader : DataField.Reader) (byte : UInt8) : Host × Log :=
  match reader.push byte with
  | (reader, none) => ({ host with activity := .readData reader }, [])
  | (_, some (.ok sector)) => host.finish (host.verify job sector)
  | (_, some (.error e)) =>
    let (host, log) := host.finish .bad
    (host, ⟨.debug, "Simulated controller: data field error: " ++ e.message⟩ :: log)

/-- A byte that the drive puts into the data register. -/
def accept (host : Host) (byte : UInt8) : Host × Log :=
  let host := { host with pending := true, report.bytesSeen := host.report.bytesSeen + 1 }
  match host.current with
  | none => (host, [])
  | some job =>
    let host := { host with jobBytes := host.jobBytes + 1 }
    if maxJobBytes < host.jobBytes then host.finish .notFound
    else
      match host.activity with
      | .findAddress window headers => host.lookForAddress job window headers byte
      | .readData reader => host.readField job reader byte
      | _ => (host, [])

/-- A status read. The host has taken the last byte by the read after it. -/
def poll (host : Host) : Poll Host :=
  let (next, log) := host.advance
  { status :=
      { phase := next.phaseLines
        motor := next.activity ≠ .done ∧ next.activity ≠ .idle
        drive := next.slot
        wanted := next.wanted
        pending := next.pending }
    registers := { next with pending := false }
    log }

def hint (host : Host) : Option Position :=
  match host.activity, host.current with
  | .findAddress .., some job => some ⟨job.track, job.sector⟩
  | _, _ => none

instance : Registers Host where
  poll := poll
  write := accept
  hint := hint

end Host
end Floppy
