import Floppy.Directory
import Floppy.Session
import Floppy.Settings.Basic

/-!
# Emulation runs

Puts a session together as the settings ask for it, runs it to its end and sums it up.
-/
namespace Floppy
open Schedule

inductive EmulationError where
  | unreadableImage (path : String) (cause : FileError)
  | imageSize (path : String) (size : Nat)
  | noSerial
deriving DecidableEq, Repr

def EmulationError.message : EmulationError → String
  | unreadableImage path cause => "Couldn't read image " ++ path ++ ": " ++ cause.message
  | imageSize path size => "Image " ++ path ++ Image.sizeText size
  | noSerial => "Serial transport requested, but serial support was not compiled in"

/-- The image in a file. -/
def Image.load (files : FileReader) (path : String) : Except EmulationError Image :=
  match files path with
  | .error e => .error (.unreadableImage path e)
  | .ok bytes =>
    match Image.ofArray? bytes with
    | some image => .ok image
    | none => .error (.imageSize path bytes.size)

/-- The store for crash records under a path. A file that does not exist is made when it is needed, if its
directory exists. -/
def Schedule.CrashStore.ofPath (files : FileReader) (path : String) : CrashStore :=
  match files path with
  | .ok bytes => .file (some bytes.toList)
  | .error e =>
    let closed := CrashStore.closed (if e.isAbsence then .ok [] else .error e.message)
    if e = .notFound ∧ path ≠ "" then
      match files (parentOf path) with
      | .error .isDirectory => .file none
      | .error e => closed e.message
      | .ok _ => closed FileError.notDirectory.message
    else closed e.message

namespace Emulation

/-- How long storage is busy after a write. -/
def storageBusyPasses : UInt32 := 2

def storagePageSize : Nat := 256

def ringSize : Nat := 1024

def readTracks : List UInt8 := [0, 1, 2, 3]

/-- What is left of a run. -/
structure Summary where
  ticks : Nat
  report : Host.Report
  source : SourceStats
  status : List String
  tasks : List TaskStats
  fetchEvents : List String
  crashes : List String
  reboots : UInt32
  crashStore : CrashStore
  trace : Trace
  log : Log

/-- Erased storage with the internal image, if there is one. -/
def storageOf (internal : Option Image) : Flash :=
  let flash := Flash.erased storageSize storagePageSize storageBusyPasses
  match internal with
  | none => flash
  | some image => { flash with bytes := overlay flash.bytes 0 image.toList }

/-- A hyphen stands for the console, also with names behind it that stay in place. -/
def isConsole (path : String) : Bool :=
  match path.splitOn "/" with
  | first :: rest => first = "-" && rest.all fun name => name = "" || name = "."
  | [] => false

def traceOf : Option String → Trace
  | none => {}
  | some path => { target := if isConsole path then .console else .file }

/-- The host that reads the first tracks of each drive that has a disk. -/
def hostOf (external : Image) (internal : Option Image) : Host :=
  let host : Host := { images := ⟨some external.toArray, internal.map (·.toArray)⟩ }
  let host := host.queueTracks .external readTracks
  if internal.isSome then host.queueTracks .internal readTracks else host

def sessionOf (settings : RunSettings) (external : Image) (internal : Option Image) (crashLog : CrashLog) :
    Session :=
  let system := DiskSystem.new settings.system (traceOf settings.system.traceFile)
    (hostOf external internal) ({ capacity := ringSize } : Rings) (storageOf internal)
  let source : ImageSource := { image := external, volume := settings.system.volume }
  { plan := {}
    machine := system.launch crashLog
    link := ({} : Link).deliver source.announce.encode
    source }

def summarize (s : Session) : Summary where
  ticks := s.tick
  report := s.host.report
  source := s.source.stats
  status := s.machine.context.status
  tasks := s.machine.stats
  fetchEvents := s.machine.context.client.events.entries
  crashes := s.machine.crashLog.dump
  reboots := s.machine.reboots
  crashStore := s.machine.crashLog.store
  trace := s.machine.context.client.trace
  log := s.machine.log.toList

/-- Without an image a pattern is served. -/
def run (settings : RunSettings) (files : FileReader) : Except EmulationError Summary := do
  let external ← match settings.image with
    | some path => Image.load files path
    | none => .ok Image.pattern
  let internal ← match settings.internalImage with
    | some path => (Image.load files path).map some
    | none => .ok none
  if settings.transport = .serial then throw .noSerial
  let (crashLog, log) := match settings.crashLog with
    | some path => CrashLog.reopen (.ofPath files path)
    | none => ({}, [])
  let session := sessionOf settings external internal crashLog
  let summary := summarize (session.finish settings.runTicks)
  return { summary with log := log ++ summary.log }

def Summary.succeeded (s : Summary) : Bool := s.report.done && !s.report.failed

/-- The first line says how much was run, and in which time, if that is known. -/
def Summary.lines (s : Summary) (elapsed : Option String) : List String :=
  let indent (text : String) : String := "  " ++ text
  let titled (title : String) (lines : List String) : List String :=
    if lines = [] then [] else title :: lines.map indent
  ["Ran " ++ toString s.ticks ++ " ticks" ++ (match elapsed with
      | some time => " in " ++ time
      | none => "") ++ ", " ++ toString s.reboots.toNat ++ " reboot(s)",
    "Sectors: " ++ s.report.text,
    "Image server: " ++ toString s.source.requests ++ " requests, " ++ toString s.source.sectorsSent ++
      " sectors, " ++ toString s.source.tracksSent ++ " tracks, " ++ toString s.source.badRequests ++ " bad",
    "Status:"] ++ s.status.map indent ++ ["Tasks:"] ++
    s.tasks.map (fun t => "  " ++ Text.padRight 10 t.name ++ " runs:" ++
      Text.padRight 8 (toString t.invocations) ++ " skipped:" ++ Text.padRight 6 (toString t.skipped)) ++
    titled "Recent fetch events:" s.fetchEvents ++ titled "Crash log:" s.crashes

end Emulation
end Floppy
