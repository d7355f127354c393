import Floppy.Settings.Basic
import Floppy.Toml.Document

/-!
# The configuration file

Each section is a table with known keys; unknown keys are ignored, and a missing one leaves the default. A
section may also be written as an array of its values, in order. Only the section on the emulator has to be
there.
-/
namespace Floppy.Settings
open Toml

abbrev Reader (α : Type) := Value → Option α

def text : Reader String
  | .string s => some s
  | _ => none

def flag : Reader Bool
  | .boolean b => some b
  | _ => none

def natural (bound : Nat) : Reader Nat
  | .integer n => if 0 ≤ n ∧ n < bound then some n.toNat else none
  | _ => none

def byte : Reader UInt8 := fun v => (natural 256 v).map UInt8.ofNat
def word : Reader Nat := natural UInt32.size
def long : Reader Nat := natural UInt64.size

/-- A word, or a table whose only key is the word and holds an empty table or array. -/
def transport : Reader TransportKind
  | .string s => TransportKind.ofWord? s
  | .table _ [(s, .table _ [])] => TransportKind.ofWord? s
  | .table _ [(s, .array [])] => TransportKind.ofWord? s
  | _ => none

/-- The keys of a section, with their values. A date counts as a table without any of the keys. -/
inductive Section where
  | named (entries : Entries)
  | listed (values : List Value)

def Section.ofValue? : Value → Option Section
  | .table _ entries => some (.named entries)
  | .array values => some (.listed values)
  | .tables last earlier => some (.listed ((last :: earlier).reverse.map (.table .header)))
  | .datetime _ => some (.named [])
  | _ => none

/-- The value of a key, which is at the given place of a list. -/
def Section.value? (section_ : Section) (key : String) (place : Nat) : Option Value :=
  match section_ with
  | .named entries => entries.entry? key
  | .listed values => values[place]?

/-- A value that has a default. -/
def Section.read {α : Type} (section_ : Section) (key : String) (place : Nat) (reader : Reader α)
    (default : α) : Option α :=
  match section_.value? key place with
  | none => some default
  | some v => reader v

/-- A value that a table can do without, but not a list. -/
def Section.readOption {α : Type} (section_ : Section) (key : String) (place : Nat) (reader : Reader α) :
    Option (Option α) :=
  match section_, section_.value? key place with
  | .listed _, none => none
  | .named _, none => some none
  | _, some v => (reader v).map some

/-- A section that may be missing. -/
def optionalSection {α : Type} (root : Entries) (key : String) (reader : Section → Option α) (default : α) :
    Option α :=
  match root.entry? key with
  | none => some default
  | some v => (Section.ofValue? v).bind reader

def schedule (s : Section) : Option Schedule.ScheduleSettings := do
  return {
    watchdogMax := UInt32.ofNat (← s.read "watchdog_max" 0 word 5000)
    yieldMax := ← s.read "yield_max" 1 word 1000
    maxNesting := ← s.read "max_nesting" 2 long 8 }

def fetch (s : Section) : Option FetchSettings := do
  return {
    retryLimit := UInt32.ofNat (← s.read "retry_limit" 0 word 1000)
    wholeTrack := ← s.read "whole_track" 1 flag false
    mirrorTracks := ← s.read "mirror_validated_tracks" 2 flag false }

def drive (controller : ControllerSettings) (s : Section) : Option ControllerSettings := do
  return { controller with
    burst := ← s.read "burst" 0 flag true
    burstPollLimit := ← s.read "burst_poll_limit" 1 word 5 }

/-- What is reported, and the file for the raw stream. -/
structure Diagnostics where
  controller : Bool := false
  trackChange : Bool := false
  traceFile : Option String := none

def diagnostics (s : Section) : Option Diagnostics := do
  return {
    controller := ← s.read "controller" 0 flag false
    trackChange := ← s.read "track_change" 1 flag false
    traceFile := ← s.read "fetch_trace_file" 2 (fun v => (text v).map some) none }

def emulator (settings : RunSettings) (s : Section) : Option RunSettings := do
  return { settings with
    image := ← s.readOption "image" 0 text
    system.volume := ← s.read "volume" 1 byte defaultVolume
    internalImage := ← s.readOption "internal_image" 2 text
    runTicks := ← s.read "run_ticks" 3 long 10000
    transport := ← s.read "transport" 4 transport .loopback
    serialPort := ← s.readOption "serial_port" 5 text
    baudRate := ← s.read "baud_rate" 6 word 115200
    crashLog := ← s.readOption "crash_log" 7 text }

def ofEntries? (root : Entries) : Option RunSettings := do
  let schedule ← optionalSection root "scheduler" schedule {}
  let fetch ← optionalSection root "fetch" fetch {}
  let diagnostics ← optionalSection root "diagnostics" diagnostics {}
  let controller : ControllerSettings :=
    { traceStatus := diagnostics.controller, traceTrackChange := diagnostics.trackChange }
  let controller ← optionalSection root "drive" (drive controller) controller
  let system : SystemSettings := { schedule, fetch, controller, traceFile := diagnostics.traceFile }
  let section_ ← (root.entry? "emulator").bind Section.ofValue?
  emulator { system } section_

/-- The settings in the text of a configuration file, none if the text is not in order. -/
def ofText? (text : String) : Option RunSettings := (parse? text.toList).bind ofEntries?

end Floppy.Settings
