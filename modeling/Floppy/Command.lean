import Floppy.Emulation
import Floppy.Settings.Arguments
import Floppy.Settings.File

/-!
# The command

Reads the arguments and the configuration file, runs the emulation and reports on it.
-/
namespace Floppy.Command

def defaultConfigFile : String := "disk2emu.toml"

/-- How the command ends: its exit code and what it prints. -/
structure Ending where
  exitCode : UInt8
  out : List String := []
  err : List String := []

inductive ConfigError where
  | file (cause : FileError)
  | invalid
deriving DecidableEq, Repr

def ConfigError.lines : ConfigError → List String
  | file .notFound =>
    ["Configuration file not found! Please create " ++ defaultConfigFile ++
      " in the emulator directory or provide the path to configuration file with --configfile."]
  | file cause => ["Unknown IO error reading configuration file:", cause.message]
  | invalid =>
    ["Failed to parse configuration file. There may be a typo or otherwise invalid toml:",
      "the document is not well formed, or a value has the wrong type"]

def usage : List String :=
  ["Usage: disk2emu [--configfile=PATH] [--image=PATH] [--internal_image=PATH] [--volume=NUMBER]",
    "    [--run_ticks=NUMBER] [--transport=loopback|serial] [--serial_port=NAME] [--whole_track]",
    "    [--no_burst] [--trace_controller] [--trace_track_change]"]

def configPath (line : CommandLine) : String := line.configFile.getD defaultConfigFile

/-- The settings in the bytes of a configuration file. -/
def settingsOf (content : Except FileError (Array UInt8)) (line : CommandLine) :
    Except ConfigError RunSettings :=
  match content.bind textOf with
  | .error e => .error (.file e)
  | .ok text =>
    match Settings.ofText? text with
    | none => .error .invalid
    | some settings => .ok (settings.overlay line)

def consoleLines (summary : Emulation.Summary) : List String :=
  if summary.trace.target = .console then summary.trace.lines.toList else []

/-- What is said about a run, and about its time if that is known. -/
def Ending.ofRun (result : Except EmulationError Emulation.Summary) (elapsed : Option String) : Ending :=
  match result with
  | .error e => { exitCode := 1, err := ["Emulation failed: " ++ e.message] }
  | .ok summary =>
    { exitCode := if summary.succeeded then 0 else 2
      out := consoleLines summary ++ summary.lines elapsed }

def run (arguments : List String) (files : FileReader) : Ending :=
  match Settings.ofArguments arguments with
  | .error .askedForText => { exitCode := 0, out := usage }
  | .error .invalid => { exitCode := 1, err := usage }
  | .ok line =>
    match settingsOf (files (configPath line)) line with
    | .error e => { exitCode := 1, err := e.lines }
    | .ok settings => .ofRun (Emulation.run settings files) none

end Floppy.Command
