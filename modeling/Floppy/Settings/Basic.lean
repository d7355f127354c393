import Floppy.System.Settings

/-!
# Settings of a run

What a configuration file says about a run, and what the command line changes in it.
-/
namespace Floppy

/-- How the source of the external disk is reached. -/
inductive TransportKind where
  | loopback
  | serial
deriving DecidableEq, Repr

namespace TransportKind

def name : TransportKind → String
  | loopback => "Loopback"
  | serial => "Serial"

def ofWord? (word : String) : Option TransportKind :=
  if word = "loopback" then some loopback
  else if word = "serial" then some serial
  else none

/-- The only character beyond ASCII that turns into an ASCII letter in lower case is the Kelvin sign. -/
def lowerChar (c : Char) : Char := if c = '\u212a' then 'k' else c.toLower

/-- On the command line the case of letters does not matter. -/
def ofAnyCase? (word : String) : Option TransportKind :=
  ofWord? (String.ofList (word.toList.map lowerChar))

def badWord : String := "Bad value for transport"

end TransportKind

structure RunSettings where
  /-- The image that is served; without one, a pattern. -/
  image : Option String := none
  /-- The image in storage for the internal drive. -/
  internalImage : Option String := none
  runTicks : Nat := 10000
  transport : TransportKind := .loopback
  serialPort : Option String := none
  baudRate : Nat := 115200
  crashLog : Option String := none
  /-- Its volume is that of the source, too. -/
  system : SystemSettings := {}
deriving DecidableEq, Repr

/-- What the command line sets. Switches only turn things one way. -/
structure CommandLine where
  configFile : Option String := none
  image : Option String := none
  internalImage : Option String := none
  volume : Option UInt8 := none
  runTicks : Option Nat := none
  transport : Option TransportKind := none
  serialPort : Option String := none
  wholeTrack : Bool := false
  noBurst : Bool := false
  traceController : Bool := false
  traceTrackChange : Bool := false
deriving DecidableEq, Repr

/-- The command line goes before the file. A serial port asks for the serial transport. -/
def RunSettings.overlay (settings : RunSettings) (line : CommandLine) : RunSettings :=
  let system := settings.system
  let controller := system.controller
  { settings with
    image := line.image.or settings.image
    internalImage := line.internalImage.or settings.internalImage
    runTicks := line.runTicks.getD settings.runTicks
    transport :=
      if line.serialPort.isSome then .serial else line.transport.getD settings.transport
    serialPort := line.serialPort.or settings.serialPort
    system := { system with
      volume := line.volume.getD system.volume
      fetch.wholeTrack := system.fetch.wholeTrack || line.wholeTrack
      controller := { controller with
        burst := controller.burst && !line.noBurst
        traceStatus := controller.traceStatus || line.traceController
        traceTrackChange := controller.traceTrackChange || line.traceTrackChange } } }

end Floppy
