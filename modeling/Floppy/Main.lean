import Floppy.Command

/-!
# The program

Reads what the command needs from the file system, runs it, and writes what it leaves behind.
-/
namespace Floppy.Terminal

/-- What lies under a path. Only a long name is refused as an argument once the path itself is in order. -/
def readPath (path : String) : IO (Except FileError (Array UInt8)) := do
  if let some e := pathError? path then return .error e
  try
    let bytes ← IO.FS.readBinFile path
    return .ok bytes.data
  catch
    | .noFileOrDirectory .. => return .error .notFound
    | .inappropriateType _ code _ => return .error (if code = 21 then .isDirectory else .notDirectory)
    | .invalidArgument .. => return .error .nameTooLong
    | e => return .error (.other e.toString)

def readAll (paths : List String) : IO FileReader := do
  let found ← paths.mapM fun path => return (path, ← readPath path)
  return fun path => (found.lookup path).getD (.error .notFound)

def neededPaths (settings : RunSettings) : List String :=
  settings.image.toList ++ settings.internalImage.toList ++ settings.crashLog.toList ++
    settings.crashLog.toList.map parentOf

def secondsText (hundredths : Nat) : String :=
  toString (hundredths / 100) ++ "." ++ Text.padLeft '0' 2 (toString (hundredths % 100)) ++ "s"

/-- Writes a file; a path that cannot be written is reported, and the run counts all the same. -/
def writePath (path : String) (content : ByteArray) : IO Unit := do
  try IO.FS.writeBinFile path content
  catch e => IO.eprintln ("Couldn't write " ++ path ++ ": " ++ e.toString)

def writeBack (settings : RunSettings) (summary : Emulation.Summary) : IO Unit := do
  match settings.crashLog, summary.crashStore with
  | some path, .file (some content) => writePath path ⟨content.toArray⟩
  | _, _ => pure ()
  match settings.system.traceFile, summary.trace.target with
  | some path, .file => writePath path summary.trace.text.toUTF8
  | _, _ => pure ()

def finish (ending : Command.Ending) : IO UInt32 := do
  for line in ending.out do IO.println line
  for line in ending.err do IO.eprintln line
  return ending.exitCode.toUInt32

def run (arguments : List String) : IO UInt32 := do
  match Settings.ofArguments arguments with
  | .error .askedForText => finish { exitCode := 0, out := Command.usage }
  | .error .invalid => finish { exitCode := 1, err := Command.usage }
  | .ok line =>
    match Command.settingsOf (← readPath (Command.configPath line)) line with
    | .error e => finish { exitCode := 1, err := e.lines }
    | .ok settings =>
      let files ← readAll (neededPaths settings)
      let before ← IO.monoMsNow
      let result := Emulation.run settings files
      if let .ok summary := result then
        writeBack settings summary
        for entry in summary.log do
          if entry.level = .error then IO.eprintln entry.text
      let after ← IO.monoMsNow
      finish (.ofRun result (some (secondsText ((after - before) / 10))))

end Floppy.Terminal

def main (arguments : List String) : IO UInt32 := Floppy.Terminal.run arguments
