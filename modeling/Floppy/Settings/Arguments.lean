import Floppy.Settings.Basic

/-!
# Arguments

Options take a value, as `--name=value` or as the next argument; switches take none. Each may be given once.
-/
namespace Floppy.Settings

inductive OptionKey where
  | configFile
  | image
  | internalImage
  | volume
  | runTicks
  | transport
  | serialPort
deriving DecidableEq, Repr

inductive SwitchKey where
  | wholeTrack
  | noBurst
  | traceController
  | traceTrackChange
deriving DecidableEq, Repr

/-- The names of options; an option may have two. -/
def optionNames : List (String × OptionKey) :=
  [("config_file", .configFile), ("configfile", .configFile), ("image", .image),
    ("internal_image", .internalImage), ("volume", .volume), ("run_ticks", .runTicks),
    ("transport", .transport), ("serial_port", .serialPort)]

def switchNames : List (String × SwitchKey) :=
  [("whole_track", .wholeTrack), ("no_burst", .noBurst), ("trace_controller", .traceController),
    ("trace_track_change", .traceTrackChange)]

/-- An argument list that asks for nothing but a text, or one that is not in order. -/
inductive ArgumentError where
  | askedForText
  | invalid
deriving DecidableEq, Repr

/-- An argument as it is written. -/
inductive Word where
  /-- Two hyphens and a name, and perhaps a value. -/
  | long (name : String) (value : Option String)
  /-- One hyphen and letters, and perhaps what is put to the first letter. -/
  | short (letters : String) (value : Option String)
  /-- Two hyphens alone: only plain words follow. -/
  | stop
  | plain (text : String)
deriving DecidableEq, Repr

/-- A word with an equals sign that is written like a letter with its value. Only an ASCII letter can have
one, with or without the sign right behind it; after another character the word is a plain one. -/
def Word.ofLetter (c : Char) (rest : List Char) : Word :=
  if c.toNat < 128 then
    .short (String.singleton c) (some (String.ofList (if rest.head? = some '=' then rest.tail else rest)))
  else .plain (String.ofList ('-' :: c :: rest))

def Word.ofText (text : String) : Word :=
  match text.toList with
  | ['-', '-'] => .stop
  | '-' :: '-' :: rest =>
    match rest.dropWhile (· ≠ '=') with
    | [] => .long (String.ofList rest) none
    | _ :: value => .long (String.ofList (rest.takeWhile (· ≠ '='))) (some (String.ofList value))
  | '-' :: c :: rest =>
    if rest.contains '=' then .ofLetter c rest else .short (String.ofList (c :: rest)) none
  | _ => .plain text

/-- Whether a word asks for the help text or the version, whatever else there is. -/
def Word.asksForText : Word → Bool
  | .long "help" _ => true
  | .long "version" _ => true
  | .short "h" _ => true
  | .short "V" _ => true
  | _ => false

/-- Decimal digits, perhaps after a plus sign, below a bound. -/
def natural? (bound : Nat) (text : String) : Option Nat :=
  let digits := match text.toList with
    | '+' :: rest => rest
    | rest => rest
  if digits = [] || !digits.all Char.isDigit then none
  else
    let n := digits.foldl (fun n c => n * 10 + (c.toNat - 48)) 0
    if n < bound then some n else none

/-- Sets an option that is not set yet. -/
def setOption (line : CommandLine) (key : OptionKey) (value : String) : Option CommandLine :=
  match key with
  | .configFile => if line.configFile.isSome then none else some { line with configFile := some value }
  | .image => if line.image.isSome then none else some { line with image := some value }
  | .internalImage =>
    if line.internalImage.isSome then none else some { line with internalImage := some value }
  | .volume =>
    if line.volume.isSome then none
    else (natural? 256 value).map fun n => { line with volume := some (UInt8.ofNat n) }
  | .runTicks =>
    if line.runTicks.isSome then none
    else (natural? UInt64.size value).map fun n => { line with runTicks := some n }
  | .transport =>
    if line.transport.isSome then none
    else (TransportKind.ofAnyCase? value).map fun t => { line with transport := some t }
  | .serialPort => if line.serialPort.isSome then none else some { line with serialPort := some value }

/-- Turns on a switch that is not on yet. -/
def setSwitch (line : CommandLine) : SwitchKey → Option CommandLine
  | .wholeTrack => if line.wholeTrack then none else some { line with wholeTrack := true }
  | .noBurst => if line.noBurst then none else some { line with noBurst := true }
  | .traceController => if line.traceController then none else some { line with traceController := true }
  | .traceTrackChange =>
    if line.traceTrackChange then none else some { line with traceTrackChange := true }

/-- Reads words in turn. The value of an option must not look like an option itself. -/
def read (line : CommandLine) : List Word → Option CommandLine
  | [] => some line
  | [.stop] => some line
  | .long name (some value) :: rest =>
    match (optionNames.lookup name).bind fun key => setOption line key value with
    | some line => read line rest
    | none => none
  | .long name none :: rest =>
    match optionNames.lookup name with
    | some key =>
      match rest with
      | .plain value :: rest =>
        match setOption line key value with
        | some line => read line rest
        | none => none
      | _ => none
    | none =>
      match (switchNames.lookup name).bind (setSwitch line) with
      | some line => read line rest
      | none => none
  | _ => none

def beforeStop (words : List Word) : List Word := words.takeWhile (· ≠ .stop)

def ofArguments (arguments : List String) : Except ArgumentError CommandLine :=
  let words := arguments.map Word.ofText
  match read {} words with
  | some line => .ok line
  | none => if (beforeStop words).any Word.asksForText then .error .askedForText else .error .invalid

end Floppy.Settings
