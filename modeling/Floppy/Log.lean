/-!
# Log lines

Operations that have something to report return it as a list of entries, in the order of events.
-/
namespace Floppy

inductive Level where
  | error
  | warn
  | info
  | debug
  | trace
deriving DecidableEq, Repr

def Level.name : Level → String
  | error => "ERROR"
  | warn => "WARN"
  | info => "INFO"
  | debug => "DEBUG"
  | trace => "TRACE"

structure LogEntry where
  level : Level
  text : String
deriving DecidableEq, Repr

abbrev Log := List LogEntry

def LogEntry.line (entry : LogEntry) : String := entry.level.name ++ " " ++ entry.text

end Floppy
