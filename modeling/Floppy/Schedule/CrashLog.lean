import Floppy.History
import Floppy.Log
import Floppy.Text.Field
import Floppy.Text.Lines

/-!
# The crash log

Every crash leaves a record. The latest ones are kept in memory; each is also appended, as a line, to a
store that outlives the run.
-/
namespace Floppy.Schedule

inductive CrashCause where
  | watchdogTimeout
  | requested
deriving DecidableEq, Repr

def CrashCause.text : CrashCause → String
  | watchdogTimeout => "Watchdog timeout"
  | requested => "Reboot requested"

structure CrashRecord where
  tick : UInt64
  cause : CrashCause
  /-- The names of the tasks that were running. -/
  location : String
  activeTasks : UInt32
  watchdog : UInt32
deriving DecidableEq, Repr

def CrashRecord.text (r : CrashRecord) : String :=
  toString r.tick.toNat ++ " " ++ r.cause.text ++ " in [" ++ r.location ++ "] active " ++
    Text.hexLower 2 r.activeTasks.toNat ++ " wd " ++ toString r.watchdog.toNat

/-- Where lines are kept: in memory, latest first, in a file that may not exist yet, or in a place that takes
none. -/
inductive CrashStore where
  | memory (lines : List String)
  | file (content : Option (List UInt8))
  | closed (loaded : Except String (List String)) (cause : String)

namespace CrashStore

/-- The store with one more line, and what goes wrong. -/
def append (store : CrashStore) (line : String) : CrashStore × Option String :=
  match store with
  | memory lines => (memory (line :: lines), none)
  | file content => (file (some (content.getD [] ++ line.toUTF8.toList ++ [10])), none)
  | closed loaded cause => (closed loaded cause, some cause)

def load : CrashStore → Except String (List String)
  | memory lines => .ok lines.reverse
  | file none => .ok []
  | file (some content) => Text.lines content
  | closed loaded _ => loaded

end CrashStore

structure CrashLog where
  records : History CrashRecord := { capacity := 16 }
  /-- The lines that the store held from earlier runs. -/
  previous : List String := []
  store : CrashStore := .memory []

namespace CrashLog

def reopen (store : CrashStore) : CrashLog × Log :=
  match store.load with
  | .ok previous => ({ previous, store }, [])
  | .error cause => ({ store }, [⟨.error, "Couldn't load crash log: " ++ cause⟩])

def record (log : CrashLog) (r : CrashRecord) : CrashLog × Log :=
  let (store, trouble) := log.store.append r.text
  ({ log with store, records := log.records.push r },
    match trouble with
    | none => []
    | some cause => [⟨.error, "Couldn't persist crash record: " ++ cause⟩])

def dump (log : CrashLog) : List String := log.previous ++ log.records.entries.map CrashRecord.text

end CrashLog
end Floppy.Schedule
