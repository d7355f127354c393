import Floppy.Schedule.Clock
import Floppy.Schedule.Program

/-!
# The scheduler

Each pass runs every task in turn. A task that waits yields, and the other tasks run from inside it; a task
that is under way is never entered a second time. If the watchdog is not fed in time the machine records a
crash and reboots: the context starts over, and the tasks are new. What is still under way then runs on to
its end without a place in the new generation.
-/
namespace Floppy.Schedule

structure ScheduleSettings where
  /-- Ticks without a yield after which the watchdog fires. -/
  watchdogMax : UInt32 := 5000
  /-- Ticks for which a pass may yield before this is reported. -/
  yieldMax : Nat := 1000
  /-- How many yields may be under way inside one another. -/
  maxNesting : Nat := 8
deriving DecidableEq, Repr

/-- The active tasks are a bitmap of this many bits. -/
abbrev maxTasks : Nat := 32

structure TaskStats where
  name : String
  invocations : Nat := 0
  /-- Visits that found the task under way. -/
  skipped : Nat := 0
deriving DecidableEq, Repr

/-- The task is missing while it is under way. -/
structure Slot (C : Type) where
  task : Option (Routine C)
  stats : TaskStats

/-- Yields with the same tasks under way are counted, and reported at each power of two. -/
structure YieldLog where
  lastActive : UInt32 := 0
  count : Nat := 0
  nextReport : Nat := 0
deriving DecidableEq, Repr

def latestTick : Nat := UInt64.size - 1

structure Machine (C : Type) where
  settings : ScheduleSettings
  boot : C → Boot C
  context : C
  slots : Array (Slot C) := #[]
  /-- Bit `i` stands for the task of slot `i`. -/
  active : UInt32 := 0
  generation : Nat := 0
  /-- How many yields are under way. -/
  depth : Nat := 0
  clock : Clock
  crashLog : CrashLog := {}
  reboots : UInt32 := 0
  yieldLog : YieldLog := {}
  yieldDeadline : Nat := latestTick
  yieldTimeouts : Nat := 0
  nestingOverflows : Nat := 0
  log : Array LogEntry := #[]

namespace Machine
variable {C : Type}

def say (m : Machine C) (level : Level) (text : String) : Machine C :=
  { m with log := m.log.push ⟨level, text⟩ }

def bit (slot : Nat) : UInt32 := 1 <<< UInt32.ofNat slot

def isActive (m : Machine C) (slot : Nat) : Bool := m.active &&& bit slot ≠ 0

def view (m : Machine C) : View C := ⟨m.context, m.depth, m.active, m.generation, m.clock.now⟩

def update (m : Machine C) (change : C → Effect C) : Machine C :=
  let e := change m.context
  { m with context := e.context, clock := m.clock.tick e.ticks, log := m.log ++ e.log }

def tick (m : Machine C) (ticks : Nat) : Machine C := { m with clock := m.clock.tick ticks }

def feed (m : Machine C) : Machine C := { m with clock := m.clock.feed }

/-- Gives every task a slot, as far as there are any. -/
def install (m : Machine C) (tasks : List (Routine C)) : Machine C :=
  let m := if maxTasks < tasks.length then
      m.say .error ("Scheduler: " ++ toString tasks.length ++ " tasks registered, only " ++
        toString maxTasks ++ " will run")
    else m
  { m with
    slots := ((tasks.take maxTasks).map fun task =>
      { task := some task, stats := { name := task.name } : Slot C }).toArray
    active := 0 }

/-- Boots the context and installs the tasks that it asks for. -/
def restart (m : Machine C) : Machine C :=
  let b := m.boot m.context
  { m with context := b.context, log := m.log ++ b.log }.install b.tasks

def start (settings : ScheduleSettings) (context : C) (clock : Clock) (crashLog : CrashLog)
    (boot : C → Boot C) : Machine C :=
  ({ settings, boot, context, clock, crashLog : Machine C }).restart.feed

def activeNames (m : Machine C) : String :=
  ",".intercalate <| ((List.range m.slots.size).filter m.isActive).filterMap fun i =>
    m.slots[i]?.map (·.stats.name)

def rebootNow (m : Machine C) : Machine C :=
  let m := { m with generation := m.generation + 1, reboots := m.reboots + 1 }.restart
  { m with yieldLog := {}, yieldDeadline := latestTick }.feed.say .info
    ("Rebooted (" ++ toString m.reboots.toNat ++ ")")

/-- Leaves a record of the crash and reboots. -/
def crash (m : Machine C) (cause : CrashCause) : Machine C :=
  let r : CrashRecord :=
    ⟨m.clock.now, cause, m.activeNames, m.active, m.clock.elapsed⟩
  let (crashLog, log) := m.crashLog.record r
  { m with crashLog, log := m.log.push ⟨.error, r.text⟩ ++ log }.rebootNow

def reboot (m : Machine C) : Machine C := m.crash .requested

def countYield (m : Machine C) : Machine C :=
  let y := if m.yieldLog.lastActive = m.active then m.yieldLog else ⟨m.active, 0, 2⟩
  let count := y.count + 1
  if count = y.nextReport then
    { m with yieldLog := { y with count, nextReport := 2 * y.nextReport } }.say .debug
      ("Yield: " ++ Text.hexLower 2 m.active.toNat ++ " " ++ toString count)
  else { m with yieldLog := { y with count } }

/-- A pass that still yields after its time is reported, once. -/
def checkDeadline (m : Machine C) : Machine C :=
  if m.yieldDeadline < m.clock.now.toNat then
    { m with yieldTimeouts := m.yieldTimeouts + 1, yieldDeadline := latestTick }.say .warn
      ("Yield timeout: tasks [" ++ m.activeNames ++ "] still yielding after " ++
        toString m.settings.yieldMax ++ " ticks")
  else m

/-- Lets other tasks run, where `frame` runs them. A yield that is nested too deeply is refused, and does
not feed the watchdog. -/
def yieldWith (frame : Machine C → Machine C) (m : Machine C) : Bool × Machine C :=
  if m.clock.isExpired then (false, m.crash .watchdogTimeout)
  else if m.settings.maxNesting ≤ m.depth then
    (true, { m with nestingOverflows := m.nestingOverflows + 1 })
  else
    let inner := m.feed.countYield.checkDeadline
    let inner := frame { inner with depth := inner.depth + 1 }
    (inner.generation = m.generation, { inner with depth := inner.depth - 1 })

end Machine

/-- Runs a program on a machine, where `frame` runs the other tasks. -/
def Program.run {C : Type} (frame : Machine C → Machine C) : Program C → Machine C → Machine C
  | .done, m => m
  | .update change next, m => next.run frame (m.update change)
  | .look next, m => (next m.view).run frame m
  | .yield next, m => (next (m.yieldWith frame).1).run frame (m.yieldWith frame).2
  | .runOthers next, m => next.run frame (frame m)
  | .crash cause next, m => next.run frame (m.crash cause)

namespace Machine
variable {C : Type}

def modifySlot (m : Machine C) (i : Nat) (f : Slot C → Slot C) : Machine C :=
  { m with slots := m.slots.modify i f }

def enter (m : Machine C) (i : Nat) : Machine C :=
  { m.modifySlot i ({ · with task := none }) with active := m.active ||| bit i }

/-- Puts a task back. After a reboot its slot belongs to a new task, and the old one is dropped. -/
def leave (m : Machine C) (i : Nat) (task : Routine C) (generation : Nat) : Machine C :=
  if m.generation = generation then
    { m.modifySlot i fun s =>
        { task := some task, stats := { s.stats with invocations := s.stats.invocations + 1 } } with
      active := m.active &&& ~~~ bit i }
  else m

/-- Runs the task of a slot, or skips it if it is under way. -/
def visit (frame : Machine C → Machine C) (m : Machine C) (i : Nat) : Machine C :=
  if m.isActive i then
    m.modifySlot i fun s => { s with stats := { s.stats with skipped := s.stats.skipped + 1 } }
  else
    match m.slots[i]?.bind (·.task) with
    | none => m
    | some task => (task.body.run frame (m.enter i)).leave i task m.generation

/-- Visits slots in turn, until a reboot. -/
def visitAll (frame : Machine C → Machine C) (generation : Nat) : List Nat → Machine C → Machine C
  | [], m => m
  | i :: rest, m =>
    if m.generation ≠ generation then m
    else if m.clock.isExpired then m.crash .watchdogTimeout
    else visitAll frame generation rest (m.visit frame i)

/-- Runs every task that is not under way. Frames inside one another are at most `room` in number. -/
def frame : Nat → Machine C → Machine C
  | 0, m => m
  | room + 1, m => visitAll (frame room) m.generation (List.range m.slots.size) m

/-- Room for frames that do not come from yields: one for each task, and as many again for each of a
great number of reboots under way. -/
def spareRoom : Nat := 1 <<< 20

/-- Enough room for all yields that are not refused. -/
def room (m : Machine C) : Nat := m.settings.maxNesting + spareRoom

def runOthers (m : Machine C) : Machine C := frame m.room m

def yield (m : Machine C) : Bool × Machine C := m.yieldWith runOthers

/-- One turn of the main loop. -/
def pass (m : Machine C) : Machine C :=
  if m.clock.isExpired then m.crash .watchdogTimeout
  else
    { m.feed with
      yieldDeadline := min (m.clock.now.toNat + m.settings.yieldMax) latestTick }.runOthers

def stats (m : Machine C) : List TaskStats := m.slots.toList.map (·.stats)

end Machine
end Floppy.Schedule
