import Floppy.Schedule.Machine
import Mathlib.Logic.Relation
import Mathlib.Tactic

/-!
# The scheduler step by step

A machine runs its tasks from inside one another. Here the same is told one step at a time, with the tasks that
are under way on a stack: each is in a frame that visits the slots in turn, and all but the innermost wait in a
yield. The steps are those of tasks that let others run by yielding alone.
-/
namespace Floppy.Schedule

/-- The program never runs the other tasks but by yielding. -/
def Program.Cooperative {C : Type} : Program C → Prop
  | .done => True
  | .update _ next => next.Cooperative
  | .look next => ∀ view, (next view).Cooperative
  | .yield next => ∀ same, (next same).Cooperative
  | .runOthers _ => False
  | .crash _ next => next.Cooperative

/-- What became of a slot in a frame. -/
inductive Visit (C : Type) where
  | run (slot : ℕ) (task : Routine C)
  | skip (slot : ℕ)

/-- A frame: the slots that it has visited in the generation it was begun in, and those that are left. -/
structure Round (C : Type) where
  generation : ℕ
  visits : List (Visit C) := []
  left : List ℕ

/-- A task under way, with the frame that runs it. -/
structure Activation (C : Type) where
  slot : ℕ
  task : Routine C
  round : Round C

/-- A task that waits in a yield, since a generation. -/
structure Waiter (C : Type) extends Activation C where
  since : ℕ
  next : Bool → Program C

/-- Each slot has a task of its own in each generation. -/
def Activation.place {C : Type} (a : Activation C) : ℕ × ℕ := (a.round.generation, a.slot)

/-- Between two passes, between two visits of a frame, or in the middle of a program. The task that yielded last
comes first. -/
inductive Control (C : Type) where
  | resting
  | visiting (round : Round C) (waiting : List (Waiter C))
  | running (task : Activation C) (program : Program C) (waiting : List (Waiter C))

namespace Control
variable {C : Type}

def waiting : Control C → List (Waiter C)
  | resting => []
  | visiting _ waiting => waiting
  | running _ _ waiting => waiting

/-- The tasks under way, innermost first. -/
def underWay : Control C → List (Activation C)
  | resting => []
  | visiting _ waiting => waiting.map Waiter.toActivation
  | running task _ waiting => task :: waiting.map Waiter.toActivation

end Control

structure State (C : Type) where
  machine : Machine C
  /-- The tasks of this generation, in the order of their registration. -/
  roster : List (Routine C)
  control : Control C := .resting

namespace Machine
variable {C : Type}

def registered (m : Machine C) : List (Routine C) := (m.boot m.context).tasks.take maxTasks

def round (m : Machine C) : Round C := { generation := m.generation, left := List.range m.slots.size }

/-- The machine as the frame of a pass finds it. -/
def opened (m : Machine C) : Machine C :=
  { m.feed with yieldDeadline := min (m.clock.now.toNat + m.settings.yieldMax) latestTick }

/-- The machine as the frame of a yield finds it. -/
def deepened (m : Machine C) : Machine C :=
  let m := m.feed.countYield.checkDeadline
  { m with depth := m.depth + 1 }

def refuse (m : Machine C) : Machine C := { m with nestingOverflows := m.nestingOverflows + 1 }

def surface (m : Machine C) : Machine C := { m with depth := m.depth - 1 }

def skip (m : Machine C) (i : ℕ) : Machine C :=
  m.modifySlot i fun s => { s with stats := { s.stats with skipped := s.stats.skipped + 1 } }

end Machine

open Control in
/-- One step. -/
inductive Step {C : Type} : State C → State C → Prop
  /-- Between the passes the timer ticks, and the context may change. -/
  | change {m : Machine C} {roster : List (Routine C)} (change : C → Effect C) :
      Step ⟨m, roster, resting⟩ ⟨m.update change, roster, resting⟩
  /-- A pass finds that the watchdog was not fed in time. -/
  | late {m : Machine C} {roster : List (Routine C)} (expired : m.clock.isExpired = true) :
      Step ⟨m, roster, resting⟩ ⟨m.crash .watchdogTimeout, m.registered, resting⟩
  | pass {m : Machine C} {roster : List (Routine C)} (fed : m.clock.isExpired = false) :
      Step ⟨m, roster, resting⟩ ⟨m.opened, roster, visiting m.opened.round []⟩
  /-- After a reboot the rest of a frame is dropped. -/
  | cut {m : Machine C} {roster : List (Routine C)} {generation i : ℕ} {visits : List (Visit C)} {left : List ℕ}
      {waiting : List (Waiter C)} (rebooted : m.generation ≠ generation) :
      Step ⟨m, roster, visiting ⟨generation, visits, i :: left⟩ waiting⟩
        ⟨m, roster, visiting ⟨generation, visits, []⟩ waiting⟩
  | starve {m : Machine C} {roster : List (Routine C)} {i : ℕ} {visits : List (Visit C)} {left : List ℕ}
      {waiting : List (Waiter C)} (expired : m.clock.isExpired = true) :
      Step ⟨m, roster, visiting ⟨m.generation, visits, i :: left⟩ waiting⟩
        ⟨m.crash .watchdogTimeout, m.registered, visiting ⟨m.generation, visits, []⟩ waiting⟩
  | skip {m : Machine C} {roster : List (Routine C)} {i : ℕ} {visits : List (Visit C)} {left : List ℕ}
      {waiting : List (Waiter C)} (fed : m.clock.isExpired = false) (active : m.isActive i = true) :
      Step ⟨m, roster, visiting ⟨m.generation, visits, i :: left⟩ waiting⟩
        ⟨m.skip i, roster, visiting ⟨m.generation, visits ++ [.skip i], left⟩ waiting⟩
  /-- A slot without a task whose bit is not set is passed by. -/
  | vacant {m : Machine C} {roster : List (Routine C)} {i : ℕ} {visits : List (Visit C)} {left : List ℕ}
      {waiting : List (Waiter C)} (fed : m.clock.isExpired = false) (idle : m.isActive i = false)
      (empty : m.slots[i]?.bind (·.task) = none) :
      Step ⟨m, roster, visiting ⟨m.generation, visits, i :: left⟩ waiting⟩
        ⟨m, roster, visiting ⟨m.generation, visits, left⟩ waiting⟩
  | enter {m : Machine C} {roster : List (Routine C)} {i : ℕ} {visits : List (Visit C)} {left : List ℕ}
      {waiting : List (Waiter C)} {task : Routine C} (fed : m.clock.isExpired = false)
      (idle : m.isActive i = false) (ready : m.slots[i]?.bind (·.task) = some task) :
      Step ⟨m, roster, visiting ⟨m.generation, visits, i :: left⟩ waiting⟩
        ⟨m.enter i, roster, running ⟨i, task, ⟨m.generation, visits ++ [.run i task], left⟩⟩ task.body waiting⟩
  | update {m : Machine C} {roster : List (Routine C)} {a : Activation C} {waiting : List (Waiter C)}
      {change : C → Effect C} {next : Program C} :
      Step ⟨m, roster, running a (.update change next) waiting⟩ ⟨m.update change, roster, running a next waiting⟩
  | look {m : Machine C} {roster : List (Routine C)} {a : Activation C} {waiting : List (Waiter C)}
      {next : View C → Program C} :
      Step ⟨m, roster, running a (.look next) waiting⟩ ⟨m, roster, running a (next m.view) waiting⟩
  | crash {m : Machine C} {roster : List (Routine C)} {a : Activation C} {waiting : List (Waiter C)}
      {cause : CrashCause} {next : Program C} :
      Step ⟨m, roster, running a (.crash cause next) waiting⟩
        ⟨m.crash cause, m.registered, running a next waiting⟩
  /-- A yield finds that the watchdog was not fed in time. -/
  | bark {m : Machine C} {roster : List (Routine C)} {a : Activation C} {waiting : List (Waiter C)}
      {next : Bool → Program C} (expired : m.clock.isExpired = true) :
      Step ⟨m, roster, running a (.yield next) waiting⟩
        ⟨m.crash .watchdogTimeout, m.registered, running a (next false) waiting⟩
  | refuse {m : Machine C} {roster : List (Routine C)} {a : Activation C} {waiting : List (Waiter C)}
      {next : Bool → Program C} (fed : m.clock.isExpired = false) (deep : m.settings.maxNesting ≤ m.depth) :
      Step ⟨m, roster, running a (.yield next) waiting⟩ ⟨m.refuse, roster, running a (next true) waiting⟩
  | yield {m : Machine C} {roster : List (Routine C)} {a : Activation C} {waiting : List (Waiter C)}
      {next : Bool → Program C} (fed : m.clock.isExpired = false) (room : m.depth < m.settings.maxNesting) :
      Step ⟨m, roster, running a (.yield next) waiting⟩
        ⟨m.deepened, roster, visiting m.deepened.round (⟨a, m.generation, next⟩ :: waiting)⟩
  /-- The innermost frame is at its end, and the task that yielded goes on. -/
  | resume {m : Machine C} {roster : List (Routine C)} {generation : ℕ} {visits : List (Visit C)} {w : Waiter C}
      {waiting : List (Waiter C)} :
      Step ⟨m, roster, visiting ⟨generation, visits, []⟩ (w :: waiting)⟩
        ⟨m.surface, roster, running w.toActivation (w.next (m.generation = w.since)) waiting⟩
  | leave {m : Machine C} {roster : List (Routine C)} {a : Activation C} {waiting : List (Waiter C)} :
      Step ⟨m, roster, running a .done waiting⟩
        ⟨m.leave a.slot a.task a.round.generation, roster, visiting a.round waiting⟩
  /-- The frame of the pass is at its end. -/
  | rest {m : Machine C} {roster : List (Routine C)} {generation : ℕ} {visits : List (Visit C)} :
      Step ⟨m, roster, visiting ⟨generation, visits, []⟩ []⟩ ⟨m, roster, resting⟩

end Floppy.Schedule
