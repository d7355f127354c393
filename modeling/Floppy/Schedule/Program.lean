import Floppy.Log
import Floppy.Schedule.CrashLog

/-!
# Task programs

What a task does in one run: a finite tree of changes to the shared context, of points where the other tasks
may run, and of crashes. The continuation of a yield learns whether the system is still the same.
-/
namespace Floppy.Schedule

/-- The result of a change to the context. Ticks may pass meanwhile. -/
structure Effect (C : Type) where
  context : C
  ticks : Nat := 0
  log : Log := []

/-- What a task can see. -/
structure View (C : Type) where
  context : C
  depth : Nat
  activeTasks : UInt32
  generation : Nat
  now : UInt64

inductive Program (C : Type) where
  | done
  | update (change : C → Effect C) (next : Program C)
  | look (next : View C → Program C)
  /-- Lets the other tasks run. The answer is false after a reboot. -/
  | yield (next : Bool → Program C)
  /-- Runs the other tasks without the rules for a yield. -/
  | runOthers (next : Program C)
  | crash (cause : CrashCause) (next : Program C)

namespace Program
variable {C : Type}

/-- A change that also gives a value to go on with. -/
def perform {α : Type} (change : C → α × Effect C) (next : α → Program C) : Program C :=
  .look fun view =>
    let change := change view.context
    .update (fun _ => change.2) (next change.1)

def inspect {α : Type} (f : C → α) (next : α → Program C) : Program C :=
  .look fun view => next (f view.context)

end Program

structure Routine (C : Type) where
  name : String
  body : Program C

/-- What booting makes of the context: the context to start with, and the tasks in the order of their
runs. -/
structure Boot (C : Type) where
  context : C
  tasks : List (Routine C)
  log : Log := []

end Floppy.Schedule
