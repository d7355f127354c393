import Floppy.Bench.Fenced
import Floppy.Storage.Waiting

/-!
# Chores

Small task programs over a scene that keeps a counter, a storage device and a record of what the tasks said.
They exercise the scheduler.
-/
namespace Floppy.Bench
open Schedule

structure Scene where
  record : Array String := #[]
  counter : Int := 0
  boots : Nat := 0
  /-- A task has panicked, and with it all that runs. -/
  panicked : Bool := false
  device : Fenced

instance : StorageContext Scene Fenced where
  storage := Scene.device
  setStorage scene device := { scene with device }

/-- What a chore does. -/
inductive Deed where
  | say (text : String)
  | add (amount : Int)
  | tick (ticks : Nat)
  /-- Yields so many times. Unless it is to be ignored, a reboot ends the chore. -/
  | yield (times : Nat) (ignore : Bool)
  /-- Waits for the counter, with some ticks in each turn, for a limited number of turns. -/
  | wait (count : Int) (turns ticks : Nat)
  | runOthers
  | crash (cause : CrashCause)
  | service
  | write (offset : Nat) (data : List UInt8)
  /-- Says how the scheduler looks. -/
  | look
  | stop

/-- A deed that is done only while the counter lies in a range. -/
structure Step where
  below : Option Int := none
  least : Option Int := none
  deed : Deed

namespace Deed

def note (text : String) (next : Program Scene) : Program Scene :=
  .update (fun s => { context := { s with record := s.record.push text } }) next

def panic : Program Scene := .update (fun s => { context := { s with panicked := true } }) .done

def yields (name : String) (ignore : Bool) (next : Program Scene) : Nat → Program Scene
  | 0 => next
  | times + 1 => .yield fun same =>
    note (name ++ ":yield=" ++ Text.word same)
      (if same || ignore then yields name ignore next times else .done)

def waits (name : String) (count : Int) (ticks : Nat) (next : Program Scene) : Nat → Program Scene
  | 0 => next
  | turns + 1 => .inspect (fun s : Scene => s.counter) fun counter =>
    if count ≤ counter then note (name ++ ":waited") next
    else .update (fun s => { context := s, ticks }) (.yield fun same =>
      if same then waits name count ticks next turns else note (name ++ ":gave up") .done)

def viewText (view : View Scene) : String :=
  "depth=" ++ toString view.depth ++ " active=" ++ Text.hexLower 1 view.activeTasks.toNat ++ " gen=" ++
    toString view.generation ++ " now=" ++ toString view.now.toNat

/-- The program of a deed of a named task. -/
def program (name : String) (next : Program Scene) : Deed → Program Scene
  | say text => note (name ++ ":" ++ text) next
  | add amount => .update (fun s => { context := { s with counter := s.counter + amount } }) next
  | tick ticks => .update (fun s => { context := s, ticks }) next
  | yield times ignore => yields name ignore next times
  | wait count turns ticks => waits name count ticks next turns
  | runOthers => .runOthers next
  | crash cause => .crash cause next
  | service => .update (fun s => { context := { s with device := s.device.service } }) next
  | write offset data => writeWaiting offset data panic fun
    | .ok () => note (name ++ ":written") next
    | .error e => note (name ++ ":" ++ e.message) next
  | look => .look fun view => note (name ++ ":" ++ viewText view) next
  | stop => .done

end Deed

/-- The program of a task that takes its steps in turn. -/
def chore (name : String) : List Step → Program Scene
  | [] => .done
  | step :: rest => .inspect (fun s : Scene => s.counter) fun counter =>
    if step.below.any (· ≤ counter) || step.least.any (counter < ·) then chore name rest
    else step.deed.program name (chore name rest)

/-- How a scene boots: with some tasks the first time, and with others later. -/
def Scene.boot (first later : List (Routine Scene)) (keepCounter : Bool) (scene : Scene) : Boot Scene where
  context := { scene with
    boots := scene.boots + 1
    counter := if keepCounter then scene.counter else 0
    record := scene.record.push "boot" }
  tasks := if scene.boots = 0 then first else later

end Floppy.Bench
