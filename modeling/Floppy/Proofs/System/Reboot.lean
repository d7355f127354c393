import Floppy.Bench.Levers
import Floppy.Bench.Pipe
import Floppy.Proofs.Schedule.CrashRecords
import Floppy.Proofs.Schedule.Unwinding
import Floppy.System.Tasks

/-!
# Reboots of the disk system

The tasks of the disk system are docile: the fetch task alone yields, from inside of a write, and it gives up when it is
told of a reboot. Whatever the registers, the transport and storage do, a pass in which the system reboots therefore
ends with what booting has made of the state at the crash.
-/
namespace Floppy
open Schedule

section Waiting
variable {C δ : Type} [StorageDevice δ] [StorageContext C δ] {next : Except StorageError Unit → Program C}

theorem docile_awaitStorage (docile : ∀ result, (next result).Docile) (gives : next (.error .interrupted) = .done)
    (patience : ℕ) : (awaitStorage next patience).Docile := by
  induction patience with
  | zero => exact docile _
  | succ patience ih =>
    intro view
    dsimp only
    split
    · exact ⟨ih, gives⟩
    · exact docile _

theorem docile_writeRest (docile : ∀ result, (next result).Docile) (gives : next (.error .interrupted) = .done)
    (offset requested fuel written : ℕ) (data : List UInt8) :
    (writeRest offset requested next fuel written data).Docile := by
  induction fuel generalizing written data with
  | zero => exact docile _
  | succ fuel ih =>
    cases data with
    | nil => exact docile _
    | cons b rest =>
      rw [writeRest]
      apply docile_awaitStorage
      case gives => exact gives
      case docile =>
        rintro (_ | ⟨⟩)
        · exact docile _
        · intro view
          simp only [Program.Docile]
          split
          · exact docile _
          · exact ih _ _

theorem docile_writeWaiting {panic : Program C} (panics : panic.Docile) (docile : ∀ result, (next result).Docile)
    (gives : next (.error .interrupted) = .done) (offset : ℕ) (data : List UInt8) :
    (writeWaiting offset data panic next).Docile := by
  unfold writeWaiting
  split
  case h_1 => exact panics
  case h_2 =>
    intro view
    dsimp only
    split
    · exact docile _
    · exact docile_writeRest docile gives _ _ _ _ _

end Waiting

namespace DiskSystem
variable {ρ τ δ : Type} [StorageDevice δ]

theorem docile_mirror (patience : ℕ) : (mirror patience : Program (DiskSystem ρ τ δ)).Docile := by
  induction patience with
  | zero => trivial
  | succ patience ih =>
    intro view
    simp only [Program.Docile]
    split
    · trivial
    · have quiet : (Program.done : Program (DiskSystem ρ τ δ)).Docile := trivial
      refine docile_writeWaiting quiet (fun result => ?_) rfl _ _
      rcases result with (_ | _ | _ | _) | _
      case error.interrupted => trivial
      all_goals exact ih

variable [Registers ρ] [Transport τ]

theorem docile_tasks : ∀ task ∈ (tasks : List (Routine (DiskSystem ρ τ δ))), task.body.Docile := by
  intro task mem
  simp only [tasks, List.mem_cons, List.not_mem_nil, or_false] at mem
  rcases mem with rfl | rfl | rfl | rfl
  · trivial
  · exact docile_mirror mirrorPatience
  · trivial
  · trivial

/-- Each boot of the system makes the same tasks. -/
structure Manned (s : State (DiskSystem ρ τ δ)) : Prop where
  boot : s.machine.boot = boot
  roster : s.roster = tasks

theorem Manned.step {s s' : State (DiskSystem ρ τ δ)} (h : Manned s) (step : Schedule.Step s s') : Manned s' := by
  obtain ⟨boot, -, roster⟩ := step.kept
  refine ⟨boot.trans h.boot, ?_⟩
  rcases roster with same | rebooted
  · exact same.trans h.roster
  · rw [rebooted, Machine.registered, h.boot]
    rfl

theorem Manned.steps {s s' : State (DiskSystem ρ τ δ)} (h : Manned s) (steps : Steps s s') : Manned s' := by
  induction steps with
  | refl => exact h
  | tail _ last ih => exact ih.step last

/-- The launched system, before its first pass. -/
def launched (system : DiskSystem ρ τ δ) (crashLog : CrashLog) : State (DiskSystem ρ τ δ) :=
  ⟨system.launch crashLog, tasks, .resting⟩

theorem launch_eq (system : DiskSystem ρ τ δ) (crashLog : CrashLog) :
    ∃ log, system.launch crashLog =
      { Machine.start system.settings.schedule system { watchdogMax := system.settings.schedule.watchdogMax } crashLog
          boot with log } :=
  ⟨_, rfl⟩

theorem tame_launched (system : DiskSystem ρ τ δ) (crashLog : CrashLog) :
    Tame system.settings.schedule.maxNesting (system.launched crashLog) := by
  obtain ⟨log, launched⟩ := system.launch_eq crashLog
  rw [DiskSystem.launched, launched]
  exact (Tame.start _ system _ crashLog boot fun _ => docile_tasks).congr ⟨rfl, rfl, rfl, rfl, rfl⟩ rfl

theorem manned_launched (system : DiskSystem ρ τ δ) (crashLog : CrashLog) : Manned (system.launched crashLog) := by
  refine ⟨?_, rfl⟩
  obtain ⟨_, launched⟩ := system.launch_eq crashLog
  obtain ⟨_, _, started⟩ := Machine.start_eq system.settings.schedule system
    { watchdogMax := system.settings.schedule.watchdogMax } crashLog boot
  rw [DiskSystem.launched, launched, started]

/-- The crash that ends the present generation in a pass, and what has become of the machine after the pass. -/
structure Unwound (m : Machine (DiskSystem ρ τ δ)) (s : State (DiskSystem ρ τ δ)) : Prop where
  reached : InnerSteps ⟨m, tasks, .resting⟩ s
  reboots : ∃ s', Schedule.Step s s' ∧ s'.machine = s.machine.crash .watchdogTimeout
  before : s.machine.generation = m.generation ∧ s.machine.crashLog = m.crashLog
  after : m.pass = { s.machine.crash .watchdogTimeout with depth := 0 }
  generation : m.pass.generation = m.generation + 1
  record : m.crashLog.Gains
    [⟨s.machine.clock.now, .watchdogTimeout, s.machine.activeNames, s.machine.active, s.machine.clock.elapsed⟩]
    m.pass.crashLog
  mask : ∀ i, s.machine.active.toNat.testBit i = true ↔ ∃ a ∈ s.control.underWay, a.slot = i
  names : ∃ tasks : List (Activation (DiskSystem ρ τ δ)), tasks.Perm s.control.underWay ∧
    tasks.Pairwise (·.slot < ·.slot) ∧ s.machine.activeNames = ",".intercalate (tasks.map (·.task.name))
  context : m.pass.context = s.machine.context.reinit.context
  stats : m.pass.stats = (tasks : List (Routine (DiskSystem ρ τ δ))).map fun task => { name := task.name }
  idle : m.pass.depth = 0 ∧ m.pass.active = 0

/-- A pass keeps the generation and the crash log, or there is one crash in it. This leaves one record, of the tasks that
were under way, and after the pass the system is as booting has made it. -/
theorem reboot_unwinds (system : DiskSystem ρ τ δ) (crashLog : CrashLog) (turns : List (Turn (DiskSystem ρ τ δ))) :
    let m := (system.launch crashLog).turns turns
    (m.pass.generation = m.generation ∧ m.pass.crashLog = m.crashLog) ∨ ∃ s, Unwound m s := by
  intro m
  have launched := system.tame_launched crashLog
  obtain ⟨roster, steps⟩ := launched.fair.steps_turns turns
  obtain rfl : roster = tasks := ((system.manned_launched crashLog).steps steps).roster
  have tame := launched.steps steps
  rcases tame.pass with kept | ⟨s, barks, after⟩
  · exact .inl kept
  · have boots : s.machine.boot = boot :=
      ((system.manned_launched crashLog).steps (steps.trans (steps_of_inner barks.reached))).boot
    obtain ⟨_, crashed⟩ := s.machine.crash_eq .watchdogTimeout
    refine .inr ⟨s, barks.reached, barks.reboots, ⟨barks.calm.generation, barks.calm.crashLog⟩, after, ?_, ?_,
      barks.testBit_iff tame, barks.exists_sorted tame, ?_, ?_, ?_⟩ <;> rw [after, crashed]
    · exact congrArg Nat.succ barks.calm.generation
    · rw [← barks.calm.crashLog]
      exact .record _ _
    · rw [boots]
      rfl
    · rw [Machine.registered, boots]
      rfl
    · exact ⟨rfl, rfl⟩

/-- Each poll takes longer than the watchdog waits, so that no pass comes to the second task. -/
example :
    let system := DiskSystem.new {} {} ({ tick := 5001 } : Bench.Levers) ({} : Bench.Pipe) (Flash.erased 0 1 0)
    let m := (system.launch {}).turns [.pass, .pass]
    m.generation = 2 ∧ m.stats.map (·.invocations) = [0, 0, 0, 0] := by
  decide +kernel

end DiskSystem
end Floppy
