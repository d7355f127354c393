import Floppy.Proofs.Schedule.Reentry

/-!
# What a system does by itself

Of all steps the changes between two passes come from outside; the others are moves of the system. What surrounds the
system may change parts of the context whenever no task is in the middle of its program, and it may ask for a reboot
between two passes. Here too is what a move keeps of the programs: those that are still to be run are of the kind that
the system was booted with.
-/
namespace Floppy.Schedule
variable {C : Type}

/-- A system among its surroundings. They do not disturb a task in the middle of its program. -/
inductive Happens (ambient : C → C → Prop) : State C → State C → Prop
  | move {s s' : State C} (moves : Moves s s') : Happens ambient s s'
  | disturb {m : Machine C} {roster : List (Routine C)} {control : Control C} (change : C → Effect C)
      (allowed : ambient m.context (change m.context).context) (between : ∀ a p waiting, control ≠ .running a p waiting) :
      Happens ambient ⟨m, roster, control⟩ ⟨m.update change, roster, control⟩
  /-- Between two passes a reboot may be asked for. -/
  | reboot {m : Machine C} {roster : List (Routine C)} (cause : CrashCause) :
      Happens ambient ⟨m, roster, .resting⟩ ⟨m.crash cause, m.registered, .resting⟩

namespace Fair
variable {limit : ℕ}

theorem reboot {m : Machine C} {roster : List (Routine C)} (h : Fair limit ⟨m, roster, .resting⟩) (cause : CrashCause) :
    Fair limit ⟨m.crash cause, m.registered, .resting⟩ := by
  have rebooted := m.rebooted_crash cause
  refine ⟨h.sound.reboot rebooted rfl rfl, ?_, ?_, fun task mem => h.boot _ task (List.mem_of_mem_take mem)⟩
  · exact (congrArg ScheduleSettings.maxNesting rebooted.settings).trans h.settings
  · rw [rebooted.boot]
    exact h.boot

theorem happens {ambient : C → C → Prop} {s s' : State C} (h : Fair limit s) (happens : Happens ambient s s') :
    Fair limit s' := by
  cases happens with
  | move moves => exact h.step moves.1
  | disturb change => exact h.congr (.update _ change) rfl
  | reboot cause => exact h.reboot cause

/-- What moves and the changes between the passes keep holds after the turns of the main loop. -/
theorem turns_induction {P : State C → Prop} {turns : List (Turn C)} {m : Machine C} {roster : List (Routine C)}
    (fair : Fair limit ⟨m, roster, .resting⟩) (now : P ⟨m, roster, .resting⟩)
    (moves : ∀ s s', P s → Moves s s' → P s')
    (changes : ∀ m roster change, .change change ∈ turns → P ⟨m, roster, .resting⟩ →
      P ⟨m.update change, roster, .resting⟩) :
    ∃ roster', P ⟨m.turns turns, roster', .resting⟩ := by
  have inside {s s' : State C} (path : InnerSteps s s') (holds : P s) : P s' := by
    induction path with
    | refl => exact holds
    | tail _ last ih => exact moves _ _ ih last.moves
  induction turns generalizing m roster with
  | nil => exact ⟨roster, now⟩
  | cons turn turns ih =>
    have later := fun m roster change mem => changes m roster change (List.mem_cons_of_mem turn mem)
    cases turn with
    | change change =>
      exact ih (fair.congr (.update m change) rfl) (changes m roster change List.mem_cons_self now) later
    | pass =>
      rcases pass_cases fair with ⟨expired, crashed⟩ | ⟨fed, visits, roster', path⟩
      · have late : Step ⟨m, roster, .resting⟩ ⟨m.pass, m.registered, .resting⟩ := crashed ▸ .late expired
        have rebooted : m.pass.generation ≠ m.generation := by
          rw [crashed, (m.rebooted_crash _).generation]
          exact Nat.succ_ne_self _
        exact ih (fair.step late) (moves _ _ now ⟨late, fun _ _ => rebooted⟩) later
      · have entered : Step ⟨m, roster, .resting⟩ ⟨m.opened, roster, .visiting m.opened.round []⟩ := .pass fed
        have ended : Step ⟨m.pass, roster', .visiting ⟨m.generation, visits, []⟩ []⟩ ⟨m.pass, roster', .resting⟩ := .rest
        have fairly := ((fair.step entered).steps (steps_of_inner path)).step ended
        have holds := inside path (moves _ _ now ⟨entered, fun _ => nofun⟩)
        exact ih fairly (moves _ _ holds ⟨ended, nofun⟩) later

end Fair

/-- A kind of programs to which whatever is left of them belongs as well. -/
structure Program.Hereditary (P : Program C → Prop) : Prop where
  update : ∀ {change : C → Effect C} {next : Program C}, P (.update change next) → P next
  look : ∀ {next : View C → Program C}, P (.look next) → ∀ view, P (next view)
  yield : ∀ {next : Bool → Program C}, P (.yield next) → ∀ same, P (next same)
  crash : ∀ {cause : CrashCause} {next : Program C}, P (.crash cause next) → P next

/-- All programs in a state, and all that it boots, are of a kind. -/
structure State.Only (P : Program C → Prop) (s : State C) : Prop where
  boot : ∀ context, ∀ task ∈ (s.machine.boot context).tasks, P task.body
  roster : ∀ task ∈ s.roster, P task.body
  current : ∀ a p waiting, s.control = .running a p waiting → P p
  waiting : ∀ w ∈ s.control.waiting, P (.yield w.next)

namespace State.Only
variable {P : Program C → Prop} {s s' : State C}

theorem step (h : s.Only P) (kind : Program.Hereditary P) (sound : Sound s) (step : Step s s') : s'.Only P := by
  obtain ⟨boot, -, roster⟩ := step.kept
  have tasks : ∀ task ∈ s'.roster, P task.body := by
    rcases roster with same | rebooted
    · exact same ▸ h.roster
    · rw [rebooted]
      exact fun task mem => h.boot _ task (List.mem_of_mem_take mem)
  refine ⟨boot ▸ h.boot, tasks, ?_, ?_⟩
  · intro a p waiting running
    cases step with
    | enter fed idle ready =>
      obtain ⟨-, rfl, -⟩ := Control.running.inj running
      exact h.roster _ (List.mem_of_getElem? (sound.booked.of_ready ready).2)
    | update =>
      obtain ⟨-, rfl, -⟩ := Control.running.inj running
      exact kind.update (h.current _ _ _ rfl)
    | look =>
      obtain ⟨-, rfl, -⟩ := Control.running.inj running
      exact kind.look (h.current _ _ _ rfl) _
    | crash =>
      obtain ⟨-, rfl, -⟩ := Control.running.inj running
      exact kind.crash (h.current _ _ _ rfl)
    | bark | refuse =>
      obtain ⟨-, rfl, -⟩ := Control.running.inj running
      exact kind.yield (h.current _ _ _ rfl) _
    | resume =>
      obtain ⟨-, rfl, -⟩ := Control.running.inj running
      exact kind.yield (h.waiting _ List.mem_cons_self) _
    | _ => cases running
  · cases step with
    | yield => exact List.forall_mem_cons.mpr ⟨h.current _ _ _ rfl, h.waiting⟩
    | resume => exact fun w mem => h.waiting w (List.mem_cons_of_mem _ mem)
    | _ => exact h.waiting

theorem congr {m m' : Machine C} {roster : List (Routine C)} {control : Control C}
    (h : State.Only P ⟨m, roster, control⟩) (boot : m'.boot = m.boot) : State.Only P ⟨m', roster, control⟩ :=
  ⟨boot ▸ h.boot, h.roster, h.current, h.waiting⟩

theorem reboot {m : Machine C} {roster : List (Routine C)} (h : State.Only P ⟨m, roster, .resting⟩) (cause : CrashCause) :
    State.Only P ⟨m.crash cause, m.registered, .resting⟩ := by
  refine ⟨?_, fun task mem => h.boot _ task (List.mem_of_mem_take mem), nofun, nofun⟩
  rw [(m.rebooted_crash cause).boot]
  exact h.boot

theorem happens {ambient : C → C → Prop} (h : s.Only P) (kind : Program.Hereditary P) (sound : Sound s)
    (happens : Happens ambient s s') : s'.Only P := by
  cases happens with
  | move moves => exact h.step kind sound moves.1
  | disturb change => exact h.congr rfl
  | reboot cause => exact h.reboot cause

theorem start {settings : ScheduleSettings} {context : C} {clock : Clock} {crashLog : CrashLog} {boot : C → Boot C}
    (tasks : ∀ context, ∀ task ∈ (boot context).tasks, P task.body) :
    (State.start settings context clock crashLog boot).Only P := by
  obtain ⟨_, _, started⟩ := Machine.start_eq settings context clock crashLog boot
  refine ⟨?_, fun task mem => tasks context task (List.mem_of_mem_take mem), nofun, nofun⟩
  rw [State.start, started]
  exact tasks

end State.Only
end Floppy.Schedule
