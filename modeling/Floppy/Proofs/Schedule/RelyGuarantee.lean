import Floppy.Proofs.Schedule.Unwinding

/-!
# How tasks get on with one another

Tasks share the context, and a task that yields finds it changed. A conduct says what each task may do, and what it
puts up with while it waits; a program upholds it if it keeps to the first, relying on no more than the second. As no
task is entered a second time, nothing that a waiting task finds changed was done by itself, and so a system of programs
that uphold a conduct never leaves it, however they are run from inside one another. A record of all changes makes it
possible to speak of what was done before.
-/
namespace Floppy.Schedule
variable {C : Type}

/-- The changes of the context that tasks have made, oldest first. -/
abbrev Deeds (C : Type) := List (C × C)

/-- The change that a task makes here. -/
def State.deed (s s' : State C) : Deeds C :=
  match s.control with
  | .running _ (.update _ _) _ => [(s.machine.context, s'.machine.context)]
  | _ => []

/-- What has happened, with the deeds of the tasks. -/
inductive Chronicle (ambient : C → C → Prop) (start : State C) : Deeds C → State C → Prop
  | nil : Chronicle ambient start [] start
  | snoc {deeds : Deeds C} {s s' : State C} (before : Chronicle ambient start deeds s) (happens : Happens ambient s s') :
      Chronicle ambient start (deeds ++ s.deed s') s'

structure Conduct (C : Type) where
  always : C → Prop
  /-- What holds besides whenever no task is in the middle of its program. -/
  calm : C → Prop
  /-- What the task of a slot may do, after what was done before. -/
  may : ℕ → Deeds C → C → C → Prop
  /-- What the task of a slot puts up with while it waits. -/
  bears : ℕ → C → C → Prop
  /-- What the surroundings may do. -/
  ambient : C → C → Prop

/-- From this context on the program keeps to the conduct, as the task of a slot. -/
def Program.Upholds (k : Conduct C) (slot : ℕ) : Program C → Deeds C → C → Prop
  | .done, _, c => k.calm c
  | .update change next, deeds, c =>
    k.may slot deeds c (change c).context ∧
      next.Upholds k slot (deeds ++ [(c, (change c).context)]) (change c).context
  | .look next, deeds, c => ∀ view : View C, view.context = c → (next view).Upholds k slot deeds c
  | .yield next, deeds, c =>
    k.calm c ∧ ∀ later c', deeds <+: later → k.bears slot c c' → k.calm c' → (next true).Upholds k slot later c'
  | .runOthers _, _, _ => False
  | .crash _ _, _, _ => False

/-- The conduct can be kept, and the tasks that are booted keep to it. -/
structure Conduct.Lawful (k : Conduct C) (boot : C → Boot C) : Prop where
  always_of_calm : ∀ {c}, k.calm c → k.always c
  always_of_may : ∀ {slot deeds c c'}, k.may slot deeds c c' → k.always c'
  bears_refl : ∀ slot c, k.bears slot c c
  bears_trans : ∀ {slot c c' c''}, k.bears slot c c' → k.bears slot c' c'' → k.bears slot c c''
  bears_of_may : ∀ {slot other deeds c c'}, k.may slot deeds c c' → slot ≠ other → k.bears other c c'
  bears_of_ambient : ∀ {slot c c'}, k.ambient c c' → k.bears slot c c'
  calm_of_ambient : ∀ {c c'}, k.calm c → k.ambient c c' → k.calm c'
  calm_of_boot : ∀ {c}, k.calm c → k.calm (boot c).context
  docile : ∀ c, ∀ task ∈ (boot c).tasks, task.body.Docile
  upholds : ∀ {c : C} {slot : ℕ} {task : Routine C}, (boot c).tasks[slot]? = some task →
    ∀ deeds c', k.calm c' → task.body.Upholds k slot deeds c'

variable {k : Conduct C} {boot : C → Boot C}

/-- When it goes on, the task that waits will keep to the conduct, unless it is told of a reboot. -/
structure Waiter.Abides (k : Conduct C) (generation : ℕ) (deeds : Deeds C) (c : C) (w : Waiter C) : Prop where
  since : w.since = w.round.generation
  goes : w.round.generation = generation → ∀ later c', deeds <+: later → k.bears w.slot c c' → k.calm c' →
    (w.next true).Upholds k w.slot later c'

namespace Waiter.Abides
variable {generation : ℕ} {deeds later : Deeds C} {c c' : C} {w : Waiter C}

theorem mono (h : w.Abides k generation deeds c) (lawful : k.Lawful boot) (longer : deeds <+: later)
    (bears : w.round.generation = generation → k.bears w.slot c c') : w.Abides k generation later c' :=
  ⟨h.since, fun now last c'' longest borne calm =>
    h.goes now last c'' (longer.trans longest) (lawful.bears_trans (bears now) borne) calm⟩

theorem reboot {generation' : ℕ} (h : w.Abides k generation deeds c) (older : w.round.generation ≠ generation') :
    w.Abides k generation' later c' :=
  ⟨h.since, fun now => absurd now older⟩

end Waiter.Abides

/-- What is under way keeps to the conduct. Tasks of an earlier generation have nothing left to do. -/
def Control.Heeds (k : Conduct C) (generation : ℕ) (deeds : Deeds C) (c : C) : Control C → Prop
  | .resting => k.calm c
  | .visiting _ waiting => k.calm c ∧ ∀ w ∈ waiting, w.Abides k generation deeds c
  | .running a program waiting =>
    (a.round.generation = generation → program.Upholds k a.slot deeds c) ∧
      (a.round.generation ≠ generation → program = .done ∧ k.calm c) ∧ ∀ w ∈ waiting, w.Abides k generation deeds c

/-- The system is in a state that the conduct leads to. -/
structure Behaved (k : Conduct C) (boot : C → Boot C) (limit : ℕ) (deeds : Deeds C) (s : State C) : Prop where
  fair : Fair limit s
  docile : s.Only Program.Docile
  boot : s.machine.boot = boot
  roster : ∀ (slot : ℕ) (task : Routine C), s.roster[slot]? = some task → ∀ deeds c, k.calm c →
    task.body.Upholds k slot deeds c
  heeds : s.control.Heeds k s.machine.generation deeds s.machine.context
  always : k.always s.machine.context

/-- What can become of the context. -/
inductive Conduct.Allows (k : Conduct C) (boot : C → Boot C) (deeds : Deeds C) (c : C) : C → Prop
  | same : Allows k boot deeds c c
  | may {slot : ℕ} {c' : C} (may : k.may slot deeds c c') : Allows k boot deeds c c'
  | ambient {c' : C} (calm : k.calm c) (ambient : k.ambient c c') : Allows k boot deeds c c'
  | boot (calm : k.calm c) : Allows k boot deeds c (boot c).context

theorem Conduct.Allows.always {deeds : Deeds C} {c c' : C} (h : k.Allows boot deeds c c') (lawful : k.Lawful boot)
    (before : k.always c) : k.always c' := by
  cases h with
  | same => exact before
  | may may => exact lawful.always_of_may may
  | ambient calm ambient => exact lawful.always_of_calm (lawful.calm_of_ambient calm ambient)
  | boot calm => exact lawful.always_of_calm (lawful.calm_of_boot calm)

namespace Behaved
variable {limit : ℕ} {deeds : Deeds C} {s s' : State C}

theorem forall_reboot {m : Machine C} {roster : List (Routine C)} {control : Control C} {c : C}
    (h : Behaved k boot limit deeds ⟨m, roster, control⟩)
    (waiting : ∀ w ∈ control.waiting, w.Abides k m.generation deeds m.context) :
    ∀ w ∈ control.waiting, w.Abides k (m.generation + 1) deeds c := by
  intro w mem
  refine (waiting w mem).reboot ?_
  have under : w.toActivation ∈ control.underWay := by
    cases control with
    | resting => exact absurd mem List.not_mem_nil
    | visiting => exact List.mem_map_of_mem mem
    | running => exact List.mem_cons_of_mem _ (List.mem_map_of_mem mem)
  have older := h.fair.sound.booked.past _ under
  exact (Nat.lt_succ_of_le older).ne

theorem slot_ne {m : Machine C} {roster : List (Routine C)} {a : Activation C} {program : Program C}
    {waiting : List (Waiter C)} (h : Behaved k boot limit deeds ⟨m, roster, .running a program waiting⟩) {w : Waiter C}
    (mem : w ∈ waiting) (same : w.round.generation = a.round.generation) : a.slot ≠ w.slot := by
  intro slot
  have apart := (List.nodup_cons.mp h.fair.sound.booked.apart).1
  refine apart (List.mem_map.mpr ⟨w.toActivation, List.mem_map_of_mem mem, ?_⟩)
  rw [Activation.place, Activation.place, same, slot]

theorem context_crash {m : Machine C} {roster : List (Routine C)} {control : Control C}
    (h : Behaved k boot limit deeds ⟨m, roster, control⟩) (cause : CrashCause) :
    (m.crash cause).context = (boot m.context).context ∧ (m.crash cause).generation = m.generation + 1 := by
  obtain ⟨_, eq⟩ := m.crash_eq cause
  rw [eq]
  exact ⟨congrArg (fun boot => (boot m.context).context) h.boot, rfl⟩

theorem current {m : Machine C} {roster : List (Routine C)} {a : Activation C} {program : Program C}
    {waiting : List (Waiter C)} (h : Behaved k boot limit deeds ⟨m, roster, .running a program waiting⟩)
    (more : program ≠ .done) : a.round.generation = m.generation ∧ program.Upholds k a.slot deeds m.context := by
  obtain ⟨now, older, -⟩ := h.heeds
  by_cases same : a.round.generation = m.generation
  · exact ⟨same, now same⟩
  · exact absurd (older same).1 more

section
variable {m : Machine C} {roster : List (Routine C)} {a : Activation C} {w : Waiter C} {waiting : List (Waiter C)}
  {round : Round C} {next : Bool → Program C}

theorem heeds_starve (h : Behaved k boot limit deeds ⟨m, roster, .visiting round waiting⟩) (lawful : k.Lawful boot)
    (cause : CrashCause) (rest : Round C) :
    (Control.visiting rest waiting).Heeds k (m.crash cause).generation deeds (m.crash cause).context := by
  obtain ⟨context, generation⟩ := h.context_crash cause
  rw [context, generation]
  exact ⟨lawful.calm_of_boot h.heeds.1, h.forall_reboot h.heeds.2⟩

theorem heeds_enter (h : Behaved k boot limit deeds ⟨m, roster, .visiting round waiting⟩) {i : ℕ} {task : Routine C}
    (registered : roster[i]? = some task) (visits : List (Visit C)) (left : List ℕ) :
    (Control.running ⟨i, task, ⟨m.generation, visits, left⟩⟩ task.body waiting).Heeds k m.generation deeds m.context :=
  ⟨fun _ => h.roster _ _ registered deeds _ h.heeds.1, fun other => absurd rfl other, h.heeds.2⟩

theorem heeds_update {change : C → Effect C} {next : Program C}
    (h : Behaved k boot limit deeds ⟨m, roster, .running a (.update change next) waiting⟩) (lawful : k.Lawful boot) :
    k.may a.slot deeds m.context (change m.context).context ∧
      (Control.running a next waiting).Heeds k m.generation (deeds ++ [(m.context, (change m.context).context)])
        (change m.context).context := by
  obtain ⟨now, may, later⟩ := h.current nofun
  refine ⟨may, fun _ => later, fun other => absurd now other, fun w mem => ?_⟩
  exact (h.heeds.2.2 w mem).mono lawful (List.prefix_append _ _) fun same =>
    lawful.bears_of_may may (h.slot_ne mem (same.trans now.symm))

theorem heeds_bark (h : Behaved k boot limit deeds ⟨m, roster, .running a (.yield next) waiting⟩)
    (lawful : k.Lawful boot) (cause : CrashCause) :
    k.calm m.context ∧
      (Control.running a (next false) waiting).Heeds k (m.crash cause).generation deeds (m.crash cause).context := by
  obtain ⟨now, calm, -⟩ := h.current nofun
  obtain ⟨context, generation⟩ := h.context_crash cause
  have gives : next false = .done := (h.docile.current _ _ _ rfl).2
  rw [context, generation]
  refine ⟨calm, fun same => ?_, fun _ => ⟨gives, lawful.calm_of_boot calm⟩, h.forall_reboot h.heeds.2.2⟩
  exact absurd (same.symm.trans now) (Nat.succ_ne_self _)

theorem heeds_refuse (h : Behaved k boot limit deeds ⟨m, roster, .running a (.yield next) waiting⟩)
    (lawful : k.Lawful boot) : (Control.running a (next true) waiting).Heeds k m.generation deeds m.context := by
  obtain ⟨now, calm, goes⟩ := h.current nofun
  refine ⟨fun _ => ?_, fun other => absurd now other, h.heeds.2.2⟩
  exact goes _ _ List.prefix_rfl (lawful.bears_refl _ _) calm

theorem heeds_yield (h : Behaved k boot limit deeds ⟨m, roster, .running a (.yield next) waiting⟩) (rest : Round C) :
    (Control.visiting rest (⟨a, m.generation, next⟩ :: waiting)).Heeds k m.generation deeds m.context := by
  obtain ⟨now, calm, goes⟩ := h.current nofun
  exact ⟨calm, List.forall_mem_cons.mpr ⟨⟨now.symm, fun _ => goes⟩, h.heeds.2.2⟩⟩

theorem heeds_resume (h : Behaved k boot limit deeds ⟨m, roster, .visiting round (w :: waiting)⟩)
    (lawful : k.Lawful boot) :
    (Control.running w.toActivation (w.next (m.generation = w.since)) waiting).Heeds k m.generation deeds
      m.context := by
  obtain ⟨calm, waits⟩ := h.heeds
  obtain ⟨abides, waits⟩ := List.forall_mem_cons.mp waits
  have gives : w.next false = .done := (h.docile.waiting w List.mem_cons_self).2
  rw [abides.since]
  refine ⟨fun now => ?_, fun other => ?_, waits⟩
  · rw [decide_eq_true (show m.generation = w.round.generation from now.symm)]
    exact abides.goes now _ _ List.prefix_rfl (lawful.bears_refl _ _) calm
  · rw [decide_eq_false (show m.generation ≠ w.round.generation from Ne.symm other)]
    exact ⟨gives, calm⟩

theorem heeds_leave (h : Behaved k boot limit deeds ⟨m, roster, .running a .done waiting⟩) (rest : Round C) :
    (Control.visiting rest waiting).Heeds k m.generation deeds m.context := by
  obtain ⟨now, older, waits⟩ := h.heeds
  refine ⟨?_, waits⟩
  by_cases same : a.round.generation = m.generation
  exacts [now same, (older same).2]

end

theorem allows_crash {m : Machine C} {roster : List (Routine C)} {control : Control C}
    (h : Behaved k boot limit deeds ⟨m, roster, control⟩) (calm : k.calm m.context) (cause : CrashCause) :
    k.Allows boot deeds m.context (m.crash cause).context := by
  rw [(h.context_crash cause).1]
  exact .boot calm

/-- A move keeps to the conduct. -/
theorem heeds_step (h : Behaved k boot limit deeds s) (lawful : k.Lawful boot) (moves : Moves s s') :
    s'.control.Heeds k s'.machine.generation (deeds ++ s.deed s') s'.machine.context ∧
      k.Allows boot deeds s.machine.context s'.machine.context := by
  obtain ⟨step, leaves⟩ := moves
  have silent (quiet : s.deed s' = [])
      (heeds : s'.control.Heeds k s'.machine.generation deeds s'.machine.context)
      (allows : k.Allows boot deeds s.machine.context s'.machine.context) :
      s'.control.Heeds k s'.machine.generation (deeds ++ s.deed s') s'.machine.context ∧
        k.Allows boot deeds s.machine.context s'.machine.context := by
    rw [quiet, List.append_nil]
    exact ⟨heeds, allows⟩
  cases step with
  | change => exact absurd rfl (leaves rfl rfl)
  | late =>
    refine silent rfl ?_ (h.allows_crash h.heeds _)
    simp only [h.context_crash]
    exact lawful.calm_of_boot h.heeds
  | pass => exact silent rfl ⟨h.heeds, List.forall_mem_nil _⟩ .same
  | cut | skip | vacant => exact silent rfl h.heeds .same
  | starve => exact silent rfl (h.heeds_starve lawful _ _) (h.allows_crash h.heeds.1 _)
  | enter fed idle ready => exact silent rfl (h.heeds_enter (h.fair.sound.booked.of_ready ready).2 _ _) .same
  | update =>
    obtain ⟨may, heeds⟩ := h.heeds_update lawful
    exact ⟨heeds, .may may⟩
  | @look m _ _ _ _ =>
    obtain ⟨now, upholds⟩ := h.current nofun
    exact silent rfl ⟨fun _ => upholds m.view rfl, fun other => absurd now other, h.heeds.2.2⟩ .same
  | crash => exact (h.docile.current _ _ _ rfl).elim
  | bark =>
    obtain ⟨calm, heeds⟩ := h.heeds_bark lawful .watchdogTimeout
    exact silent rfl heeds (h.allows_crash calm _)
  | refuse => exact silent rfl (h.heeds_refuse lawful) .same
  | @yield m _ _ _ _ _ _ =>
    obtain ⟨_, _, _, _, eq⟩ := m.deepened_eq
    rw [eq] at silent ⊢
    exact silent rfl (h.heeds_yield _) .same
  | resume => exact silent rfl (h.heeds_resume lawful) .same
  | @leave m _ a _ =>
    obtain ⟨_, _, eq⟩ := m.leave_eq a.slot a.task a.round.generation
    rw [eq] at silent ⊢
    exact silent rfl (h.heeds_leave _) .same
  | rest => exact silent rfl h.heeds.1 .same

/-- Whatever happens keeps to the conduct. -/
theorem happens (h : Behaved k boot limit deeds s) (lawful : k.Lawful boot) (happens : Happens k.ambient s s') :
    Behaved k boot limit (deeds ++ s.deed s') s' ∧ k.Allows boot deeds s.machine.context s'.machine.context := by
  have fair := h.fair.happens happens
  have docile := h.docile.happens Program.hereditary_docile h.fair.sound happens
  have booted {m : Machine C} (boots : m.boot = boot) (slot : ℕ) (task : Routine C)
      (registered : m.registered[slot]? = some task) (deeds : Deeds C) (c : C) (calm : k.calm c) :
      task.body.Upholds k slot deeds c := by
    rw [Machine.registered, boots, List.getElem?_take] at registered
    split at registered
    · exact lawful.upholds registered deeds c calm
    · cases registered
  cases happens with
  | move moves =>
    obtain ⟨heeds, allows⟩ := h.heeds_step lawful moves
    obtain ⟨boots, -, kept⟩ := moves.1.kept
    refine ⟨⟨fair, docile, boots.trans h.boot, ?_, heeds, allows.always lawful h.always⟩, allows⟩
    rcases kept with same | rebooted
    · exact same ▸ h.roster
    · exact rebooted ▸ booted h.boot
  | @disturb m roster control change allowed between =>
    have heeds := h.heeds
    cases control with
    | resting =>
      have allows : k.Allows boot deeds m.context (change m.context).context := .ambient heeds allowed
      rw [State.deed, List.append_nil]
      exact ⟨⟨fair, docile, h.boot, h.roster, lawful.calm_of_ambient heeds allowed, allows.always lawful h.always⟩,
        allows⟩
    | visiting round waiting =>
      have allows : k.Allows boot deeds m.context (change m.context).context := .ambient heeds.1 allowed
      rw [State.deed, List.append_nil]
      refine ⟨⟨fair, docile, h.boot, h.roster, ⟨lawful.calm_of_ambient heeds.1 allowed, fun w mem => ?_⟩,
        allows.always lawful h.always⟩, allows⟩
      exact (heeds.2 w mem).mono lawful List.prefix_rfl fun _ => lawful.bears_of_ambient allowed
    | running a program waiting => exact absurd rfl (between a program waiting)
  | @reboot m roster cause =>
    obtain ⟨context, -⟩ := h.context_crash cause
    have allows : k.Allows boot deeds m.context (m.crash cause).context := context ▸ .boot h.heeds
    have boots := (m.rebooted_crash cause).boot.trans h.boot
    rw [State.deed, List.append_nil]
    refine ⟨⟨fair, docile, boots, booted h.boot, ?_, allows.always lawful h.always⟩, allows⟩
    show k.calm (m.crash cause).context
    rw [context]
    exact lawful.calm_of_boot h.heeds

theorem chronicle {start : State C} (h : Behaved k boot limit [] start) (lawful : k.Lawful boot)
    (chronicle : Chronicle k.ambient start deeds s) : Behaved k boot limit deeds s := by
  induction chronicle with
  | nil => exact h
  | snoc _ happens ih => exact (ih.happens lawful happens).1

theorem resting {m : Machine C} {roster : List (Routine C)} (fair : Fair limit ⟨m, roster, .resting⟩)
    (lawful : k.Lawful boot) (boots : m.boot = boot) {c : C} (registered : roster = (boot c).tasks)
    (calm : k.calm m.context) : Behaved k boot limit [] ⟨m, roster, .resting⟩ := by
  subst registered
  refine ⟨fair, ⟨?_, lawful.docile c, nofun, nofun⟩, boots, fun slot task => lawful.upholds, calm,
    lawful.always_of_calm calm⟩
  exact boots ▸ lawful.docile

end Behaved

theorem Chronicle.pass {limit : ℕ} {ambient : C → C → Prop} {start : State C} {deeds : Deeds C} {m : Machine C}
    {roster : List (Routine C)} (before : Chronicle ambient start deeds ⟨m, roster, .resting⟩)
    (fair : Fair limit ⟨m, roster, .resting⟩) :
    ∃ more roster', Chronicle ambient start (deeds ++ more) ⟨m.pass, roster', .resting⟩ := by
  let P (s : State C) : Prop := ∃ more, Chronicle ambient start (deeds ++ more) s
  have now : P ⟨m, roster, .resting⟩ := ⟨[], by rwa [List.append_nil]⟩
  have moves (s s' : State C) (holds : P s) (moves : Moves s s') : P s' := by
    obtain ⟨more, before⟩ := holds
    exact ⟨_, List.append_assoc deeds .. ▸ before.snoc (.move moves)⟩
  obtain ⟨roster', more, after⟩ : ∃ roster', P ⟨m.turns [.pass], roster', .resting⟩ :=
    fair.turns_induction now moves fun _ _ _ mem => by simp at mem
  exact ⟨more, roster', after⟩

end Floppy.Schedule
