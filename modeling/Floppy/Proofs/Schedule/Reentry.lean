import Floppy.Proofs.Schedule.ActiveSlots

/-!
# No task is entered twice

In every state the books are right, and the depth is the number of yields under way. The machine computes its
passes in one go; each is shown to be a run of steps, and what holds after every step then holds wherever a task
looks at the system, and between the passes.
-/
namespace Floppy.Schedule
variable {C : Type}

/-- The books are right, and the depth is the number of yields under way. -/
structure Sound (s : State C) : Prop where
  booked : Booked s.machine s.roster s.control.underWay
  depth : s.machine.depth = s.control.waiting.length
  nesting : s.machine.depth ≤ s.machine.settings.maxNesting

namespace Sound

theorem congr {m m' : Machine C} {roster : List (Routine C)} {control control' : Control C}
    (h : Sound ⟨m, roster, control⟩) (alike : m.Alike m') (depth : m'.depth = m.depth)
    (tasks : control'.underWay = control.underWay) (waiting : control'.waiting = control.waiting) :
    Sound ⟨m', roster, control'⟩ where
  booked := tasks ▸ h.booked.congr alike
  depth := depth.trans (waiting ▸ h.depth)
  nesting := by
    show m'.depth ≤ m'.settings.maxNesting
    rw [depth, alike.settings]
    exact h.nesting

theorem reboot {m m' : Machine C} {roster : List (Routine C)} {control control' : Control C}
    (h : Sound ⟨m, roster, control⟩) (rebooted : m.Rebooted m')
    (tasks : control'.underWay = control.underWay) (waiting : control'.waiting = control.waiting) :
    Sound ⟨m', m.registered, control'⟩ where
  booked := tasks ▸ h.booked.reboot rebooted
  depth := rebooted.depth.trans (waiting ▸ h.depth)
  nesting := by
    show m'.depth ≤ m'.settings.maxNesting
    rw [rebooted.depth, rebooted.settings]
    exact h.nesting

theorem step {s s' : State C} (h : Sound s) (step : Step s s') : Sound s' := by
  cases step with
  | change change => exact h.congr (.update _ change) rfl rfl rfl
  | late => exact h.reboot (Machine.rebooted_crash _ _) rfl rfl
  | pass => exact h.congr (.opened _) rfl rfl rfl
  | cut => exact h.congr .refl rfl rfl rfl
  | starve => exact h.reboot (Machine.rebooted_crash _ _) rfl rfl
  | skip => exact ⟨h.booked.skip _, h.depth, h.nesting⟩
  | vacant => exact h.congr .refl rfl rfl rfl
  | enter fed idle ready => exact ⟨h.booked.enter ready rfl, h.depth, h.nesting⟩
  | update => exact h.congr (.update _ _) rfl rfl rfl
  | look => exact h.congr .refl rfl rfl rfl
  | crash => exact h.reboot (Machine.rebooted_crash _ _) rfl rfl
  | bark => exact h.reboot (Machine.rebooted_crash _ _) rfl rfl
  | refuse => exact h.congr (.refuse _) rfl rfl rfl
  | @yield m _ a waiting next fed room =>
    have deeper : m.deepened.depth = m.depth + 1 := m.depth_deepened
    have settings := (Machine.Alike.deepened m).settings
    refine ⟨h.booked.congr (.deepened m), ?_, ?_⟩
    · exact deeper.trans (congrArg Nat.succ h.depth)
    · show m.deepened.depth ≤ m.deepened.settings.maxNesting
      rw [deeper, settings]
      exact room
  | @resume m _ _ _ w waiting =>
    have depth : m.depth = waiting.length + 1 := h.depth
    refine ⟨h.booked.congr (.surface m), ?_, ?_⟩
    · show m.depth - 1 = waiting.length
      omega
    · exact (Nat.sub_le _ _).trans h.nesting
  | @leave m roster a waiting =>
    obtain ⟨-, settings, depth, -⟩ := m.leave_kept a.slot a.task a.round.generation
    refine ⟨h.booked.leave, depth.trans h.depth, ?_⟩
    show (m.leave _ _ _).depth ≤ (m.leave _ _ _).settings.maxNesting
    rw [depth, settings]
    exact h.nesting
  | rest => exact h.congr .refl rfl rfl rfl

theorem start (settings : ScheduleSettings) (context : C) (clock : Clock) (crashLog : CrashLog)
    (boot : C → Boot C) :
    Sound ⟨.start settings context clock crashLog boot, (boot context).tasks.take maxTasks, .resting⟩ := by
  obtain ⟨_, _, started⟩ := Machine.start_eq settings context clock crashLog boot
  refine ⟨.start settings context clock crashLog boot, ?_, ?_⟩
  · rw [started]
    rfl
  · rw [started]
    exact Nat.zero_le _

end Sound

/-- What a step leaves as it is: how the system boots, the settings, and the tasks but for a reboot. -/
theorem Step.kept {s s' : State C} (step : Step s s') :
    s'.machine.boot = s.machine.boot ∧ s'.machine.settings = s.machine.settings ∧
      (s'.roster = s.roster ∨ s'.roster = s.machine.registered) := by
  have crash (m : Machine C) (cause : CrashCause) := m.rebooted_crash cause
  cases step with
  | change => exact ⟨rfl, rfl, .inl rfl⟩
  | late => exact ⟨(crash _ _).boot, (crash _ _).settings, .inr rfl⟩
  | pass => exact ⟨rfl, rfl, .inl rfl⟩
  | cut => exact ⟨rfl, rfl, .inl rfl⟩
  | starve => exact ⟨(crash _ _).boot, (crash _ _).settings, .inr rfl⟩
  | skip => exact ⟨rfl, rfl, .inl rfl⟩
  | vacant => exact ⟨rfl, rfl, .inl rfl⟩
  | enter => exact ⟨rfl, rfl, .inl rfl⟩
  | update => exact ⟨rfl, rfl, .inl rfl⟩
  | look => exact ⟨rfl, rfl, .inl rfl⟩
  | crash => exact ⟨(crash _ _).boot, (crash _ _).settings, .inr rfl⟩
  | bark => exact ⟨(crash _ _).boot, (crash _ _).settings, .inr rfl⟩
  | refuse => exact ⟨rfl, rfl, .inl rfl⟩
  | yield => exact ⟨(Machine.Alike.deepened _).boot, (Machine.Alike.deepened _).settings, .inl rfl⟩
  | resume => exact ⟨rfl, rfl, .inl rfl⟩
  | leave => exact ⟨(Machine.leave_kept _ _ _ _).1, (Machine.leave_kept _ _ _ _).2.1, .inl rfl⟩
  | rest => exact ⟨rfl, rfl, .inl rfl⟩

abbrev Steps {C : Type} : State C → State C → Prop := Relation.ReflTransGen Step

/-- A sound state of a system whose tasks let others run by yielding alone, at most `limit` deep. -/
structure Fair (limit : ℕ) (s : State C) : Prop where
  sound : Sound s
  settings : s.machine.settings.maxNesting = limit
  boot : ∀ context, ∀ task ∈ (s.machine.boot context).tasks, task.body.Cooperative
  roster : ∀ task ∈ s.roster, task.body.Cooperative

namespace Fair
variable {limit : ℕ} {s s' : State C}

theorem congr {m m' : Machine C} {roster : List (Routine C)} {control : Control C}
    (h : Fair limit ⟨m, roster, control⟩) (alike : m.Alike m') (depth : m'.depth = m.depth) :
    Fair limit ⟨m', roster, control⟩ where
  sound := h.sound.congr alike depth rfl rfl
  settings := (congrArg ScheduleSettings.maxNesting alike.settings).trans h.settings
  boot := alike.boot ▸ h.boot
  roster := h.roster

theorem step (h : Fair limit s) (step : Step s s') : Fair limit s' := by
  obtain ⟨boot, settings, roster⟩ := step.kept
  refine ⟨h.sound.step step, settings ▸ h.settings, boot ▸ h.boot, ?_⟩
  rcases roster with same | rebooted
  · exact same ▸ h.roster
  · rw [rebooted]
    exact fun task mem => h.boot _ task (List.mem_of_mem_take mem)

theorem steps (h : Fair limit s) (steps : Steps s s') : Fair limit s' := by
  induction steps with
  | refl => exact h
  | tail _ last ih => exact ih.step last

end Fair

namespace Machine
variable {m : Machine C}

theorem yieldWith_of_expired {frame : Machine C → Machine C} (expired : m.clock.isExpired = true) :
    m.yieldWith frame = (false, m.crash .watchdogTimeout) := by
  rw [yieldWith, if_pos expired]

theorem yieldWith_of_deep {frame : Machine C → Machine C} (fed : m.clock.isExpired = false)
    (deep : m.settings.maxNesting ≤ m.depth) : m.yieldWith frame = (true, m.refuse) := by
  rw [yieldWith, fed, if_neg Bool.false_ne_true, if_pos deep]
  rfl

theorem yieldWith_of_room {frame : Machine C → Machine C} (fed : m.clock.isExpired = false)
    (room : m.depth < m.settings.maxNesting) :
    m.yieldWith frame =
      (decide ((frame m.deepened).generation = m.generation), (frame m.deepened).surface) := by
  rw [yieldWith, fed, if_neg Bool.false_ne_true, if_neg (Nat.not_le.mpr room)]
  rfl

end Machine

/-- A step that does not come to rest. -/
def Inner {C : Type} (s s' : State C) : Prop := Step s s' ∧ s'.control ≠ .resting

/-- Steps inside of a pass. -/
abbrev InnerSteps {C : Type} : State C → State C → Prop := Relation.ReflTransGen Inner

theorem steps_of_inner {s s' : State C} (inside : InnerSteps s s') : Steps s s' :=
  Relation.ReflTransGen.mono (fun _ _ => And.left) _ _ inside

section Simulation
variable {limit room : ℕ}

/-- A frame comes to its end with the machine that it computes. -/
def Simulates (limit room : ℕ) (frame : Machine C → Machine C) : Prop :=
  ∀ m roster waiting, Fair limit ⟨m, roster, .visiting m.round waiting⟩ → limit < room + waiting.length →
    ∃ visits roster', InnerSteps ⟨m, roster, .visiting m.round waiting⟩
      ⟨frame m, roster', .visiting ⟨m.generation, visits, []⟩ waiting⟩

theorem Simulates.yield {frame : Machine C → Machine C} (frames : Simulates limit room frame) {m : Machine C}
    {roster : List (Routine C)} {a : Activation C} {next : Bool → Program C} {waiting : List (Waiter C)}
    (fair : Fair limit ⟨m, roster, .running a (.yield next) waiting⟩) (enough : limit < room + 1 + waiting.length) :
    ∃ roster', InnerSteps ⟨m, roster, .running a (.yield next) waiting⟩
      ⟨(m.yieldWith frame).2, roster', .running a (next (m.yieldWith frame).1) waiting⟩ := by
  rcases expired : m.clock.isExpired with _ | _
  · rcases Nat.lt_or_ge m.depth m.settings.maxNesting with shallow | deep
    · rw [Machine.yieldWith_of_room expired shallow]
      have entered : Inner ⟨m, roster, .running a (.yield next) waiting⟩
          ⟨m.deepened, roster, .visiting m.deepened.round (⟨a, m.generation, next⟩ :: waiting)⟩ :=
        ⟨.yield expired shallow, nofun⟩
      have deeper : limit < room + (waiting.length + 1) := by omega
      obtain ⟨visits, roster', inside⟩ := frames m.deepened roster _ (fair.step entered.1) deeper
      exact ⟨roster', (inside.head entered).tail ⟨.resume, nofun⟩⟩
    · rw [Machine.yieldWith_of_deep expired deep]
      exact ⟨roster, .single ⟨.refuse expired deep, nofun⟩⟩
  · rw [Machine.yieldWith_of_expired expired]
    exact ⟨m.registered, .single ⟨.bark expired, nofun⟩⟩

theorem Simulates.run {frame : Machine C → Machine C} (frames : Simulates limit room frame) {program : Program C}
    (cooperative : program.Cooperative) {m : Machine C} {roster : List (Routine C)} {a : Activation C}
    {waiting : List (Waiter C)} (fair : Fair limit ⟨m, roster, .running a program waiting⟩)
    (enough : limit < room + 1 + waiting.length) :
    ∃ roster', InnerSteps ⟨m, roster, .running a program waiting⟩
      ⟨program.run frame m, roster', .running a .done waiting⟩ := by
  induction program generalizing m roster with
  | done => exact ⟨roster, .refl⟩
  | update change next ih =>
    obtain ⟨roster', rest⟩ := ih cooperative (fair.step .update)
    exact ⟨roster', rest.head ⟨.update, nofun⟩⟩
  | look next ih =>
    obtain ⟨roster', rest⟩ := ih m.view (cooperative m.view) (fair.step .look)
    exact ⟨roster', rest.head ⟨.look, nofun⟩⟩
  | yield next ih =>
    obtain ⟨roster', through⟩ := frames.yield fair enough
    obtain ⟨roster'', rest⟩ := ih _ (cooperative _) (fair.steps (steps_of_inner through))
    exact ⟨roster'', through.trans rest⟩
  | runOthers next ih => exact cooperative.elim
  | crash cause next ih =>
    obtain ⟨roster', rest⟩ := ih cooperative (fair.step .crash)
    exact ⟨roster', rest.head ⟨.crash, nofun⟩⟩

theorem Simulates.visitAll {frame : Machine C → Machine C} (frames : Simulates limit room frame)
    {generation : ℕ} {left : List ℕ} {m : Machine C} {roster : List (Routine C)} {visits : List (Visit C)}
    {waiting : List (Waiter C)} (fair : Fair limit ⟨m, roster, .visiting ⟨generation, visits, left⟩ waiting⟩)
    (enough : limit < room + 1 + waiting.length) :
    ∃ visits' roster', InnerSteps ⟨m, roster, .visiting ⟨generation, visits, left⟩ waiting⟩
      ⟨Machine.visitAll frame generation left m, roster', .visiting ⟨generation, visits', []⟩ waiting⟩ := by
  induction left generalizing m roster visits with
  | nil => exact ⟨visits, roster, .refl⟩
  | cons i left ih =>
    rw [Machine.visitAll]
    by_cases rebooted : m.generation ≠ generation
    · rw [if_pos rebooted]
      exact ⟨visits, roster, .single ⟨.cut rebooted, nofun⟩⟩
    obtain rfl : m.generation = generation := not_not.mp rebooted
    rw [if_neg rebooted]
    rcases expired : m.clock.isExpired with _ | _
    · rw [if_neg Bool.false_ne_true, Machine.visit]
      rcases active : m.isActive i with _ | _
      · rw [if_neg Bool.false_ne_true]
        rcases ready : m.slots[i]?.bind (·.task) with _ | task
        · obtain ⟨visits', roster', rest⟩ := ih (fair.step (.vacant expired active ready))
          exact ⟨visits', roster', rest.head ⟨.vacant expired active ready, nofun⟩⟩
        · have registered := (fair.sound.booked.of_ready ready).2
          have cooperative := fair.roster task (List.mem_of_getElem? registered)
          obtain ⟨roster', inside⟩ := frames.run cooperative (fair.step (.enter expired active ready)) enough
          have through := (inside.head ⟨.enter expired active ready, nofun⟩).tail ⟨.leave, nofun⟩
          obtain ⟨visits', roster'', rest⟩ := ih (fair.steps (steps_of_inner through))
          exact ⟨visits', roster'', through.trans rest⟩
      · rw [if_pos rfl]
        obtain ⟨visits', roster', rest⟩ := ih (fair.step (.skip expired active))
        exact ⟨visits', roster', rest.head ⟨.skip expired active, nofun⟩⟩
    · rw [if_pos rfl]
      exact ⟨visits, m.registered, .single ⟨.starve expired, nofun⟩⟩

theorem simulates_frame (room : ℕ) : Simulates (C := C) limit room (Machine.frame room) := by
  induction room with
  | zero =>
    intro m roster waiting fair enough
    have depth : m.depth = waiting.length := fair.sound.depth
    have nesting : m.depth ≤ limit := fair.settings ▸ fair.sound.nesting
    omega
  | succ room ih =>
    intro m roster waiting fair enough
    exact ih.visitAll fair enough

/-- A pass reboots at once, or it is computed in full. -/
theorem pass_cases {m : Machine C} {roster : List (Routine C)} (fair : Fair limit ⟨m, roster, .resting⟩) :
    (m.clock.isExpired = true ∧ m.pass = m.crash .watchdogTimeout) ∨
      (m.clock.isExpired = false ∧ ∃ visits roster',
        InnerSteps ⟨m.opened, roster, .visiting m.opened.round []⟩
          ⟨m.pass, roster', .visiting ⟨m.generation, visits, []⟩ []⟩) := by
  rw [Machine.pass]
  rcases expired : m.clock.isExpired with _ | _
  · rw [if_neg Bool.false_ne_true]
    have enough : limit < m.opened.room + 0 := by
      have spare : 0 < Machine.spareRoom := by decide
      have same : m.opened.settings.maxNesting = limit := fair.settings
      rw [Machine.room, same]
      omega
    exact .inr ⟨rfl, simulates_frame m.opened.room m.opened roster [] (fair.step (.pass expired)) enough⟩
  · exact .inl ⟨rfl, if_pos rfl⟩

theorem Inner.rightUnique : Relator.RightUnique (Inner (C := C)) := by
  intro s t t' first second
  obtain ⟨step, inside⟩ := first
  obtain ⟨step', inside'⟩ := second
  cases step <;> cases step' <;> first | rfl | grind

/-- The frame of a pass is at its end. -/
def State.Ended (s : State C) : Prop := ∃ generation visits, s.control = .visiting ⟨generation, visits, []⟩ []

theorem State.Ended.eq_of_inner {s t : State C} (ended : s.Ended) (steps : InnerSteps s t) : t = s := by
  obtain ⟨m, roster, control⟩ := s
  obtain ⟨generation, visits, rfl⟩ := ended
  cases steps.cases_head with
  | inl same => exact same.symm
  | inr more =>
    obtain ⟨_, ⟨step, active⟩, -⟩ := more
    cases step
    exact absurd rfl active

/-- A step that is not a change between two passes: from rest the system enters a pass, or it reboots. -/
def Moves (s s' : State C) : Prop :=
  Step s s' ∧ (s.control = .resting → s'.control = .resting → s'.machine.generation ≠ s.machine.generation)

theorem Inner.moves {s s' : State C} (inner : Inner s s') : Moves s s' := ⟨inner.1, fun _ rests => absurd rests inner.2⟩

theorem Moves.ended {s s' : State C} (moves : Moves s s') (rests : s'.control = .resting)
    (active : s.control ≠ .resting) : s.Ended ∧ s'.machine = s.machine := by
  obtain ⟨step, -⟩ := moves
  cases step with
  | rest => exact ⟨⟨_, _, rfl⟩, rfl⟩
  | change | late => exact absurd rfl active
  | _ => cases rests

/-- Whichever steps a pass takes, it comes to an end, and so to what is computed for it. -/
structure Machine.PassSteps (m : Machine C) (roster : List (Routine C)) : Prop where
  ends : ∃ s roster', InnerSteps ⟨m, roster, .resting⟩ s ∧ Moves s ⟨m.pass, roster', .resting⟩
  only : ∀ s s', InnerSteps ⟨m, roster, .resting⟩ s → Moves s s' → s'.control = .resting → s'.machine = m.pass

theorem passSteps_of_expired {m : Machine C} {roster : List (Routine C)} (expired : m.clock.isExpired = true)
    (pass : m.pass = m.crash .watchdogTimeout) : m.PassSteps roster := by
  have later : m.pass.generation ≠ m.generation := by
    rw [pass, (m.rebooted_crash _).generation]
    exact Nat.succ_ne_self _
  constructor
  · exact ⟨_, m.registered, .refl, pass ▸ .late expired, fun _ _ => later⟩
  · intro s s' path moves rests
    obtain rfl | ⟨_, ⟨step, active⟩, -⟩ := path.cases_head
    · obtain ⟨step, leaves⟩ := moves
      cases step with
      | change => exact absurd rfl (leaves rfl rfl)
      | late => exact pass.symm
      | pass => cases rests
    · cases step with
      | pass fed => exact absurd (fed.symm.trans expired) Bool.false_ne_true
      | change | late => exact absurd rfl active

theorem passSteps_of_path {m : Machine C} {roster : List (Routine C)} {last : State C}
    (fed : m.clock.isExpired = false) (ended : last.Ended) (machine : last.machine = m.pass)
    (path : InnerSteps ⟨m.opened, roster, .visiting m.opened.round []⟩ last) : m.PassSteps roster := by
  have through : InnerSteps ⟨m, roster, .resting⟩ last := path.head ⟨.pass fed, nofun⟩
  constructor
  · obtain ⟨m', roster', control⟩ := last
    obtain ⟨generation, visits, rfl⟩ := ended
    obtain rfl : m' = m.pass := machine
    exact ⟨_, roster', through, .rest, nofun⟩
  · intro s s' before moves rests
    obtain ⟨here, same⟩ : s.Ended ∧ s'.machine = s.machine := by
      rcases Relation.ReflTransGen.cases_tail before with rfl | ⟨_, -, -, active⟩
      · obtain ⟨step, leaves⟩ := moves
        cases step with
        | change => exact absurd rfl (leaves rfl rfl)
        | late expired => exact absurd (fed.symm.trans expired) Bool.false_ne_true
        | pass => cases rests
      · exact moves.ended rests active
    rw [same, ← machine]
    rcases Relation.ReflTransGen.total_of_right_unique Inner.rightUnique before through with more | more
    · rw [here.eq_of_inner more]
    · rw [ended.eq_of_inner more]

theorem Fair.passSteps {s : State C} (fair : Fair limit s) (rests : s.control = .resting) :
    s.machine.PassSteps s.roster := by
  obtain ⟨m, roster, control⟩ := s
  obtain rfl : control = .resting := rests
  rcases pass_cases fair with ⟨expired, pass⟩ | ⟨fed, visits, roster', path⟩
  · exact passSteps_of_expired expired pass
  · exact passSteps_of_path fed ⟨_, _, rfl⟩ rfl path

theorem steps_pass {m : Machine C} {roster : List (Routine C)} (fair : Fair limit ⟨m, roster, .resting⟩) :
    ∃ roster', Steps ⟨m, roster, .resting⟩ ⟨m.pass, roster', .resting⟩ := by
  rcases pass_cases fair with ⟨expired, crashed⟩ | ⟨fed, visits, roster', inside⟩
  · rw [crashed]
    exact ⟨m.registered, .single (.late expired)⟩
  · exact ⟨roster', ((steps_of_inner inside).head (.pass fed)).tail .rest⟩

end Simulation

/-- What the main loop does: a pass, or between the passes a change of the context while the timer ticks. -/
inductive Turn (C : Type) where
  | change (change : C → Effect C)
  | pass

namespace Machine

def turn (m : Machine C) : Turn C → Machine C
  | .change change => m.update change
  | .pass => m.pass

def turns (m : Machine C) (turns : List (Turn C)) : Machine C := turns.foldl turn m

end Machine

/-- The tasks that a system starts with wait for the first pass. -/
def State.start (settings : ScheduleSettings) (context : C) (clock : Clock) (crashLog : CrashLog)
    (boot : C → Boot C) : State C :=
  ⟨.start settings context clock crashLog boot, (boot context).tasks.take maxTasks, .resting⟩

namespace Fair
variable {limit : ℕ}

theorem start (settings : ScheduleSettings) (context : C) (clock : Clock) (crashLog : CrashLog) (boot : C → Boot C)
    (cooperative : ∀ context, ∀ task ∈ (boot context).tasks, task.body.Cooperative) :
    Fair settings.maxNesting (.start settings context clock crashLog boot) := by
  obtain ⟨_, _, started⟩ := Machine.start_eq settings context clock crashLog boot
  refine ⟨.start settings context clock crashLog boot, ?_, ?_, ?_⟩
  · rw [State.start, started]
  · rw [State.start, started]
    exact cooperative
  · exact fun task mem => cooperative context task (List.mem_of_mem_take mem)

theorem steps_turn {m : Machine C} {roster : List (Routine C)} (fair : Fair limit ⟨m, roster, .resting⟩)
    (turn : Turn C) : ∃ roster', Steps ⟨m, roster, .resting⟩ ⟨m.turn turn, roster', .resting⟩ := by
  cases turn with
  | change change => exact ⟨roster, .single (.change change)⟩
  | pass => exact steps_pass fair

theorem steps_turns {m : Machine C} {roster : List (Routine C)} (fair : Fair limit ⟨m, roster, .resting⟩)
    (turns : List (Turn C)) : ∃ roster', Steps ⟨m, roster, .resting⟩ ⟨m.turns turns, roster', .resting⟩ := by
  induction turns generalizing m roster with
  | nil => exact ⟨roster, .refl⟩
  | cons turn turns ih =>
    obtain ⟨roster', first⟩ := fair.steps_turn turn
    obtain ⟨roster'', rest⟩ := ih (fair.steps first)
    exact ⟨roster'', first.trans rest⟩

end Fair

/-- The marks on the machine say which tasks are under way, and none of them is so twice. -/
structure Safe (limit : ℕ) (s : State C) : Prop where
  bit : ∀ i, s.machine.active.toNat.testBit i = true ↔
    ∃ slot, s.machine.slots[i]? = some slot ∧ slot.task = none
  empty : ∀ i slot, s.machine.slots[i]? = some slot →
    (slot.task = none ↔
      ∃ a ∈ s.control.underWay, a.place = (s.machine.generation, i) ∧ s.roster[i]? = some a.task)
  apart : (places s.control.underWay).Nodup
  nesting : s.machine.depth ≤ limit

theorem Fair.safe {limit : ℕ} {s : State C} (h : Fair limit s) : Safe limit s where
  bit := h.sound.booked.bit_iff
  empty := by
    intro i slot found
    rw [h.sound.booked.empty_iff found]
    constructor
    · exact h.sound.booked.exists_registered
    · rintro ⟨a, mem, here, -⟩
      exact List.mem_map.mpr ⟨a, mem, here⟩
  apart := h.sound.booked.apart
  nesting := h.settings ▸ h.sound.nesting

theorem Sound.rested {m : Machine C} {roster : List (Routine C)} (h : Sound ⟨m, roster, .resting⟩) :
    m.depth = 0 ∧ m.active = 0 ∧ ∀ slot ∈ m.slots, slot.task.isSome = true := by
  refine ⟨h.depth, ?_, ?_⟩
  · have clear (i : ℕ) : m.active.toNat.testBit i = false := by
      rw [Bool.eq_false_iff, Ne, h.booked.active]
      exact List.not_mem_nil
    exact UInt32.toNat.inj (Nat.zero_of_testBit_eq_false clear)
  · intro slot mem
    obtain ⟨i, found⟩ := Array.getElem?_of_mem mem
    rw [Option.isSome_iff_ne_none, Ne, h.booked.empty_iff found]
    exact List.not_mem_nil

/-- However the tasks yield, crash and go on after a reboot: a bit is set if and only if the task of its slot is under
way, no task is entered a second time, each pass takes its steps to the end, and no task is under way after it. -/
theorem reentry_safe (settings : ScheduleSettings) (context : C) (clock : Clock) (crashLog : CrashLog)
    (boot : C → Boot C)
    (cooperative : ∀ context, ∀ task ∈ (boot context).tasks, task.body.Cooperative) :
    (∀ s, Steps (.start settings context clock crashLog boot) s → Safe settings.maxNesting s) ∧
      (∀ m roster, Steps (.start settings context clock crashLog boot) ⟨m, roster, .resting⟩ → m.PassSteps roster) ∧
      ∀ turns, let m := (Machine.start settings context clock crashLog boot).turns turns
        (∃ roster, Steps (.start settings context clock crashLog boot) ⟨m, roster, .resting⟩) ∧
          m.depth = 0 ∧ m.active = 0 ∧ ∀ slot ∈ m.slots, slot.task.isSome = true := by
  have fair := Fair.start settings context clock crashLog boot cooperative
  refine ⟨fun s steps => (fair.steps steps).safe, fun m roster steps => (fair.steps steps).passSteps rfl, ?_⟩
  intro turns
  obtain ⟨roster, steps⟩ := fair.steps_turns turns
  exact ⟨⟨roster, steps⟩, (fair.steps steps).sound.rested⟩

/-- Once, a task crashes inside the yield of another one, and then yields itself. -/
def rebootOnce (rebooted : Bool) : Boot Bool where
  context := rebooted
  tasks :=
    [⟨"waiter", .yield fun _ => .done⟩,
      ⟨"worker", if rebooted then .done
        else .update (fun _ => { context := true }) (.crash .requested (.yield fun _ => .done))⟩]

theorem cooperative_rebootOnce (rebooted : Bool) :
    ∀ task ∈ (rebootOnce rebooted).tasks, task.body.Cooperative := by
  cases rebooted <;> simp [rebootOnce, Program.Cooperative]

theorem reentry_safe_rebootOnce :
    let m := (Machine.start {} false { watchdogMax := 5000 } {} rebootOnce).turns [.pass]
    m.generation = 1 ∧ (∀ s, Steps (.start {} false { watchdogMax := 5000 } {} rebootOnce) s → Safe 8 s) ∧
      (∃ roster, Steps (.start {} false { watchdogMax := 5000 } {} rebootOnce) ⟨m, roster, .resting⟩) ∧
      m.depth = 0 ∧ m.active = 0 ∧ ∀ slot ∈ m.slots, slot.task.isSome = true := by
  obtain ⟨safe, -, rested⟩ :=
    reentry_safe {} false { watchdogMax := 5000 } {} rebootOnce cooperative_rebootOnce
  exact ⟨by decide +kernel, safe, rested [.pass]⟩

end Floppy.Schedule
