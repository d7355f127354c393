import Floppy.Proofs.Schedule.Reentry

/-!
# Every frame visits every task

A frame goes through the slots once; a task that is under way below it is skipped, and the others are run. The
counters of a slot are set against the frames of the present generation: those that are closed, and those under
way that have been at the slot. A run is only counted when the task returns, so the two come out even between the
passes, and a reboot starts both from nothing.
-/
namespace Floppy.Schedule
variable {C : Type}

/-- What a frame does with the slots, in the order in which their tasks were registered: a task that is under way
below the frame is skipped, and every other one is run. -/
def Round.plan (roster : List (Routine C)) (generation : ℕ) (below : List (ℕ × ℕ)) : List (Visit C) :=
  roster.zipIdx.map fun (task, i) => if (generation, i) ∈ below then .skip i else .run i task

/-- A frame has carried out the beginning of its plan, and the rest is left. -/
def Round.OnPlan (roster : List (Routine C)) (below : List (ℕ × ℕ)) (round : Round C) : Prop :=
  ∃ count, round.visits = (plan roster round.generation below).take count ∧
    round.left = (List.range roster.length).drop count

/-- The frames under way, innermost first, each with the tasks that are under way below it. -/
def Control.stacked : List (Waiter C) → List (Round C × List (ℕ × ℕ))
  | [] => []
  | w :: below => (w.round, places (below.map Waiter.toActivation)) :: stacked below

def Control.rounds : Control C → List (Round C × List (ℕ × ℕ))
  | resting => []
  | visiting round waiting => (round, places (waiting.map Waiter.toActivation)) :: stacked waiting
  | running task _ waiting => (task.round, places (waiting.map Waiter.toActivation)) :: stacked waiting

/-- The innermost frame is at its end, and was begun in this generation, which is the present one. -/
def State.closes (generation : ℕ) (s : State C) : Bool :=
  match s.control with
  | .visiting round _ => round.left.isEmpty && s.machine.generation == generation && round.generation == generation
  | _ => false

/-- How many frames of a generation have been at a slot. -/
def visited (generation i : ℕ) (rounds : List (Round C × List (ℕ × ℕ))) : ℕ :=
  rounds.countP fun r => r.1.generation = generation ∧ i ∉ r.1.left

/-- For each slot as many visits are posted as frames are closed or have been there; that of a task under way is
still to come. -/
structure Tally (closed : ℕ) (m : Machine C) (roster : List (Routine C)) (under : List (ℕ × ℕ))
    (rounds : List (Round C × List (ℕ × ℕ))) : Prop where
  past : ∀ r ∈ rounds, r.1.generation ≤ m.generation
  planned : ∀ r ∈ rounds, r.1.generation = m.generation → r.1.OnPlan roster r.2
  posted : ∀ i slot, m.slots[i]? = some slot →
    slot.stats.invocations + slot.stats.skipped + (if (m.generation, i) ∈ under then 1 else 0) =
      closed + visited m.generation i rounds

namespace Round
variable {roster : List (Routine C)} {below : List (ℕ × ℕ)} {generation i : ℕ} {visits : List (Visit C)}
  {left : List ℕ}

theorem length_plan (roster : List (Routine C)) (generation : ℕ) (below : List (ℕ × ℕ)) :
    (plan roster generation below).length = roster.length := by simp [plan]

theorem OnPlan.notMem (h : OnPlan roster below ⟨generation, visits, i :: left⟩) : i ∉ left := by
  obtain ⟨count, -, rest⟩ := h
  have nodup : ((List.range roster.length).drop count).Nodup := List.nodup_range.drop
  rw [← rest] at nodup
  exact (List.nodup_cons.mp nodup).1

theorem OnPlan.next (h : OnPlan roster below ⟨generation, visits, i :: left⟩) :
    ∃ task, roster[i]? = some task ∧
      OnPlan roster below
        ⟨generation, visits ++ [if (generation, i) ∈ below then .skip i else .run i task], left⟩ := by
  obtain ⟨count, done, rest⟩ := h
  simp only at done rest
  have inside : count < roster.length := by
    by_contra past
    rw [List.drop_eq_nil_of_le (by simpa using past)] at rest
    cases rest
  rw [List.drop_eq_getElem_cons (by simpa using inside), List.getElem_range, List.cons.injEq] at rest
  obtain ⟨rfl, rest⟩ := rest
  refine ⟨roster[i], List.getElem?_eq_getElem inside, i + 1, ?_, rest⟩
  have verdict : (plan roster generation below)[i]? =
      some (if (generation, i) ∈ below then .skip i else .run i roster[i]) := by
    simp [plan, List.getElem?_eq_getElem inside]
  show visits ++ _ = _
  rw [List.take_add_one, verdict, ← done]
  rfl

theorem OnPlan.complete (h : OnPlan roster below ⟨generation, visits, []⟩) :
    visits = plan roster generation below := by
  obtain ⟨count, done, rest⟩ := h
  simp only at done rest
  have all : roster.length ≤ count := by simpa using rest.symm
  rw [done, List.take_of_length_le]
  rwa [length_plan]

theorem OnPlan.begin (roster : List (Routine C)) (below : List (ℕ × ℕ)) (generation : ℕ) :
    OnPlan roster below ⟨generation, [], List.range roster.length⟩ := ⟨0, rfl, rfl⟩

end Round

namespace Tally
variable {closed : ℕ} {m m' : Machine C} {roster : List (Routine C)} {under below : List (ℕ × ℕ)}
  {rounds : List (Round C × List (ℕ × ℕ))}

theorem congr (h : Tally closed m roster under rounds) (alike : m.Alike m') : Tally closed m' roster under rounds := by
  refine ⟨?_, ?_, ?_⟩ <;> simp only [alike.slots, alike.generation]
  exacts [h.past, h.planned, h.posted]

theorem begin (h : Tally closed m roster under rounds) (size : m.slots.size = roster.length) :
    Tally closed m roster under ((m.round, below) :: rounds) where
  past := List.forall_mem_cons.mpr ⟨le_rfl, h.past⟩
  planned := by
    refine List.forall_mem_cons.mpr ⟨fun _ => ?_, h.planned⟩
    show m.round.OnPlan roster below
    rw [Machine.round, size]
    exact .begin roster below m.generation
  posted := by
    intro i slot found
    have inside : i < m.slots.size := (Array.getElem?_eq_some_iff.mp found).1
    rw [h.posted i slot found, visited, visited, List.countP_cons]
    simp [Machine.round, inside]

theorem cut {generation : ℕ} {visits : List (Visit C)} {left : List ℕ}
    (h : Tally closed m roster under ((⟨generation, visits, left⟩, below) :: rounds))
    (rebooted : m.generation ≠ generation) :
    Tally closed m roster under ((⟨generation, visits, []⟩, below) :: rounds) where
  past := List.forall_mem_cons.mpr (List.forall_mem_cons.mp h.past)
  planned := by
    have rest := (List.forall_mem_cons.mp h.planned).2
    exact List.forall_mem_cons.mpr ⟨fun now => absurd now.symm rebooted, rest⟩
  posted := by
    intro i slot found
    rw [h.posted i slot found, visited, visited, List.countP_cons, List.countP_cons]
    simp [Ne.symm rebooted]

theorem close {generation : ℕ} {visits : List (Visit C)}
    (h : Tally closed m roster under ((⟨generation, visits, []⟩, below) :: rounds)) :
    Tally (closed + if m.generation = generation then 1 else 0) m roster under rounds where
  past := (List.forall_mem_cons.mp h.past).2
  planned := (List.forall_mem_cons.mp h.planned).2
  posted := by
    intro i slot found
    rw [h.posted i slot found, visited, visited, List.countP_cons]
    simp [eq_comm, Nat.add_assoc, Nat.add_comm]

theorem visited_advance {generation i : ℕ} {visits visits' : List (Visit C)} {left : List ℕ} (other : i ∉ left)
    (j : ℕ) :
    visited generation j ((⟨generation, visits', left⟩, below) :: rounds) =
      visited generation j ((⟨generation, visits, i :: left⟩, below) :: rounds) + if i = j then 1 else 0 := by
  rw [visited, visited, List.countP_cons, List.countP_cons]
  by_cases same : i = j
  · subst same
    simp [other]
  · simp [same, Ne.symm same]

section Advance
variable {i : ℕ} {visits : List (Visit C)} {left : List ℕ}

/-- A frame goes on to its next slot, which has one visit more. -/
theorem advance {visits' : List (Visit C)} {under' : List (ℕ × ℕ)}
    (h : Tally closed m roster under ((⟨m.generation, visits, i :: left⟩, below) :: rounds))
    (same : m'.generation = m.generation) (next : Round.OnPlan roster below ⟨m.generation, visits', left⟩)
    (one : ∀ j slot, m'.slots[j]? = some slot → ∃ before, m.slots[j]? = some before ∧
      slot.stats.invocations + slot.stats.skipped + (if (m.generation, j) ∈ under' then 1 else 0) =
        before.stats.invocations + before.stats.skipped + (if (m.generation, j) ∈ under then 1 else 0) +
          if i = j then 1 else 0) :
    Tally closed m' roster under' ((⟨m.generation, visits', left⟩, below) :: rounds) := by
  have past := List.forall_mem_cons.mp h.past
  have planned := List.forall_mem_cons.mp h.planned
  refine ⟨?_, ?_, ?_⟩ <;> rw [same]
  · exact List.forall_mem_cons.mpr past
  · exact List.forall_mem_cons.mpr ⟨fun _ => next, planned.2⟩
  · intro j slot found
    obtain ⟨before, there, more⟩ := one j slot found
    rw [more, h.posted j before there, visited_advance (planned.1 rfl).notMem, Nat.add_assoc]

theorem skip (h : Tally closed m roster under ((⟨m.generation, visits, i :: left⟩, under) :: rounds))
    (active : (m.generation, i) ∈ under) :
    Tally closed (m.skip i) roster under ((⟨m.generation, visits ++ [.skip i], left⟩, under) :: rounds) := by
  obtain ⟨task, -, next⟩ := (h.planned _ List.mem_cons_self rfl).next
  rw [if_pos active] at next
  refine h.advance rfl next fun j slot found => ?_
  obtain ⟨before, there, rfl⟩ := Machine.slot_modifySlot found
  refine ⟨before, there, ?_⟩
  by_cases here : i = j
  · simp only [here, if_true]
    omega
  · simp only [here, if_false, Nat.add_zero]

theorem enter {task : Routine C}
    (h : Tally closed m roster under ((⟨m.generation, visits, i :: left⟩, under) :: rounds))
    (idle : (m.generation, i) ∉ under) (registered : roster[i]? = some task) :
    Tally closed (m.enter i) roster ((m.generation, i) :: under)
      ((⟨m.generation, visits ++ [.run i task], left⟩, under) :: rounds) := by
  obtain ⟨task', registered', next⟩ := (h.planned _ List.mem_cons_self rfl).next
  obtain rfl : task = task' := Option.some.inj (registered.symm.trans registered')
  rw [if_neg idle] at next
  refine h.advance rfl next fun j slot found => ?_
  obtain ⟨before, there, rfl⟩ := Machine.slot_modifySlot found
  refine ⟨before, there, ?_⟩
  by_cases here : i = j
  · simp [← here, idle]
  · simp [here, Ne.symm here]

end Advance

/-- With its return the visit of a task is posted, unless the system has rebooted. -/
theorem leave {i generation : ℕ} {task : Routine C} (h : Tally closed m roster ((generation, i) :: under) rounds)
    (apart : (generation, i) ∉ under) : Tally closed (m.leave i task generation) roster under rounds := by
  rw [Machine.leave]
  split
  case isTrue now =>
    refine ⟨h.past, h.planned, ?_⟩
    intro j slot found
    obtain ⟨before, there, rfl⟩ := Machine.slot_modifySlot found
    have posted := h.posted j before there
    show _ + (if (m.generation, j) ∈ under then 1 else 0) = closed + visited m.generation j _
    rw [← posted]
    by_cases here : i = j
    · simp [← here, now, apart, Nat.add_right_comm]
    · simp [here, Ne.symm here]
  case isFalse rebooted =>
    refine ⟨h.past, h.planned, ?_⟩
    intro j slot found
    have posted := h.posted j slot found
    simpa [rebooted] using posted

/-- After a reboot nothing is posted, and no frame under way has been anywhere. -/
theorem reboot (h : Tally closed m roster under rounds) (rebooted : m.Rebooted m')
    (older : ∀ place ∈ under, place.1 ≤ m.generation) : Tally 0 m' m.registered under rounds := by
  have past (r : Round C × List (ℕ × ℕ)) (mem : r ∈ rounds) : r.1.generation ≠ m'.generation := by
    have before := h.past r mem
    rw [rebooted.generation]
    omega
  refine ⟨?_, fun r mem now => absurd now (past r mem), ?_⟩
  · intro r mem
    rw [rebooted.generation]
    exact (h.past r mem).trans (Nat.le_succ _)
  · intro i slot found
    simp only [rebooted.slots, List.getElem?_toArray, List.getElem?_map, Option.map_eq_some_iff] at found
    obtain ⟨task, -, rfl⟩ := found
    have idle : (m'.generation, i) ∉ under := by
      intro mem
      have before := older _ mem
      rw [rebooted.generation] at before
      omega
    have none : visited m'.generation i rounds = 0 := by
      rw [visited, List.countP_eq_zero]
      intro r mem
      simp [past r mem]
    simp [Slot.ofTask, idle, none]

end Tally

/-- What the counters of a state say after so many frames of its generation. -/
def State.Tallied (closed : ℕ) (s : State C) : Prop :=
  Tally closed s.machine s.roster (places s.control.underWay) s.control.rounds

theorem Sound.isActive_iff {m : Machine C} {roster : List (Routine C)} {control : Control C}
    (h : Sound ⟨m, roster, control⟩) {i : ℕ} {task : Routine C} (registered : roster[i]? = some task) :
    m.isActive i = true ↔ (m.generation, i) ∈ places control.underWay := by
  rw [Machine.isActive_iff (h.booked.lt_maxTasks registered)]
  exact h.booked.active i

theorem Sound.ready {m : Machine C} {roster : List (Routine C)} {control : Control C}
    (h : Sound ⟨m, roster, control⟩) {i : ℕ} {task : Routine C} (registered : roster[i]? = some task)
    (idle : m.isActive i = false) : m.slots[i]?.bind (·.task) = some task := by
  obtain ⟨slot, found⟩ := h.booked.exists_slot registered
  have away : (m.generation, i) ∉ places control.underWay := by
    rw [← h.isActive_iff registered, idle]
    exact Bool.false_ne_true
  rw [found, Option.bind_some, h.booked.slot i _ found]
  exact (if_neg away).trans registered

theorem State.Tallied.crash {closed : ℕ} {m : Machine C} {roster : List (Routine C)} {control control' : Control C}
    (h : State.Tallied closed ⟨m, roster, control⟩) (sound : Sound ⟨m, roster, control⟩) (cause : CrashCause)
    (tasks : control'.underWay = control.underWay) (rounds : control'.rounds = control.rounds) :
    (m.crash cause).generation = m.generation + 1 ∧ State.Tallied 0 ⟨m.crash cause, m.registered, control'⟩ := by
  have rebooted := m.rebooted_crash cause
  refine ⟨rebooted.generation, ?_⟩
  rw [State.Tallied, tasks, rounds]
  refine Tally.reboot h rebooted fun place mem => ?_
  obtain ⟨a, there, rfl⟩ := List.mem_map.mp mem
  exact sound.booked.past a there

theorem closes_ended (m : Machine C) (roster : List (Routine C)) (generation : ℕ) (visits : List (Visit C))
    (waiting : List (Waiter C)) :
    State.closes m.generation ⟨m, roster, .visiting ⟨generation, visits, []⟩ waiting⟩ = true ↔
      m.generation = generation := by
  simp only [State.closes, List.isEmpty_nil, beq_self_eq_true, Bool.true_and, beq_iff_eq]
  exact eq_comm

/-- A step closes a frame, or not, or reboots. -/
theorem Step.tallied {s s' : State C} {closed : ℕ} (step : Step s s') (sound : Sound s) (h : s.Tallied closed) :
    (s'.machine.generation = s.machine.generation ∧
        s'.Tallied (closed + if s.closes s.machine.generation then 1 else 0)) ∨
      (s'.machine.generation = s.machine.generation + 1 ∧ s'.Tallied 0) := by
  cases step with
  | change change => exact .inl ⟨rfl, h.congr (.update _ change)⟩
  | late => exact .inr (h.crash sound _ rfl rfl)
  | pass => exact .inl ⟨rfl, (h.congr (.opened _)).begin sound.booked.size⟩
  | cut rebooted => exact .inl ⟨rfl, h.cut rebooted⟩
  | @starve m _ _ _ _ _ _ =>
    obtain ⟨later, tally⟩ := h.crash sound .watchdogTimeout rfl rfl
    refine .inr ⟨later, Tally.cut tally ?_⟩
    rw [later]
    exact Nat.succ_ne_self _
  | skip fed active =>
    obtain ⟨task, registered, -⟩ := (h.planned _ List.mem_cons_self rfl).next
    exact .inl ⟨rfl, h.skip ((sound.isActive_iff registered).mp active)⟩
  | vacant fed idle empty =>
    obtain ⟨task, registered, -⟩ := (h.planned _ List.mem_cons_self rfl).next
    exact absurd ((sound.ready registered idle).symm.trans empty) nofun
  | enter fed idle ready =>
    obtain ⟨away, registered⟩ := sound.booked.of_ready ready
    exact .inl ⟨rfl, h.enter away registered⟩
  | update => exact .inl ⟨rfl, h.congr (.update _ _)⟩
  | look => exact .inl ⟨rfl, h⟩
  | crash => exact .inr (h.crash sound _ rfl rfl)
  | bark => exact .inr (h.crash sound _ rfl rfl)
  | refuse => exact .inl ⟨rfl, h.congr (.refuse _)⟩
  | @yield m _ _ _ _ _ _ =>
    have alike := Machine.Alike.deepened m
    have size := (congrArg Array.size alike.slots).trans sound.booked.size
    exact .inl ⟨alike.generation, (h.congr alike).begin size⟩
  | resume =>
    refine .inl ⟨rfl, ?_⟩
    simp only [closes_ended]
    exact h.close.congr (.surface _)
  | @leave m _ a _ =>
    have apart := (List.nodup_cons.mp sound.booked.apart).1
    exact .inl ⟨(m.leave_kept _ _ _).2.2.2, h.leave apart⟩
  | rest =>
    refine .inl ⟨rfl, ?_⟩
    simp only [closes_ended]
    exact h.close

/-- A frame that is closed in this state has carried out its plan. -/
def State.Planned (s : State C) : Prop :=
  ∀ round waiting, s.control = .visiting round waiting → s.closes s.machine.generation = true →
    round.visits = Round.plan s.roster s.machine.generation (places (waiting.map Waiter.toActivation))

theorem State.Tallied.closed {closed : ℕ} {s : State C} (h : s.Tallied closed) : s.Planned := by
  obtain ⟨m, roster, control⟩ := s
  rintro ⟨generation, visits, left⟩ waiting rfl closes
  simp only [State.closes, Bool.and_eq_true, List.isEmpty_iff, beq_iff_eq] at closes
  obtain ⟨⟨rfl, -⟩, rfl⟩ := closes
  exact (h.planned _ List.mem_cons_self rfl).complete

theorem State.generation_of_closes {generation : ℕ} {s : State C} (closes : s.closes generation = true) :
    s.machine.generation = generation := by
  rw [State.closes] at closes
  split at closes
  · simp only [Bool.and_eq_true, beq_iff_eq] at closes
    exact closes.1.2
  · cases closes

/-- The states from which the steps to a state were taken, in their order. -/
inductive Path (start : State C) : List (State C) → State C → Prop
  | nil : Path start [] start
  | snoc {path : List (State C)} {s s' : State C} (before : Path start path s) (step : Step s s') :
      Path start (path ++ [s]) s'

theorem Path.steps {path : List (State C)} {start s : State C} (taken : Path start path s) : Steps start s := by
  induction taken with
  | nil => exact .refl
  | snoc _ step ih => exact ih.tail step

theorem Path.of_steps {start s : State C} (steps : Steps start s) : ∃ path, Path start path s := by
  induction steps with
  | refl => exact ⟨[], .nil⟩
  | tail _ step ih =>
    obtain ⟨path, before⟩ := ih
    exact ⟨_, before.snoc step⟩

/-- As many visits are posted as frames of the present generation are closed on the path, and each frame that is closed
has carried out its plan. -/
structure Balanced (path : List (State C)) (s : State C) : Prop where
  sound : Sound s
  past : ∀ t ∈ path, t.machine.generation ≤ s.machine.generation
  tallied : s.Tallied (path.countP (State.closes s.machine.generation))
  planned : ∀ t ∈ path, t.Planned

namespace Balanced

theorem step {path : List (State C)} {s s' : State C} (h : Balanced path s) (step : Step s s') :
    Balanced (path ++ [s]) s' := by
  have past : ∀ t ∈ path ++ [s], t.machine.generation ≤ s.machine.generation :=
    List.forall_mem_append.mpr ⟨h.past, List.forall_mem_singleton.mpr le_rfl⟩
  have planned : ∀ t ∈ path ++ [s], t.Planned :=
    List.forall_mem_append.mpr ⟨h.planned, List.forall_mem_singleton.mpr h.tallied.closed⟩
  rcases step.tallied h.sound h.tallied with ⟨same, tallied⟩ | ⟨later, tallied⟩
  · refine ⟨h.sound.step step, same ▸ past, ?_, planned⟩
    rwa [same, List.countP_append, List.countP_singleton]
  · refine ⟨h.sound.step step, fun t mem => ?_, ?_, planned⟩
    · exact (past t mem).trans (later ▸ Nat.le_succ _)
    · have none : (path ++ [s]).countP (State.closes s'.machine.generation) = 0 := by
        rw [List.countP_eq_zero]
        intro t mem closes
        have now := State.generation_of_closes closes
        have before := past t mem
        omega
      rwa [none]

theorem start (settings : ScheduleSettings) (context : C) (clock : Clock) (crashLog : CrashLog)
    (boot : C → Boot C) : Balanced [] (.start settings context clock crashLog boot) := by
  refine ⟨.start settings context clock crashLog boot, List.forall_mem_nil _, ⟨?_, ?_, ?_⟩, List.forall_mem_nil _⟩
  · exact List.forall_mem_nil _
  · exact List.forall_mem_nil _
  · intro i slot found
    obtain ⟨_, _, started⟩ := Machine.start_eq settings context clock crashLog boot
    simp only [State.start, started, List.getElem?_toArray, List.getElem?_map, Option.map_eq_some_iff] at found
    obtain ⟨task, -, rfl⟩ := found
    rfl

theorem path {settings : ScheduleSettings} {context : C} {clock : Clock} {crashLog : CrashLog} {boot : C → Boot C}
    {path : List (State C)} {s : State C} (steps : Path (.start settings context clock crashLog boot) path s) :
    Balanced path s := by
  induction steps with
  | nil => exact .start settings context clock crashLog boot
  | snoc _ step ih => exact ih.step step

theorem even {path : List (State C)} {m : Machine C} {roster : List (Routine C)}
    (h : Balanced path ⟨m, roster, .resting⟩) {slot : Slot C} (mem : slot ∈ m.slots) :
    slot.stats.invocations + slot.stats.skipped = path.countP (State.closes m.generation) := by
  obtain ⟨i, found⟩ := Array.getElem?_of_mem mem
  have posted := h.tallied.posted i slot found
  simpa [visited, Control.rounds, Control.underWay, places] using posted

end Balanced

/-- Each frame that is begun and closed in the present generation has visited all tasks, in the order in which they were
registered, and between two passes the counters of each task add up to the number of these frames. Whichever steps the
next pass takes, it comes to what is computed for it. -/
theorem evenly_visited (settings : ScheduleSettings) (context : C) (clock : Clock) (crashLog : CrashLog)
    (boot : C → Boot C)
    (cooperative : ∀ context, ∀ task ∈ (boot context).tasks, task.body.Cooperative) (turns : List (Turn C)) :
    let start := State.start settings context clock crashLog boot
    let m := (Machine.start settings context clock crashLog boot).turns turns
    (∃ path roster, Path start path ⟨m, roster, .resting⟩) ∧
      ∀ path roster, Path start path ⟨m, roster, .resting⟩ →
        m.PassSteps roster ∧
        (∀ slot ∈ m.slots,
          slot.stats.invocations + slot.stats.skipped = path.countP (State.closes m.generation)) ∧
        ∀ s ∈ path, s.Planned := by
  have fair := Fair.start settings context clock crashLog boot cooperative
  constructor
  · obtain ⟨roster, steps⟩ := fair.steps_turns turns
    obtain ⟨path, taken⟩ := Path.of_steps steps
    exact ⟨path, roster, taken⟩
  · intro path roster taken
    have balanced := Balanced.path taken
    exact ⟨(fair.steps taken.steps).passSteps rfl, fun slot mem => balanced.even mem, balanced.planned⟩

theorem evenly_visited_rebootOnce :
    let m := (Machine.start {} false { watchdogMax := 5000 } {} rebootOnce).turns [.pass]
    m.stats = [⟨"waiter", 1, 1⟩, ⟨"worker", 2, 0⟩] ∧
      ∃ path roster, Path (.start {} false { watchdogMax := 5000 } {} rebootOnce) path ⟨m, roster, .resting⟩ ∧
        path.countP (State.closes m.generation) = 2 ∧ ∀ s ∈ path, s.Planned := by
  intro m
  have stats : m.stats = [⟨"waiter", 1, 1⟩, ⟨"worker", 2, 0⟩] := by decide +kernel
  obtain ⟨⟨path, roster, taken⟩, even⟩ :=
    evenly_visited {} false { watchdogMax := 5000 } {} rebootOnce cooperative_rebootOnce [.pass]
  obtain ⟨-, counted, planned⟩ := even path roster taken
  refine ⟨stats, path, roster, taken, ?_, planned⟩
  have waiter : ⟨"waiter", 1, 1⟩ ∈ m.stats := stats ▸ List.mem_cons_self
  obtain ⟨slot, mem, counters⟩ := List.mem_map.mp waiter
  have count := counted slot (Array.mem_toList_iff.mp mem)
  rw [counters] at count
  exact count.symm

end Floppy.Schedule
