import Floppy.Proofs.Schedule.ProgramSteps
import Floppy.Proofs.Schedule.Rounds

/-!
# A pass that yields for too long

A pass in which a task still yields after its time is reported once, and only before a reboot. The report is all that
there is to it: whatever time a pass is given, it goes through the same states, but for what is written down of the time.
-/
namespace Floppy.Schedule
variable {C : Type}

namespace State

/-- A task yields here, and the yield is neither refused nor too late for the watchdog. -/
def accepts (s : State C) : Bool :=
  match s.control with
  | .running _ (.yield _) _ => !s.machine.clock.isExpired && decide (s.machine.depth < s.machine.settings.maxNesting)
  | _ => false

/-- In this generation, a yield is accepted after the deadline. -/
def overdue (generation deadline : ℕ) (s : State C) : Bool :=
  s.accepts && s.machine.generation == generation && decide (deadline < s.machine.clock.now.toNat)

variable {generation deadline : ℕ} {s : State C}

theorem overdue_of_silent (silent : s.accepts = false) : s.overdue generation deadline = false := by
  rw [overdue, silent, Bool.false_and, Bool.false_and]

theorem overdue_of_accepts (accepts : s.accepts = true) : s.overdue generation deadline =
    (s.machine.generation == generation && decide (deadline < s.machine.clock.now.toNat)) := by
  rw [overdue, accepts, Bool.true_and]

end State

namespace Machine

theorem countYield_eq (m : Machine C) : ∃ yieldLog log, m.countYield = { m with yieldLog, log } := by
  simp only [countYield]
  split <;> split <;> exact ⟨_, _, rfl⟩

theorem deadline_deepened (m : Machine C) :
    m.deepened.yieldDeadline = (if m.yieldDeadline < m.clock.now.toNat then latestTick else m.yieldDeadline) ∧
      m.deepened.yieldTimeouts = m.yieldTimeouts + if m.yieldDeadline < m.clock.now.toNat then 1 else 0 := by
  obtain ⟨_, _, counted⟩ := m.feed.countYield_eq
  by_cases late : m.yieldDeadline < m.clock.now.toNat
  · have fed : m.feed.yieldDeadline < m.feed.clock.now.toNat := late
    simp only [deepened, counted, checkDeadline, if_pos late, if_pos fed]
    exact ⟨rfl, rfl⟩
  · have fed : ¬ m.feed.yieldDeadline < m.feed.clock.now.toNat := late
    simp only [deepened, counted, checkDeadline, if_neg late, if_neg fed]
    exact ⟨rfl, rfl⟩

end Machine

/-- What a step inside of a pass has to do with the deadline. -/
inductive Reports (s s' : State C) : Prop
  | reboot (silent : s.accepts = false) (generation : s'.machine.generation = s.machine.generation + 1)
      (deadline : s'.machine.yieldDeadline = latestTick) (timeouts : s'.machine.yieldTimeouts = s.machine.yieldTimeouts)
  | yield (accepts : s.accepts = true) (generation : s'.machine.generation = s.machine.generation)
      (deadline : s'.machine.yieldDeadline =
        if s.machine.yieldDeadline < s.machine.clock.now.toNat then latestTick else s.machine.yieldDeadline)
      (timeouts : s'.machine.yieldTimeouts =
        s.machine.yieldTimeouts + if s.machine.yieldDeadline < s.machine.clock.now.toNat then 1 else 0)
  | other (silent : s.accepts = false) (generation : s'.machine.generation = s.machine.generation)
      (deadline : s'.machine.yieldDeadline = s.machine.yieldDeadline)
      (timeouts : s'.machine.yieldTimeouts = s.machine.yieldTimeouts)

theorem Step.reports {s s' : State C} (step : Step s s') (inside : s.control ≠ .resting) : Reports s s' := by
  have crash {m : Machine C} {roster : List (Routine C)} {control control' : Control C} (cause : CrashCause)
      (silent : State.accepts ⟨m, roster, control⟩ = false) :
      Reports ⟨m, roster, control⟩ ⟨m.crash cause, m.registered, control'⟩ := by
    obtain ⟨_, eq⟩ := m.crash_eq cause
    rw [eq]
    exact .reboot silent rfl rfl rfl
  cases step with
  | change | late | pass => exact absurd rfl inside
  | cut | skip | vacant | enter | update | look | resume | rest => exact .other rfl rfl rfl rfl
  | starve => exact crash _ rfl
  | crash => exact crash _ rfl
  | bark expired => exact crash _ (by simp [State.accepts, expired])
  | refuse fed deep => exact .other (by simp [State.accepts, deep]) rfl rfl rfl
  | @yield m roster a waiting next fed room =>
    obtain ⟨deadline, timeouts⟩ := m.deadline_deepened
    exact .yield (by simp [State.accepts, fed, room]) (Machine.Alike.deepened m).generation deadline timeouts
  | @leave m roster a waiting =>
    obtain ⟨_, _, eq⟩ := m.leave_eq a.slot a.task a.round.generation
    rw [eq]
    exact .other rfl rfl rfl rfl

/-- What was reported on a path through a pass: nothing, and the deadline still stands, or the deadline was taken back
by a report or a reboot. -/
inductive Reported (generation deadline timeouts : ℕ) (path : List (State C)) (s : State C) : Prop
  | waiting (now : s.machine.generation = generation) (quiet : path.any (State.overdue generation deadline) = false)
      (count : s.machine.yieldTimeouts = timeouts) (stands : s.machine.yieldDeadline = deadline)
  | settled (later : generation ≤ s.machine.generation)
      (seen : s.machine.generation = generation → path.any (State.overdue generation deadline) = true)
      (count : s.machine.yieldTimeouts = timeouts + if path.any (State.overdue generation deadline) then 1 else 0)
      (lifted : s.machine.yieldDeadline = latestTick)

namespace Reported
variable {generation deadline timeouts : ℕ} {path : List (State C)} {start s s' : State C}

theorem any_snoc : (path ++ [s]).any (State.overdue generation deadline) =
    (path.any (State.overdue generation deadline) || s.overdue generation deadline) := by
  rw [List.any_append, List.any_cons, List.any_nil, Bool.or_false]

theorem step_waiting (reports : Reports s s') (now : s.machine.generation = generation)
    (quiet : path.any (State.overdue generation deadline) = false) (count : s.machine.yieldTimeouts = timeouts)
    (stands : s.machine.yieldDeadline = deadline) : Reported generation deadline timeouts (path ++ [s]) s' := by
  have grown := @any_snoc _ generation deadline path s
  rw [quiet, Bool.false_or] at grown
  cases reports with
  | reboot silent next lifted same =>
    rw [State.overdue_of_silent silent] at grown
    refine .settled (by omega) (fun back => by omega) ?_ lifted
    rw [grown, same, count]
    rfl
  | other silent next kept same =>
    rw [State.overdue_of_silent silent] at grown
    exact .waiting (next.trans now) grown (same.trans count) (kept.trans stands)
  | yield accepts next kept same =>
    rw [State.overdue_of_accepts accepts, now, beq_self_eq_true, Bool.true_and] at grown
    rw [stands] at kept same
    by_cases late : deadline < s.machine.clock.now.toNat
    · rw [if_pos late] at kept same
      rw [decide_eq_true late] at grown
      refine .settled (by omega) (fun _ => grown) ?_ kept
      rw [grown, same, count]
      rfl
    · rw [if_neg late] at kept same
      rw [decide_eq_false late] at grown
      exact .waiting (next.trans now) grown (same.trans count) kept

/-- No tick is later than a deadline that was taken back. -/
theorem step_settled (reports : Reports s s') (later : generation ≤ s.machine.generation)
    (seen : s.machine.generation = generation → path.any (State.overdue generation deadline) = true)
    (count : s.machine.yieldTimeouts = timeouts + if path.any (State.overdue generation deadline) then 1 else 0)
    (lifted : s.machine.yieldDeadline = latestTick) : Reported generation deadline timeouts (path ++ [s]) s' := by
  have again : (path ++ [s]).any (State.overdue generation deadline) =
      path.any (State.overdue generation deadline) := by
    rw [any_snoc]
    by_cases now : s.machine.generation = generation
    · rw [seen now, Bool.true_or]
    · rw [State.overdue, beq_eq_false_iff_ne.mpr now, Bool.and_false, Bool.false_and, Bool.or_false]
  have inTime : ¬ latestTick < s.machine.clock.now.toNat := by
    have := s.machine.clock.now.toNat_lt
    simp only [latestTick, UInt64.size]
    omega
  rw [← again] at count seen
  cases reports with
  | reboot silent next lifted' same => exact .settled (by omega) (fun back => by omega) (same.trans count) lifted'
  | other silent next kept same =>
    exact .settled (by omega) (fun now => seen (next.symm.trans now)) (same.trans count) (kept.trans lifted)
  | yield accepts next kept same =>
    rw [lifted, if_neg inTime] at kept same
    exact .settled (by omega) (fun now => seen (next.symm.trans now)) (same.trans count) kept

theorem step (h : Reported generation deadline timeouts path s) (step : Step s s') (inside : s.control ≠ .resting) :
    Reported generation deadline timeouts (path ++ [s]) s' := by
  cases h with
  | waiting now quiet count stands => exact step_waiting (step.reports inside) now quiet count stands
  | settled later seen count lifted => exact step_settled (step.reports inside) later seen count lifted

theorem along (h : Reported generation deadline timeouts [] start) (steps : Path start path s)
    (inside : ∀ t ∈ path, t.control ≠ .resting) : Reported generation deadline timeouts path s := by
  induction steps with
  | nil => exact h
  | snoc _ step ih =>
    obtain ⟨before, last⟩ := List.forall_mem_append.mp inside
    exact (ih before).step step (last _ List.mem_cons_self)

theorem timeouts_eq (h : Reported generation deadline timeouts path s) : s.machine.yieldTimeouts =
    timeouts + if path.any (State.overdue generation deadline) then 1 else 0 := by
  cases h with
  | waiting _ quiet count =>
    rw [quiet, count]
    rfl
  | settled _ _ count => exact count

end Reported

theorem Path.inner {path : List (State C)} {start s : State C} (steps : Path start path s)
    (inside : ∀ t ∈ path, t.control ≠ .resting) (active : s.control ≠ .resting) : InnerSteps start s := by
  induction steps with
  | nil => exact .refl
  | snoc _ step ih =>
    obtain ⟨before, last⟩ := List.forall_mem_append.mp inside
    exact (ih before (last _ List.mem_cons_self)).tail ⟨step, active⟩

theorem Path.of_inner {start s : State C} (steps : InnerSteps start s) (active : start.control ≠ .resting) :
    ∃ path, Path start path s ∧ ∀ t ∈ path, t.control ≠ .resting := by
  have inside : ∃ path, Path start path s ∧ ∀ t ∈ path ++ [s], t.control ≠ .resting := by
    induction steps with
    | refl => exact ⟨[], .nil, List.forall_mem_singleton.mpr active⟩
    | tail _ last ih =>
      obtain ⟨path, before, inside⟩ := ih
      exact ⟨_, before.snoc last.1, List.forall_mem_append.mpr ⟨inside, List.forall_mem_singleton.mpr last.2⟩⟩
  obtain ⟨path, taken, inside⟩ := inside
  exact ⟨path, taken, (List.forall_mem_append.mp inside).1⟩

/-- The states of a pass in their order: at first its frame is opened, and last it is at its end. -/
structure Passage (m : Machine C) (roster : List (Routine C)) (path : List (State C)) (last : State C) : Prop where
  steps : Path ⟨m.opened, roster, .visiting m.opened.round []⟩ path last
  inside : ∀ s ∈ path, s.control ≠ .resting
  ended : last.Ended

namespace Passage
variable {limit : ℕ} {m : Machine C} {roster : List (Routine C)} {path : List (State C)} {last : State C}

theorem exists_of_fair (fair : Fair limit ⟨m, roster, .resting⟩) (fed : m.clock.isExpired = false) :
    ∃ path last, Passage m roster path last := by
  rcases pass_cases fair with ⟨expired, -⟩ | ⟨-, visits, roster', steps⟩
  · exact absurd (fed.symm.trans expired) Bool.false_ne_true
  · obtain ⟨path, taken, inside⟩ := Path.of_inner steps nofun
    exact ⟨path, _, taken, inside, _, _, rfl⟩

theorem machine_eq (h : Passage m roster path last) (fair : Fair limit ⟨m, roster, .resting⟩)
    (fed : m.clock.isExpired = false) : last.machine = m.pass := by
  have active : last.control ≠ .resting := by
    obtain ⟨_, _, ended⟩ := h.ended
    rw [ended]
    nofun
  have steps := h.steps.inner h.inside active
  rcases pass_cases fair with ⟨expired, -⟩ | ⟨-, visits, roster', computed⟩
  · exact absurd (fed.symm.trans expired) Bool.false_ne_true
  · rcases Relation.ReflTransGen.total_of_right_unique Inner.rightUnique steps computed with more | more
    · rw [← h.ended.eq_of_inner more]
    · have ended : State.Ended ⟨m.pass, roster', .visiting ⟨m.generation, visits, []⟩ []⟩ := ⟨_, _, rfl⟩
      rw [ended.eq_of_inner more]

theorem reported (h : Passage m roster path last) :
    let deadline := min (m.clock.now.toNat + m.settings.yieldMax) latestTick
    Reported m.generation deadline m.yieldTimeouts path last := by
  intro deadline
  exact Reported.along (.waiting rfl rfl rfl rfl) h.steps h.inside

end Passage

namespace Machine
variable {m m' : Machine C}

/-- A machine without what is said, and without what the time of a pass leaves on it. -/
def untimed (m : Machine C) : Machine C :=
  { m with settings.yieldMax := 0, yieldDeadline := 0, yieldTimeouts := 0, log := #[] }

theorem round_untimed (m : Machine C) : m.untimed.round = m.round := rfl

theorem exists_of_untimed (same : m'.untimed = m.untimed) : ∃ yieldMax yieldDeadline yieldTimeouts log,
    m' = { m with settings.yieldMax := yieldMax, yieldDeadline, yieldTimeouts, log } := by
  refine ⟨m'.settings.yieldMax, m'.yieldDeadline, m'.yieldTimeouts, m'.log, ?_⟩
  have back (m : Machine C) : m = { m.untimed with
      settings.yieldMax := m.settings.yieldMax
      yieldDeadline := m.yieldDeadline
      yieldTimeouts := m.yieldTimeouts
      log := m.log } := rfl
  rw [back m', same]
  rfl

theorem untimed_countYield (m : Machine C) : m.countYield.untimed = m.untimed.countYield.untimed := by
  have same : m.untimed.yieldLog = m.yieldLog ∧ m.untimed.active = m.active := ⟨rfl, rfl⟩
  simp only [countYield, same]
  split <;> split <;> rfl

theorem untimed_checkDeadline (m : Machine C) : m.checkDeadline.untimed = m.untimed := by
  unfold checkDeadline
  split <;> rfl

theorem untimed_deepened (same : m'.untimed = m.untimed) : m'.deepened.untimed = m.deepened.untimed := by
  have deeper (m : Machine C) : m.deepened.untimed =
      { m.untimed.feed.countYield.untimed with depth := m.untimed.feed.countYield.untimed.depth + 1 } := by
    have checked : m.feed.countYield.checkDeadline.untimed = m.untimed.feed.countYield.untimed :=
      (untimed_checkDeadline _).trans (untimed_countYield m.feed)
    rw [← checked]
    rfl
  rw [deeper, deeper, same]

theorem untimed_crash (same : m'.untimed = m.untimed) (cause : CrashCause) :
    (m'.crash cause).untimed = (m.crash cause).untimed := by
  obtain ⟨_, eq⟩ := m.crash_eq cause
  obtain ⟨_, eq'⟩ := m'.crash_eq cause
  rw [eq, eq']
  obtain ⟨_, _, _, _, rfl⟩ := exists_of_untimed same
  rfl

theorem untimed_leave (same : m'.untimed = m.untimed) (i : ℕ) (task : Routine C) (generation : ℕ) :
    (m'.leave i task generation).untimed = (m.leave i task generation).untimed := by
  obtain ⟨_, _, _, _, rfl⟩ := exists_of_untimed same
  unfold leave
  split <;> rfl

end Machine

/-- A state without what the time of a pass leaves on its machine. -/
def State.untimed (s : State C) : State C := { s with machine := s.machine.untimed }

theorem State.untimed_congr {m m' : Machine C} {roster : List (Routine C)} {control : Control C}
    (same : m'.untimed = m.untimed) : State.untimed ⟨m', roster, control⟩ = State.untimed ⟨m, roster, control⟩ := by
  rw [State.untimed, State.untimed, same]

/-- The time of a pass decides nothing: what can be done is done with any other time as well. -/
theorem Step.untimed {m m' : Machine C} {roster : List (Routine C)} {control : Control C} {s : State C}
    (step : Step ⟨m, roster, control⟩ s) (same : m'.untimed = m.untimed) :
    ∃ s', Step ⟨m', roster, control⟩ s' ∧ s'.untimed = s.untimed := by
  have crash (cause : CrashCause) {roster : List (Routine C)} {control : Control C} :=
    @State.untimed_congr _ _ _ roster control (Machine.untimed_crash same cause)
  have deeper := Machine.untimed_deepened same
  have round : m'.deepened.round = m.deepened.round := by
    rw [← Machine.round_untimed, deeper, Machine.round_untimed]
  have left (a : Activation C) := Machine.untimed_leave same a.slot a.task a.round.generation
  obtain ⟨_, _, _, _, rfl⟩ := Machine.exists_of_untimed same
  cases step with
  | change change => exact ⟨_, .change change, rfl⟩
  | late expired => exact ⟨_, .late expired, crash _⟩
  | pass fed => exact ⟨_, .pass fed, rfl⟩
  | cut rebooted => exact ⟨_, .cut rebooted, rfl⟩
  | starve expired => exact ⟨_, .starve expired, crash _⟩
  | skip fed active => exact ⟨_, .skip fed active, rfl⟩
  | vacant fed idle empty => exact ⟨_, .vacant fed idle empty, rfl⟩
  | enter fed idle ready => exact ⟨_, .enter fed idle ready, rfl⟩
  | update => exact ⟨_, .update, rfl⟩
  | look => exact ⟨_, .look, rfl⟩
  | crash => exact ⟨_, .crash, crash _⟩
  | bark expired => exact ⟨_, .bark expired, crash _⟩
  | refuse fed deep => exact ⟨_, .refuse fed deep, rfl⟩
  | yield fed room =>
    refine ⟨_, .yield fed room, ?_⟩
    rw [round]
    exact State.untimed_congr deeper
  | resume => exact ⟨_, .resume, rfl⟩
  | leave => exact ⟨_, .leave, State.untimed_congr (left _)⟩
  | rest => exact ⟨_, .rest, rfl⟩

theorem Path.untimed {start start' s : State C} {path : List (State C)} (steps : Path start path s)
    (same : start'.untimed = start.untimed) : ∃ path' s', Path start' path' s' ∧
      path'.map State.untimed = path.map State.untimed ∧ s'.untimed = s.untimed := by
  induction steps with
  | nil => exact ⟨[], start', .nil, rfl, same⟩
  | @snoc path s t before step ih =>
    obtain ⟨path', s', before', paths, now⟩ := ih
    obtain ⟨m, roster, control⟩ := s
    obtain ⟨m', roster', control'⟩ := s'
    obtain rfl : roster' = roster := congrArg State.roster now
    obtain rfl : control' = control := congrArg State.control now
    obtain ⟨t', step', later⟩ := step.untimed (congrArg State.machine now)
    refine ⟨_, t', before'.snoc step', ?_, later⟩
    rw [List.map_append, List.map_append, paths, List.map_singleton, List.map_singleton, now]

/-- With any other time the pass goes through the same states. -/
theorem Passage.untimed {m m' : Machine C} {roster : List (Routine C)} {path : List (State C)} {last : State C}
    (h : Passage m roster path last) (same : m'.untimed = m.untimed) : ∃ path' last', Passage m' roster path' last' ∧
      path'.map State.untimed = path.map State.untimed ∧ last'.untimed = last.untimed := by
  have opened : State.untimed ⟨m'.opened, roster, .visiting m'.opened.round []⟩ =
      State.untimed ⟨m.opened, roster, .visiting m.opened.round []⟩ := by
    obtain ⟨_, _, _, _, rfl⟩ := Machine.exists_of_untimed same
    rfl
  obtain ⟨path', last', steps, paths, lasts⟩ := h.steps.untimed opened
  refine ⟨path', last', ⟨steps, ?_, ?_⟩, paths, lasts⟩
  · intro s' mem
    have there : s'.untimed ∈ path.map State.untimed := paths ▸ List.mem_map_of_mem mem
    obtain ⟨s, mem, alike⟩ := List.mem_map.mp there
    have active := h.inside s mem
    exact fun rests => active ((congrArg State.control alike).trans rests)
  · obtain ⟨generation, visits, ended⟩ := h.ended
    exact ⟨generation, visits, (congrArg State.control lasts).trans ended⟩

def Machine.retime (m : Machine C) (yieldMax : ℕ) : Machine C := { m with settings.yieldMax := yieldMax }

theorem Machine.untimed_retime (m : Machine C) (yieldMax : ℕ) : (m.retime yieldMax).untimed = m.untimed := rfl

theorem Fair.retime {limit : ℕ} {m : Machine C} {roster : List (Routine C)} {control : Control C}
    (h : Fair limit ⟨m, roster, control⟩) (yieldMax : ℕ) : Fair limit ⟨m.retime yieldMax, roster, control⟩ where
  sound := ⟨{ h.sound.booked with }, h.sound.depth, h.sound.nesting⟩
  settings := h.settings
  boot := h.boot
  roster := h.roster

/-- A pass that does not reboot at once is reported if a yield is accepted after its time and before a reboot, and it is
reported once. With any other time the pass does the same, but for what it reports. -/
theorem reported_once (settings : ScheduleSettings) (context : C) (clock : Clock) (crashLog : CrashLog)
    (boot : C → Boot C) (cooperative : ∀ context, ∀ task ∈ (boot context).tasks, task.body.Cooperative) :
    let start := State.start settings context clock crashLog boot
    (∀ turns, ∃ roster, Steps start
      ⟨(Machine.start settings context clock crashLog boot).turns turns, roster, .resting⟩) ∧
    ∀ m roster, Steps start ⟨m, roster, .resting⟩ → m.clock.isExpired = false →
      let deadline := min (m.clock.now.toNat + m.settings.yieldMax) latestTick
      (∃ path last, Passage m roster path last) ∧ ∀ path last, Passage m roster path last →
        last.machine = m.pass ∧
        m.pass.yieldTimeouts =
          m.yieldTimeouts + (if path.any (State.overdue m.generation deadline) then 1 else 0) ∧
        ∀ yieldMax, (m.retime yieldMax).pass.untimed = m.pass.untimed ∧
          ∃ path' last', Passage (m.retime yieldMax) roster path' last' ∧
            path'.map State.untimed = path.map State.untimed := by
  have fair := Fair.start settings context clock crashLog boot cooperative
  refine ⟨fair.steps_turns, fun m roster steps fed => ?_⟩
  have fairly := fair.steps steps
  refine ⟨Passage.exists_of_fair fairly fed, fun path last passage => ?_⟩
  have pass := passage.machine_eq fairly fed
  refine ⟨pass, ?_, fun yieldMax => ?_⟩
  · rw [← pass]
    exact passage.reported.timeouts_eq
  · obtain ⟨path', last', passage', paths, lasts⟩ := passage.untimed (m.untimed_retime yieldMax)
    have pass' := passage'.machine_eq (fairly.retime yieldMax) fed
    rw [← pass', ← pass]
    exact ⟨congrArg State.machine lasts, path', last', passage', paths⟩

/-- A task that is slow and yields often, so that the watchdog is fed. -/
def polite : ℕ → Program Unit
  | 0 => .done
  | times + 1 => .update (fun _ => { context := (), ticks := 3000 }) (.yield fun _ => polite times)

theorem cooperative_polite (times : ℕ) : (polite times).Cooperative := by
  induction times with
  | zero => trivial
  | succ times ih => exact fun _ => ih

/-- Four yields after the time, and one report. With more time there is none, and nothing else is different. -/
theorem reported_once_polite :
    let boot (_ : Unit) : Boot Unit := { context := (), tasks := [⟨"polite", polite 4⟩, ⟨"other", .done⟩] }
    let m := Machine.start {} () { watchdogMax := 5000 } {} boot
    (m.yieldTimeouts = 0 ∧ m.pass.yieldTimeouts = 1 ∧ (m.retime 12000).pass.yieldTimeouts = 0) ∧
      (m.retime 12000).pass.untimed = m.pass.untimed ∧
      ∃ path last, Passage m (boot ()).tasks path last ∧ path.any (State.overdue 0 1000) = true := by
  intro boot m
  have counts : m.yieldTimeouts = 0 ∧ m.pass.yieldTimeouts = 1 ∧ (m.retime 12000).pass.yieldTimeouts = 0 := by
    decide +kernel
  have cooperative : ∀ context, ∀ task ∈ (boot context).tasks, task.body.Cooperative := by
    intro context
    simp [boot, cooperative_polite, Program.Cooperative]
  obtain ⟨-, passes⟩ := reported_once {} () { watchdogMax := 5000 } {} boot cooperative
  obtain ⟨⟨path, last, passage⟩, each⟩ := passes m (boot ()).tasks .refl (by decide)
  obtain ⟨-, count, others⟩ := each path last passage
  refine ⟨counts, (others 12000).1, path, last, passage, ?_⟩
  have generation : m.generation = 0 := by decide
  have deadline : min (m.clock.now.toNat + m.settings.yieldMax) latestTick = 1000 := by decide
  rw [counts.2.1, counts.1, generation, deadline] at count
  by_contra none
  rw [if_neg none] at count
  exact absurd count (by decide)

end Floppy.Schedule
