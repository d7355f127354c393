import Floppy.Proofs.Schedule.CrashRecords
import Floppy.Proofs.Schedule.Moves

/-!
# When the watchdog fires

Ticks may pass at any moment. Beside the state stands the number of ticks since the watchdog was fed last, and the
moves of the system are told apart by what they make of it: the system looks at the watchdog, or it does not, and where
it looks it reboots, feeds the watchdog, or goes on without doing so.
-/
namespace Floppy.Schedule
variable {C : Type}

/-- The program lets others run by yielding alone, and reboots the system only by asking for it. -/
def Program.Orderly : Program C → Prop
  | .done => True
  | .update _ next => next.Orderly
  | .look next => ∀ view, (next view).Orderly
  | .yield next => ∀ same, (next same).Orderly
  | .runOthers _ => False
  | .crash cause next => cause = .requested ∧ next.Orderly

namespace Program

theorem hereditary_orderly : Hereditary (Orderly (C := C)) where
  update h := h
  look h := h
  yield h := h
  crash h := h.2

theorem Orderly.cooperative {program : Program C} (h : program.Orderly) : program.Cooperative := by
  induction program with
  | done => trivial
  | update _ _ ih => exact ih h
  | look _ ih => exact fun view => ih view (h view)
  | yield _ ih => exact fun same => ih same (h same)
  | runOthers => exact h.elim
  | crash _ _ ih => exact ih h.2

end Program

namespace Clock

theorem toNat_tick {clock : Clock} {ticks : ℕ} (few : clock.elapsed.toNat + ticks < UInt32.size) :
    (clock.tick ticks).elapsed.toNat = clock.elapsed.toNat + ticks := by
  have size : UInt32.size = 2 ^ 32 := rfl
  rw [tick, UInt32.toNat_add, UInt32.toNat_ofNat', Nat.add_mod_mod, Nat.mod_eq_of_lt (size ▸ few)]

theorem isExpired_iff (clock : Clock) : clock.isExpired = true ↔ clock.watchdogMax.toNat < clock.elapsed.toNat := by
  rw [isExpired, decide_eq_true_iff, UInt32.lt_iff_toNat_lt]

end Clock

theorem Machine.crash_ne (m : Machine C) : m.crash .requested ≠ m.crash .watchdogTimeout := by
  intro same
  obtain ⟨said, requested⟩ := m.crash_eq .requested
  obtain ⟨said', timeout⟩ := m.crash_eq .watchdogTimeout
  have logs := congrArg (fun m => m.log.toList) (requested.symm.trans (same.trans timeout))
  have entries : (m.crashRecord .requested).text = (m.crashRecord .watchdogTimeout).text ∧ said = said' := by
    simpa using logs
  simp [crashRecord, CrashRecord.text, CrashCause.text] at entries

theorem Clock.tick_zero (clock : Clock) : clock.tick 0 = clock := by
  simp [Clock.tick]

namespace State

/-- Here the system looks whether the watchdog was fed in time: when it enters a pass, when a frame of this generation
comes to a slot, and when a task yields. -/
def Looks (s : State C) : Prop :=
  match s.control with
  | .resting => True
  | .visiting round _ => round.generation = s.machine.generation ∧ round.left ≠ []
  | .running _ (.yield _) _ => True
  | .running _ _ _ => False

/-- The ticks that pass while a task changes the context. -/
def ticks (s : State C) : ℕ :=
  match s.control with
  | .running _ (.update change _) _ => (change s.machine.context).ticks
  | _ => 0

/-- The move reboots the system, enters a pass, or accepts a yield. -/
def Feeds (s s' : State C) : Prop :=
  s'.machine.generation ≠ s.machine.generation ∨ (s.control = .resting ∧ s'.control ≠ .resting) ∨
    s.control.waiting.length < s'.control.waiting.length

end State

/-- The system has not rebooted. -/
structure Machine.Lasts (m m' : Machine C) : Prop where
  generation : m'.generation = m.generation
  reboots : m'.reboots = m.reboots
  crashLog : m'.crashLog = m.crashLog

/-- What a move has to do with the watchdog. -/
inductive Beat (s s' : State C) : Prop
  | bark (looks : s.Looks) (expired : s.machine.clock.isExpired = true)
      (reboots : s'.machine = s.machine.crash .watchdogTimeout)
  | feed (looks : s.Looks) (inTime : s.machine.clock.isExpired = false) (feeds : s.Feeds s')
      (lasts : s.machine.Lasts s'.machine) (clock : s'.machine.clock = s.machine.clock.feed)
  | glance (looks : s.Looks) (inTime : s.machine.clock.isExpired = false) (starves : ¬ s.Feeds s')
      (lasts : s.machine.Lasts s'.machine) (clock : s'.machine.clock = s.machine.clock.tick s.ticks)
  | blind (busy : ¬ s.Looks) (starves : ¬ s.Feeds s') (lasts : s.machine.Lasts s'.machine)
      (clock : s'.machine.clock = s.machine.clock.tick s.ticks)
  | ask (busy : ¬ s.Looks) (reboots : s'.machine = s.machine.crash .requested)

theorem State.not_feeds {m m' : Machine C} {roster roster' : List (Routine C)} {control control' : Control C}
    (same : m'.generation = m.generation) (inside : control ≠ .resting)
    (waiting : control'.waiting.length ≤ control.waiting.length) :
    ¬ State.Feeds ⟨m, roster, control⟩ ⟨m', roster', control'⟩ := by
  rintro (rebooted | ⟨resting, -⟩ | deeper)
  · exact rebooted same
  · exact inside resting
  · exact Nat.not_lt.mpr waiting deeper

theorem Moves.beat {s s' : State C} (moves : Moves s s') (orderly : s.Only Program.Orderly) : Beat s s' := by
  obtain ⟨step, leaves⟩ := moves
  cases step with
  | change => exact absurd rfl (leaves rfl rfl)
  | late expired => exact .bark trivial expired rfl
  | pass fed => exact .feed trivial fed (.inr (.inl ⟨rfl, nofun⟩)) ⟨rfl, rfl, rfl⟩ rfl
  | cut rebooted =>
    refine .blind (fun looks => rebooted looks.1.symm) (State.not_feeds rfl nofun le_rfl) ⟨rfl, rfl, rfl⟩ ?_
    exact (Clock.tick_zero _).symm
  | starve expired => exact .bark ⟨rfl, List.cons_ne_nil _ _⟩ expired rfl
  | skip fed | vacant fed | enter fed =>
    refine .glance ⟨rfl, List.cons_ne_nil _ _⟩ fed (State.not_feeds rfl nofun le_rfl) ⟨rfl, rfl, rfl⟩ ?_
    exact (Clock.tick_zero _).symm
  | update => exact .blind id (State.not_feeds rfl nofun le_rfl) ⟨rfl, rfl, rfl⟩ rfl
  | look =>
    refine .blind id (State.not_feeds rfl nofun le_rfl) ⟨rfl, rfl, rfl⟩ ?_
    exact (Clock.tick_zero _).symm
  | crash =>
    obtain ⟨rfl, -⟩ := orderly.current _ _ _ rfl
    exact .ask id rfl
  | bark expired => exact .bark trivial expired rfl
  | refuse fed =>
    refine .glance trivial fed (State.not_feeds rfl nofun le_rfl) ⟨rfl, rfl, rfl⟩ ?_
    exact (Clock.tick_zero _).symm
  | @yield m _ _ _ _ fed _ =>
    obtain ⟨_, _, _, _, eq⟩ := m.deepened_eq
    refine .feed trivial fed (.inr (.inr (Nat.lt_succ_self _))) ?_ ?_
    · rw [eq]
      exact ⟨rfl, rfl, rfl⟩
    · rw [eq]
  | resume =>
    refine .blind (fun looks => looks.2 rfl) (State.not_feeds rfl nofun (Nat.le_succ _)) ⟨rfl, rfl, rfl⟩ ?_
    exact (Clock.tick_zero _).symm
  | @leave m _ a _ =>
    obtain ⟨_, _, eq⟩ := m.leave_eq a.slot a.task a.round.generation
    rw [eq]
    refine .blind id (State.not_feeds rfl nofun le_rfl) ⟨rfl, rfl, rfl⟩ ?_
    exact (Clock.tick_zero _).symm
  | rest =>
    refine .blind (fun looks => looks.2 rfl) (State.not_feeds rfl nofun le_rfl) ⟨rfl, rfl, rfl⟩ ?_
    exact (Clock.tick_zero _).symm

/-- Whatever the system is at, it goes on. -/
theorem exists_moves {s : State C} (orderly : s.Only Program.Orderly) : ∃ s', Moves s s' := by
  obtain ⟨m, roster, control⟩ := s
  cases control with
  | resting =>
    rcases expired : m.clock.isExpired with _ | _
    · exact ⟨_, .pass expired, fun _ => nofun⟩
    · refine ⟨_, .late expired, fun _ _ => ?_⟩
      rw [(m.rebooted_crash _).generation]
      exact Nat.succ_ne_self _
  | visiting round waiting =>
    obtain ⟨generation, visits, _ | ⟨i, left⟩⟩ := round
    · cases waiting with
      | nil => exact ⟨_, .rest, nofun⟩
      | cons => exact ⟨_, .resume, nofun⟩
    by_cases rebooted : m.generation ≠ generation
    · exact ⟨_, .cut rebooted, nofun⟩
    obtain rfl : m.generation = generation := not_not.mp rebooted
    rcases expired : m.clock.isExpired with _ | _
    · rcases active : m.isActive i with _ | _
      · rcases ready : m.slots[i]?.bind (·.task) with _ | task
        · exact ⟨_, .vacant expired active ready, nofun⟩
        · exact ⟨_, .enter expired active ready, nofun⟩
      · exact ⟨_, .skip expired active, nofun⟩
    · exact ⟨_, .starve expired, nofun⟩
  | running a program waiting =>
    cases program with
    | done => exact ⟨_, .leave, nofun⟩
    | update => exact ⟨_, .update, nofun⟩
    | look => exact ⟨_, .look, nofun⟩
    | yield =>
      rcases expired : m.clock.isExpired with _ | _
      · rcases Nat.lt_or_ge m.depth m.settings.maxNesting with shallow | deep
        · exact ⟨_, .yield expired shallow, nofun⟩
        · exact ⟨_, .refuse expired deep, nofun⟩
      · exact ⟨_, .bark expired, nofun⟩
    | runOthers => exact (orderly.current _ _ _ rfl).elim
    | crash => exact ⟨_, .crash, nofun⟩

/-- A state, and the ticks since the watchdog was fed. -/
structure Clocked (C : Type) where
  state : State C
  since : ℕ := 0

/-- What happens while the time passes. -/
inductive Passes : Clocked C → Clocked C → Prop
  /-- The timer ticks, whatever the system is at. -/
  | tick {m : Machine C} {roster : List (Routine C)} {control : Control C} {since : ℕ} (ticks : ℕ) :
      Passes ⟨⟨m, roster, control⟩, since⟩ ⟨⟨m.tick ticks, roster, control⟩, since + ticks⟩
  | change {m : Machine C} {roster : List (Routine C)} {since : ℕ} (change : C → Effect C) :
      Passes ⟨⟨m, roster, .resting⟩, since⟩ ⟨⟨m.update change, roster, .resting⟩, since + (change m.context).ticks⟩
  | feed {s s' : State C} {since : ℕ} (moves : Moves s s') (feeds : s.Feeds s') : Passes ⟨s, since⟩ ⟨s', 0⟩
  | starve {s s' : State C} {since : ℕ} (moves : Moves s s') (starves : ¬ s.Feeds s') :
      Passes ⟨s, since⟩ ⟨s', since + s.ticks⟩

/-- Before the watchdog is fed again fewer ticks pass than it can count. -/
def Timely (c c' : Clocked C) : Prop := Passes c c' ∧ c'.since < UInt32.size

/-- What has happened, and the longest time that the watchdog was left without being fed. -/
inductive Run (start : Clocked C) : ℕ → Clocked C → Prop
  | none : Run start start.since start
  | more {longest : ℕ} {c c' : Clocked C} (before : Run start longest c) (passes : Passes c c') :
      Run start (max longest c'.since) c'

theorem Run.timely {start c : Clocked C} {longest : ℕ} (run : Run start longest c) (few : longest < UInt32.size) :
    Relation.ReflTransGen Timely start c := by
  induction run with
  | none => exact .refl
  | more _ passes ih =>
    obtain ⟨before, now⟩ := max_lt_iff.mp few
    exact (ih before).tail ⟨passes, now⟩

/-- The watchdog is not fed. -/
def Starves (c c' : Clocked C) : Prop := Timely c c' ∧ ¬ c.state.Feeds c'.state

/-- So many yields were refused, with ticks after each of them, and the watchdog has not been fed since. -/
inductive Refused (c : Clocked C) : ℕ → Clocked C → Prop
  | none : Refused c 0 c
  | more {turns since : ℕ} {m : Machine C} {roster : List (Routine C)} {a : Activation C} {next : Bool → Program C}
      {waiting : List (Waiter C)} {d : Clocked C}
      (before : Refused c turns ⟨⟨m, roster, .running a (.yield next) waiting⟩, since⟩)
      (inTime : m.clock.isExpired = false) (deep : m.settings.maxNesting ≤ m.depth)
      (rest : Relation.ReflTransGen Starves ⟨⟨m.refuse, roster, .running a (next true) waiting⟩, since⟩ d)
      (ticked : since < d.since) : Refused c (turns + 1) d

/-- Each reboot has left a record, and nothing else has. -/
def Recorded (log : CrashLog) (m : Machine C) : Prop :=
  ∃ records, log.Gains records m.crashLog ∧ records.length = m.generation

namespace Recorded
variable {log : CrashLog} {m m' : Machine C}

theorem lasts (h : Recorded log m) (lasts : m.Lasts m') : Recorded log m' := by
  rw [Recorded, lasts.crashLog, lasts.generation]
  exact h

theorem crash (h : Recorded log m) (cause : CrashCause) : Recorded log (m.crash cause) := by
  obtain ⟨_, eq⟩ := m.crash_eq cause
  obtain ⟨records, gains, many⟩ := h
  rw [eq]
  refine ⟨records ++ [m.crashRecord cause], gains.trans (.record _ _), ?_⟩
  rw [List.length_append, many]
  rfl

end Recorded

/-- The watchdog counts the ticks since it was fed. -/
structure Watched (limit : ℕ) (max : UInt32) (c : Clocked C) : Prop where
  fair : Fair limit c.state
  orderly : c.state.Only Program.Orderly
  max : c.state.machine.clock.watchdogMax = max
  elapsed : c.state.machine.clock.elapsed.toNat = c.since
  reboots : c.state.machine.reboots = .ofNat c.state.machine.generation

namespace Watched
variable {limit : ℕ} {max : UInt32} {c c' : Clocked C}

theorem isExpired_iff (h : Watched limit max c) :
    c.state.machine.clock.isExpired = true ↔ max.toNat < c.since := by
  rw [Clock.isExpired_iff, h.max, h.elapsed]

theorem of_feeds {s s' : State C} {since : ℕ} (h : Watched limit max ⟨s, since⟩) (moves : Moves s s')
    (feeds : s.Feeds s') : Watched limit max ⟨s', 0⟩ := by
  have fair := h.fair.step moves.1
  have orderly := h.orderly.step Program.hereditary_orderly h.fair.sound moves.1
  have crash (cause : CrashCause) (reboots : s'.machine = s.machine.crash cause) : Watched limit max ⟨s', 0⟩ := by
    obtain ⟨_, eq⟩ := s.machine.crash_eq cause
    refine ⟨fair, orderly, ?_, ?_, ?_⟩ <;> simp only [reboots, eq]
    exacts [h.max, rfl, (congrArg (· + 1) h.reboots).trans (UInt32.ofNat_add _ 1).symm]
  cases moves.beat h.orderly with
  | bark _ _ reboots => exact crash _ reboots
  | ask _ reboots => exact crash _ reboots
  | feed _ _ _ lasts clock =>
    refine ⟨fair, orderly, ?_, ?_, ?_⟩
    · exact (congrArg Clock.watchdogMax clock).trans h.max
    · exact congrArg (fun clock => clock.elapsed.toNat) clock
    · exact lasts.reboots.trans (h.reboots.trans (congrArg UInt32.ofNat lasts.generation.symm))
  | glance _ _ starves | blind _ starves => exact absurd feeds starves

theorem of_starves {s s' : State C} {since : ℕ} (h : Watched limit max ⟨s, since⟩) (moves : Moves s s')
    (starves : ¬ s.Feeds s') (few : since + s.ticks < UInt32.size) : Watched limit max ⟨s', since + s.ticks⟩ := by
  have rebooted (cause : CrashCause) (reboots : s'.machine = s.machine.crash cause) : s.Feeds s' := by
    refine .inl ?_
    rw [reboots, (s.machine.rebooted_crash cause).generation]
    exact Nat.succ_ne_self _
  have quiet (lasts : s.machine.Lasts s'.machine) (clock : s'.machine.clock = s.machine.clock.tick s.ticks) :
      Watched limit max ⟨s', since + s.ticks⟩ := by
    refine ⟨h.fair.step moves.1, h.orderly.step Program.hereditary_orderly h.fair.sound moves.1, ?_, ?_, ?_⟩
    · exact (congrArg Clock.watchdogMax clock).trans h.max
    · have elapsed : s.machine.clock.elapsed.toNat = since := h.elapsed
      show s'.machine.clock.elapsed.toNat = since + s.ticks
      rw [clock, Clock.toNat_tick (elapsed ▸ few), elapsed]
    · exact lasts.reboots.trans (h.reboots.trans (congrArg UInt32.ofNat lasts.generation.symm))
  cases moves.beat h.orderly with
  | bark _ _ reboots => exact absurd (rebooted _ reboots) starves
  | ask _ reboots => exact absurd (rebooted _ reboots) starves
  | feed _ _ feeds => exact absurd feeds starves
  | glance _ _ _ lasts clock => exact quiet lasts clock
  | blind _ _ lasts clock => exact quiet lasts clock

theorem of_ticks {m m' : Machine C} {roster : List (Routine C)} {control : Control C} {since ticks : ℕ}
    (h : Watched limit max ⟨⟨m, roster, control⟩, since⟩) (alike : m.Alike m') (depth : m'.depth = m.depth)
    (lasts : m.Lasts m') (clock : m'.clock = m.clock.tick ticks) (few : since + ticks < UInt32.size) :
    Watched limit max ⟨⟨m', roster, control⟩, since + ticks⟩ := by
  have elapsed : m.clock.elapsed.toNat = since := h.elapsed
  refine ⟨h.fair.congr alike depth, h.orderly.congr alike.boot, ?_, ?_, ?_⟩
  · exact (congrArg Clock.watchdogMax clock).trans h.max
  · show m'.clock.elapsed.toNat = since + ticks
    rw [clock, Clock.toNat_tick (elapsed ▸ few), elapsed]
  · exact lasts.reboots.trans (h.reboots.trans (congrArg UInt32.ofNat lasts.generation.symm))

theorem timely (h : Watched limit max c) (timely : Timely c c') : Watched limit max c' := by
  obtain ⟨passes, few⟩ := timely
  cases passes with
  | tick => exact h.of_ticks ⟨rfl, rfl, rfl, rfl, rfl⟩ rfl ⟨rfl, rfl, rfl⟩ rfl few
  | change => exact h.of_ticks (.update _ _) rfl ⟨rfl, rfl, rfl⟩ rfl few
  | feed moves feeds => exact h.of_feeds moves feeds
  | starve moves starves => exact h.of_starves moves starves few

theorem runs (h : Watched limit max c) (runs : Relation.ReflTransGen Timely c c') : Watched limit max c' := by
  induction runs with
  | refl => exact h
  | tail _ last ih => exact ih.timely last

theorem start (settings : ScheduleSettings) (context : C) (clock : Clock) (crashLog : CrashLog) (boot : C → Boot C)
    (orderly : ∀ context, ∀ task ∈ (boot context).tasks, task.body.Orderly) :
    Watched settings.maxNesting clock.watchdogMax ⟨.start settings context clock crashLog boot, 0⟩ := by
  obtain ⟨_, _, started⟩ := Machine.start_eq settings context clock crashLog boot
  have cooperative := fun context task mem => (orderly context task mem).cooperative
  refine ⟨.start settings context clock crashLog boot cooperative, .start orderly, ?_, ?_, ?_⟩ <;>
    simp only [State.start, started] <;> rfl

/-- Where the system looks, and only there, it finds out whether the watchdog was fed in time. -/
theorem fires_iff (h : Watched limit max c) {s' : State C} (moves : Moves c.state s') :
    s'.machine = c.state.machine.crash .watchdogTimeout ↔ c.state.Looks ∧ max.toNat < c.since := by
  have lasting (lasts : c.state.machine.Lasts s'.machine) :
      s'.machine ≠ c.state.machine.crash .watchdogTimeout := by
    intro reboots
    have later := (c.state.machine.rebooted_crash .watchdogTimeout).generation
    rw [← reboots, lasts.generation] at later
    exact Nat.succ_ne_self _ later.symm
  rw [← h.isExpired_iff]
  cases moves.beat h.orderly with
  | bark looks expired reboots => exact ⟨fun _ => ⟨looks, expired⟩, fun _ => reboots⟩
  | feed _ inTime _ lasts | glance _ inTime _ lasts =>
    exact ⟨fun reboots => absurd reboots (lasting lasts), fun late => absurd (inTime.symm.trans late.2) nofun⟩
  | blind busy _ lasts => exact ⟨fun reboots => absurd reboots (lasting lasts), fun late => absurd late.1 busy⟩
  | ask busy asked =>
    exact ⟨fun reboots => absurd (asked.symm.trans reboots) (Machine.crash_ne _), fun late => absurd late.1 busy⟩

/-- Each refused turn takes a tick at least, and none is refused once the time is over. -/
theorem refused (h : Watched limit max c) {turns : ℕ} {d : Clocked C} (refused : Refused c turns d) :
    Relation.ReflTransGen Timely c d ∧ turns ≤ d.since ∧ turns ≤ max.toNat + 1 := by
  induction refused with
  | none => exact ⟨.refl, Nat.zero_le _, Nat.zero_le _⟩
  | @more turns since m roster a next waiting d before inTime deep rest ticked ih =>
    obtain ⟨reached, many, -⟩ := ih
    have early : since ≤ max.toNat := by
      by_contra late
      exact absurd (inTime.symm.trans ((h.runs reached).isExpired_iff.mpr (Nat.not_le.mp late))) nofun
    have starved : ¬ State.Feeds ⟨m, roster, .running a (.yield next) waiting⟩
        ⟨m.refuse, roster, .running a (next true) waiting⟩ := State.not_feeds rfl nofun le_rfl
    have few : since < UInt32.size := early.trans_lt max.toNat_lt
    have turn : Timely ⟨⟨m, roster, .running a (.yield next) waiting⟩, since⟩
        ⟨⟨m.refuse, roster, .running a (next true) waiting⟩, since⟩ :=
      ⟨.starve ⟨.refuse inTime deep, nofun⟩ starved, few⟩
    have after := Relation.ReflTransGen.mono (fun _ _ => And.left) _ _ rest
    have more : turns ≤ since := many
    exact ⟨(reached.tail turn).trans after, by omega, by omega⟩

end Watched

theorem Beat.lasts_or_crash {s s' : State C} (beat : Beat s s') :
    s.machine.Lasts s'.machine ∨ ∃ cause, s'.machine = s.machine.crash cause := by
  cases beat with
  | bark _ _ reboots => exact .inr ⟨_, reboots⟩
  | ask _ reboots => exact .inr ⟨_, reboots⟩
  | feed _ _ _ lasts | glance _ _ _ lasts | blind _ _ lasts => exact .inl lasts

theorem Recorded.runs {limit : ℕ} {max : UInt32} {log : CrashLog} {c c' : Clocked C}
    (h : Recorded log c.state.machine) (watched : Watched limit max c) (runs : Relation.ReflTransGen Timely c c') :
    Recorded log c'.state.machine := by
  induction runs with
  | refl => exact h
  | @tail d d' before last ih =>
    have orderly := (watched.runs before).orderly
    have moved (s : State C) (moves : Moves d.state s) : Recorded log s.machine := by
      rcases (moves.beat orderly).lasts_or_crash with lasts | ⟨cause, reboots⟩
      · exact ih.lasts lasts
      · exact reboots ▸ ih.crash cause
    obtain ⟨passes, -⟩ := last
    cases passes with
    | tick => exact ih.lasts ⟨rfl, rfl, rfl⟩
    | change => exact ih.lasts ⟨rfl, rfl, rfl⟩
    | feed moves => exact moved _ moves
    | starve moves => exact moved _ moves

/-- What the machine becomes by a reboot with one record. -/
structure Machine.Records (m : Machine C) (cause : CrashCause) (m' : Machine C) : Prop where
  crash : m' = m.crash cause
  generation : m'.generation = m.generation + 1
  reboots : m'.reboots = m.reboots + 1
  crashLog : m.crashLog.Gains [m.crashRecord cause] m'.crashLog

theorem Machine.records_crash (m : Machine C) (cause : CrashCause) : m.Records cause (m.crash cause) := by
  obtain ⟨_, eq⟩ := m.crash_eq cause
  refine ⟨rfl, ?_, ?_, ?_⟩ <;> rw [eq]
  exact .record _ _

/-- The watchdog fires when it must, and at no other time; each reboot leaves one record. -/
structure Vigilant (max : ℕ) (log : CrashLog) (c : Clocked C) : Prop where
  pass : c.state.control = .resting → c.state.machine.PassSteps c.state.roster
  alive : ∃ s', Moves c.state s'
  fires : ∀ s', Moves c.state s' →
    (s'.machine = c.state.machine.crash .watchdogTimeout ↔ c.state.Looks ∧ max < c.since)
  records : ∀ s', Moves c.state s' →
    c.state.machine.Lasts s'.machine ∨ ∃ cause, c.state.machine.Records cause s'.machine
  reboots : c.state.machine.reboots.toNat = c.state.machine.generation % UInt32.size
  recorded : Recorded log c.state.machine

/-- However the ticks pass, if fewer of them than the watchdog can count lie between two feedings: where the system
looks at the watchdog it reboots if and only if more ticks have passed than are allowed, and for nothing else does it
reboot with this cause. A task that is refused its yields, with ticks between them, is told in the end that the system
has rebooted. -/
theorem fires_in_time (settings : ScheduleSettings) (context : C) (clock : Clock) (crashLog : CrashLog)
    (boot : C → Boot C) (orderly : ∀ context, ∀ task ∈ (boot context).tasks, task.body.Orderly) :
    let start : Clocked C := ⟨.start settings context clock crashLog boot, 0⟩
    let limit := clock.watchdogMax.toNat
    (∀ turns, ∃ roster since longest, Run start longest
        ⟨⟨(Machine.start settings context clock crashLog boot).turns turns, roster, .resting⟩, since⟩) ∧
      ∀ longest c, Run start longest c → longest < UInt32.size → Vigilant limit crashLog c ∧
        ∀ turns m roster a next waiting since,
          Refused c turns ⟨⟨m, roster, .running a (.yield next) waiting⟩, since⟩ →
            turns ≤ limit + 1 ∧ (turns = limit + 1 → ∀ s', Moves ⟨m, roster, .running a (.yield next) waiting⟩ s' →
              s' = ⟨m.crash .watchdogTimeout, m.registered, .running a (next false) waiting⟩) := by
  intro start limit
  have cooperative := fun context task mem => (orderly context task mem).cooperative
  have fair := Fair.start settings context clock crashLog boot cooperative
  have watched := Watched.start settings context clock crashLog boot orderly
  constructor
  · intro turns
    have started : ∃ since longest, Run start longest ⟨start.state, since⟩ := ⟨0, 0, .none⟩
    refine Fair.turns_induction (P := fun s => ∃ since longest, Run start longest ⟨s, since⟩) fair started ?_ ?_
    · rintro s s' ⟨since, longest, run⟩ moves
      by_cases feeds : s.Feeds s'
      · exact ⟨0, _, run.more (.feed moves feeds)⟩
      · exact ⟨_, _, run.more (.starve moves feeds)⟩
    · rintro m roster change - ⟨since, longest, run⟩
      exact ⟨_, _, run.more (.change change)⟩
  · intro longest c run few
    have runs := run.timely few
    have now := watched.runs runs
    refine ⟨⟨now.fair.passSteps, exists_moves now.orderly, fun s' moves => now.fires_iff moves, ?_, ?_, ?_⟩, ?_⟩
    · intro s' moves
      rcases (moves.beat now.orderly).lasts_or_crash with lasts | ⟨cause, reboots⟩
      · exact .inl lasts
      · exact .inr ⟨cause, reboots ▸ Machine.records_crash _ cause⟩
    · rw [now.reboots]
      rfl
    · obtain ⟨_, _, started⟩ := Machine.start_eq settings context clock crashLog boot
      have recorded : Recorded crashLog start.state.machine := by
        refine ⟨[], ?_, ?_⟩ <;> simp only [start, State.start, started, List.length_nil]
        exact .refl _
      exact recorded.runs watched runs
    · intro turns m roster a next waiting since refused
      obtain ⟨reached, many, few⟩ := now.refused refused
      refine ⟨few, ?_⟩
      rintro rfl s' ⟨step, -⟩
      have late : m.clock.isExpired = true := (now.runs reached).isExpired_iff.mpr many
      cases step with
      | bark => rfl
      | refuse inTime | yield inTime => exact absurd (inTime.symm.trans late) Bool.false_ne_true

/-- A task that waits, a tick at a time, for what never comes. -/
def waiting : ℕ → Program Bool
  | 0 => .done
  | patience + 1 => .update (fun gaveUp => { context := gaveUp, ticks := 1 }) <| .yield fun same =>
      if same then waiting patience else .update (fun _ => { context := true }) .done

theorem orderly_waiting (patience : ℕ) : (waiting patience).Orderly := by
  induction patience with
  | zero => trivial
  | succ patience ih =>
    intro same
    cases same
    exacts [trivial, ih]

/-- Where no yield is accepted, the watchdog ends the wait. -/
theorem fires_in_time_waiting :
    let boot (gaveUp : Bool) : Boot Bool := { context := gaveUp, tasks := [⟨"waiter", waiting 9⟩] }
    let start := Machine.start { maxNesting := 0 } false { watchdogMax := 3 } {} boot
    let m := start.turns [.pass]
    (m.generation = 1 ∧ m.nestingOverflows = 3 ∧ m.context = true) ∧
      (∃ roster since longest, Run ⟨.start { maxNesting := 0 } false { watchdogMax := 3 } {} boot, 0⟩ longest
        ⟨⟨m, roster, .resting⟩, since⟩) ∧
      Vigilant 3 {} ⟨⟨start.tick 4, [⟨"waiter", waiting 9⟩], .resting⟩, 4⟩ := by
  intro boot start m
  have orderly : ∀ gaveUp, ∀ task ∈ (boot gaveUp).tasks, task.body.Orderly := by
    intro gaveUp task mem
    rw [List.mem_singleton.mp mem]
    exact orderly_waiting 9
  obtain ⟨runs, vigilant⟩ := fires_in_time { maxNesting := 0 } false { watchdogMax := 3 } {} boot orderly
  exact ⟨by decide +kernel, runs [.pass], (vigilant _ _ (.more .none (.tick 4)) (by decide)).1⟩

end Floppy.Schedule
