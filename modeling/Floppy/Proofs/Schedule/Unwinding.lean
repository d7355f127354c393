import Floppy.Proofs.Schedule.Moves

/-!
# How a reboot unwinds

Tasks that give up when they are told of a reboot leave no trace after it. A pass in which the system reboots has two
parts: up to the crash every frame and every wait is of the generation that the pass began with, and from there on what
is still under way only returns.
-/
namespace Floppy.Schedule
variable {C : Type}

/-- The program lets others run by yielding alone, never reboots the system, and gives up when it is told of a reboot. -/
def Program.Docile : Program C → Prop
  | .done => True
  | .update _ next => next.Docile
  | .look next => ∀ view, (next view).Docile
  | .yield next => (next true).Docile ∧ next false = .done
  | .runOthers _ => False
  | .crash _ _ => False

namespace Program

theorem Docile.answer {next : Bool → Program C} (h : (Program.yield next).Docile) (same : Bool) :
    (next same).Docile := by
  cases same with
  | false => exact h.2 ▸ trivial
  | true => exact h.1

theorem hereditary_docile : Hereditary (Docile (C := C)) where
  update h := h
  look h := h
  yield h := h.answer
  crash h := h.elim

theorem Docile.cooperative {program : Program C} (h : program.Docile) : program.Cooperative := by
  induction program with
  | done => trivial
  | update _ _ ih => exact ih h
  | look _ ih => exact fun view => ih view (h view)
  | yield _ ih => exact fun same => ih same (h.answer same)
  | runOthers => exact h.elim
  | crash => exact h.elim

end Program

def Named (m : Machine C) (roster : List (Routine C)) : Prop :=
  ∀ (i : ℕ) (slot : Slot C), m.slots[i]? = some slot → roster[i]?.map Routine.name = some slot.stats.name

namespace Named
variable {m m' : Machine C} {roster : List (Routine C)}

theorem modifySlot (h : Named m roster) {i : ℕ} {f : Slot C → Slot C}
    (keeps : ∀ slot, (f slot).stats.name = slot.stats.name) : Named (m.modifySlot i f) roster := by
  intro j slot found
  obtain ⟨before, there, rfl⟩ := Machine.slot_modifySlot found
  rw [h j before there]
  split
  exacts [congrArg some (keeps before).symm, rfl]

theorem fresh (slots : m.slots = (roster.map Slot.ofTask).toArray) : Named m roster := by
  intro i slot found
  simp only [slots, List.getElem?_toArray, List.getElem?_map, Option.map_eq_some_iff] at found
  obtain ⟨task, registered, rfl⟩ := found
  rw [registered]
  rfl

theorem step {s s' : State C} (h : Named s.machine s.roster) (step : Step s s') : Named s'.machine s'.roster := by
  cases step with
  | late | starve | crash | bark => exact .fresh (Machine.rebooted_crash _ _).slots
  | skip => exact h.modifySlot fun _ => rfl
  | enter => exact h.modifySlot fun _ => rfl
  | yield =>
    intro i slot found
    rw [(Machine.Alike.deepened _).slots] at found
    exact h i slot found
  | @leave m _ a _ =>
    show Named (m.leave _ _ _) _
    rw [Machine.leave]
    split
    · exact h.modifySlot fun _ => rfl
    · exact h
  | _ => exact h

end Named

/-- A sound state of a system whose tasks are docile. -/
structure Tame (limit : ℕ) (s : State C) : Prop where
  fair : Fair limit s
  docile : s.Only Program.Docile
  named : Named s.machine s.roster

namespace Tame
variable {limit : ℕ} {s s' : State C}

theorem step (h : Tame limit s) (step : Step s s') : Tame limit s' :=
  ⟨h.fair.step step, h.docile.step Program.hereditary_docile h.fair.sound step, h.named.step step⟩

theorem congr {m m' : Machine C} {roster : List (Routine C)} {control : Control C}
    (h : Tame limit ⟨m, roster, control⟩) (alike : m.Alike m') (depth : m'.depth = m.depth) :
    Tame limit ⟨m', roster, control⟩ :=
  ⟨h.fair.congr alike depth, h.docile.congr alike.boot, fun i slot found => h.named i slot (alike.slots ▸ found)⟩

theorem steps (h : Tame limit s) (steps : Steps s s') : Tame limit s' := by
  induction steps with
  | refl => exact h
  | tail _ last ih => exact ih.step last

theorem start (settings : ScheduleSettings) (context : C) (clock : Clock) (crashLog : CrashLog) (boot : C → Boot C)
    (docile : ∀ context, ∀ task ∈ (boot context).tasks, task.body.Docile) :
    Tame settings.maxNesting (.start settings context clock crashLog boot) := by
  have cooperative := fun context task mem => (docile context task mem).cooperative
  refine ⟨.start settings context clock crashLog boot cooperative, .start docile, .fresh ?_⟩
  obtain ⟨_, _, started⟩ := Machine.start_eq settings context clock crashLog boot
  simp only [State.start, started]

end Tame

namespace Control

/-- Whatever is under way was begun in this generation, and has waited since then. -/
def Begun (generation : ℕ) : Control C → Prop
  | resting => True
  | visiting round waiting =>
    round.generation = generation ∧ ∀ w ∈ waiting, w.round.generation = generation ∧ w.since = generation
  | running a _ waiting =>
    a.round.generation = generation ∧ ∀ w ∈ waiting, w.round.generation = generation ∧ w.since = generation

/-- Whatever is under way gives up, as soon as it is told of the reboot. -/
def Spent : Control C → Prop
  | resting => True
  | visiting _ waiting => ∀ w ∈ waiting, w.next false = .done
  | running _ program waiting => program = .done ∧ ∀ w ∈ waiting, w.next false = .done

theorem Begun.underWay {generation : ℕ} {control : Control C} (h : control.Begun generation) :
    ∀ a ∈ control.underWay, a.round.generation = generation := by
  cases control with
  | resting => exact List.forall_mem_nil _
  | visiting => exact List.forall_mem_map.mpr fun w mem => (h.2 w mem).1
  | running => exact List.forall_mem_cons.mpr ⟨h.1, List.forall_mem_map.mpr fun w mem => (h.2 w mem).1⟩

end Control

/-- The system has not rebooted since a pass began with this machine. -/
structure Calm (m : Machine C) (s : State C) : Prop where
  generation : s.machine.generation = m.generation
  crashLog : s.machine.crashLog = m.crashLog
  begun : s.control.Begun m.generation

/-- The system has rebooted in this state, and what was under way returns. -/
structure Returning (crashed s : State C) : Prop where
  machine : s.machine = { crashed.machine.crash .watchdogTimeout with depth := s.control.waiting.length }
  begun : s.control.Begun crashed.machine.generation
  spent : s.control.Spent

theorem Returning.step {crashed s s' : State C} (h : Returning crashed s) (inner : Inner s s')
    (active : s.control ≠ .resting) : Returning crashed s' := by
  obtain ⟨machine, begun, spent⟩ := h
  obtain ⟨step, inside⟩ := inner
  have later : s.machine.generation = crashed.machine.generation + 1 := by
    rw [machine]
    exact (crashed.machine.rebooted_crash _).generation
  cases step with
  | change | late | pass => exact absurd rfl active
  | rest => exact absurd rfl inside
  | cut => exact ⟨machine, begun, spent⟩
  | starve | skip | vacant | enter => exact absurd (later.symm.trans begun.1) (Nat.succ_ne_self _)
  | update | look | crash | bark | refuse | yield => exact nomatch spent.1
  | @resume m _ _ _ w waiting =>
    obtain ⟨begun, older⟩ := List.forall_mem_cons.mp begun.2
    obtain ⟨gives, others⟩ := List.forall_mem_cons.mp spent
    have rebooted : m.generation ≠ w.since := begun.2 ▸ later ▸ Nat.succ_ne_self _
    refine ⟨?_, ⟨begun.1, older⟩, ?_, others⟩
    · show m.surface = _
      rw [show m = _ from machine]
      rfl
    · rw [decide_eq_false rebooted, gives]
  | @leave m _ a _ =>
    have dropped : m.leave a.slot a.task a.round.generation = m :=
      if_neg fun now => Nat.succ_ne_self _ (later.symm.trans (now.trans begun.1))
    rw [dropped]
    exact ⟨machine, begun, spent.2⟩

theorem Calm.crash {m : Machine C} {s s' : State C} (calm : Calm m s) (sound : Sound s)
    (reboots : s'.machine = s.machine.crash .watchdogTimeout) (waiting : s'.control.waiting = s.control.waiting)
    (begun : s'.control.Begun m.generation) (spent : s'.control.Spent) : Returning s s' := by
  refine ⟨?_, calm.generation ▸ begun, spent⟩
  rw [reboots, waiting, ← sound.depth, ← (s.machine.rebooted_crash .watchdogTimeout).depth]

/-- The system stays as it is, or the watchdog reboots it, and then all that was under way returns. -/
theorem Calm.step {m : Machine C} {limit : ℕ} {s s' : State C} (calm : Calm m s) (tame : Tame limit s)
    (inner : Inner s s') :
    Calm m s' ∨ (s'.machine = s.machine.crash .watchdogTimeout ∧ Returning s s') := by
  have sound := tame.fair.sound
  have docile := tame.docile
  have giveUp : ∀ w ∈ s.control.waiting, w.next false = .done := fun w mem => (docile.waiting w mem).2
  obtain ⟨step, inside⟩ := inner
  obtain ⟨now, crashLog, begun⟩ := calm
  cases step with
  | change | late | rest => exact absurd rfl inside
  | pass => exact .inl ⟨now, crashLog, now, List.forall_mem_nil _⟩
  | cut rebooted => exact absurd (now.trans begun.1.symm) rebooted
  | starve => exact .inr ⟨rfl, Calm.crash ⟨now, crashLog, begun⟩ sound rfl rfl begun giveUp⟩
  | skip => exact .inl ⟨now, crashLog, begun⟩
  | vacant => exact .inl ⟨now, crashLog, begun⟩
  | enter => exact .inl ⟨now, crashLog, begun⟩
  | update => exact .inl ⟨now, crashLog, begun⟩
  | look => exact .inl ⟨now, crashLog, begun⟩
  | crash => exact (docile.current _ _ _ rfl).elim
  | bark =>
    have spent := (docile.current _ _ _ rfl).2
    exact .inr ⟨rfl, Calm.crash ⟨now, crashLog, begun⟩ sound rfl rfl begun ⟨spent, giveUp⟩⟩
  | refuse => exact .inl ⟨now, crashLog, begun⟩
  | @yield m _ _ _ _ _ _ =>
    obtain ⟨_, _, _, _, eq⟩ := m.deepened_eq
    rw [eq]
    exact .inl ⟨now, crashLog, now, List.forall_mem_cons.mpr ⟨⟨begun.1, now⟩, begun.2⟩⟩
  | resume =>
    obtain ⟨begun, older⟩ := List.forall_mem_cons.mp begun.2
    exact .inl ⟨now, crashLog, begun.1, older⟩
  | @leave m _ a _ =>
    obtain ⟨_, _, eq⟩ := m.leave_eq a.slot a.task a.round.generation
    rw [eq]
    exact .inl ⟨now, crashLog, begun⟩

/-- In this state of the pass the watchdog reboots the system. -/
structure Barks (m : Machine C) (roster : List (Routine C)) (s : State C) : Prop where
  reached : InnerSteps ⟨m, roster, .resting⟩ s
  reboots : ∃ s', Step s s' ∧ s'.machine = s.machine.crash .watchdogTimeout
  calm : Calm m s

theorem Tame.calm_or_returning {limit : ℕ} {m : Machine C} {roster : List (Routine C)} {s t : State C}
    (tame : Tame limit ⟨m, roster, .resting⟩) (reached : InnerSteps ⟨m, roster, .resting⟩ s) (calm : Calm m s)
    (active : s.control ≠ .resting) (inside : InnerSteps s t) :
    t.control ≠ .resting ∧ (Calm m t ∨ ∃ crashed, Barks m roster crashed ∧ Returning crashed t) := by
  induction inside with
  | refl => exact ⟨active, .inl calm⟩
  | @tail t t' before last ih =>
    obtain ⟨active, calm | ⟨crashed, barks, returning⟩⟩ := ih
    · have path := reached.trans before
      rcases calm.step (tame.steps (steps_of_inner path)) last with calm | ⟨reboots, returning⟩
      · exact ⟨last.2, .inl calm⟩
      · exact ⟨last.2, .inr ⟨t, ⟨path, ⟨t', last.1, reboots⟩, calm⟩, returning⟩⟩
    · exact ⟨last.2, .inr ⟨crashed, barks, returning.step last active⟩⟩

theorem Tame.pass {limit : ℕ} {m : Machine C} {roster : List (Routine C)} (tame : Tame limit ⟨m, roster, .resting⟩) :
    (m.pass.generation = m.generation ∧ m.pass.crashLog = m.crashLog) ∨
      ∃ s, Barks m roster s ∧ m.pass = { s.machine.crash .watchdogTimeout with depth := 0 } := by
  rcases pass_cases tame.fair with ⟨expired, crashed⟩ | ⟨fed, visits, roster', inside⟩
  · refine .inr ⟨⟨m, roster, .resting⟩, ⟨.refl, ⟨_, .late expired, rfl⟩, ⟨rfl, rfl, trivial⟩⟩, ?_⟩
    have depth : (m.crash .watchdogTimeout).depth = 0 :=
      (m.rebooted_crash _).depth.trans tame.fair.sound.depth
    rw [crashed, ← depth]
  · have entered : Inner ⟨m, roster, .resting⟩ ⟨m.opened, roster, .visiting m.opened.round []⟩ := ⟨.pass fed, nofun⟩
    have calm : Calm m ⟨m.opened, roster, .visiting m.opened.round []⟩ := ⟨rfl, rfl, rfl, List.forall_mem_nil _⟩
    obtain ⟨-, calm | ⟨s, barks, returning⟩⟩ := tame.calm_or_returning (.single entered) calm nofun inside
    · exact .inl ⟨calm.generation, calm.crashLog⟩
    · exact .inr ⟨s, barks, returning.machine⟩

namespace Barks
variable {limit : ℕ} {m : Machine C} {roster : List (Routine C)} {s : State C}

theorem testBit_iff (h : Barks m roster s) (tame : Tame limit ⟨m, roster, .resting⟩) (i : ℕ) :
    s.machine.active.toNat.testBit i = true ↔ ∃ a ∈ s.control.underWay, a.slot = i := by
  have booked := (tame.steps (steps_of_inner h.reached)).fair.sound.booked
  have now := h.calm.begun.underWay
  rw [booked.active, h.calm.generation]
  constructor
  · intro mem
    obtain ⟨a, there, place⟩ := List.mem_map.mp mem
    exact ⟨a, there, (Prod.mk.inj place).2⟩
  · rintro ⟨a, mem, rfl⟩
    exact List.mem_map.mpr ⟨a, mem, congrArg (·, a.slot) (now a mem)⟩

/-- The names are those of the tasks under way, in the order of their slots. -/
theorem exists_sorted (h : Barks m roster s) (tame : Tame limit ⟨m, roster, .resting⟩) :
    ∃ tasks : List (Activation C), tasks.Perm s.control.underWay ∧ tasks.Pairwise (·.slot < ·.slot) ∧
      s.machine.activeNames = ",".intercalate (tasks.map (·.task.name)) := by
  have tameNow := tame.steps (steps_of_inner h.reached)
  have booked := tameNow.fair.sound.booked
  have now : ∀ a ∈ s.control.underWay, a.round.generation = s.machine.generation :=
    h.calm.generation ▸ h.calm.begun.underWay
  let tasks := s.control.underWay.mergeSort fun a b => decide (a.slot ≤ b.slot)
  have perm : tasks.Perm s.control.underWay := List.mergeSort_perm _ _
  have increasing : (tasks.map Activation.slot).SortedLT := by
    have sorted : (tasks.map Activation.slot).SortedLE := by
      refine (List.pairwise_map.mpr ?_).sortedLE
      have ordered : tasks.Pairwise fun a b => decide (a.slot ≤ b.slot) = true :=
        List.pairwise_mergeSort (fun a b c => by simpa using Nat.le_trans) (fun a b => by simpa using Nat.le_total _ _) _
      exact ordered.imp of_decide_eq_true
    have apart : (s.control.underWay.map Activation.slot).Nodup := by
      have same : places s.control.underWay =
          (s.control.underWay.map Activation.slot).map (s.machine.generation, ·) := by
        rw [places, List.map_map]
        exact List.map_congr_left fun a mem => congrArg (·, a.slot) (now a mem)
      exact List.Nodup.of_map _ (same ▸ booked.apart)
    exact sorted.sortedLT_of_nodup ((perm.map _).nodup_iff.mpr apart)
  have slots : (List.range s.machine.slots.size).filter s.machine.isActive = tasks.map Activation.slot := by
    have filtered : ((List.range s.machine.slots.size).filter s.machine.isActive).SortedLT :=
      (List.pairwise_lt_range.filter _).sortedLT
    refine List.Subset.antisymm_of_sortedLT ?_ ?_ filtered increasing
    · intro i mem
      obtain ⟨inside, active⟩ := List.mem_filter.mp mem
      have low : i < maxTasks := (List.mem_range.mp inside).trans_le (booked.size.trans_le booked.few)
      obtain ⟨a, there, rfl⟩ := (h.testBit_iff tame i).mp ((Machine.isActive_iff low).mp active)
      exact List.mem_map_of_mem (perm.mem_iff.mpr there)
    · intro i mem
      obtain ⟨a, there, rfl⟩ := List.mem_map.mp mem
      have under := perm.mem_iff.mp there
      have registered := booked.placed a under (now a under)
      have active := (Machine.isActive_iff (booked.lt_maxTasks registered)).mpr
        ((h.testBit_iff tame _).mpr ⟨a, under, rfl⟩)
      have inside : a.slot < s.machine.slots.size := booked.size ▸ (List.getElem?_eq_some_iff.mp registered).1
      exact List.mem_filter.mpr ⟨List.mem_range.mpr inside, active⟩
  have named : ∀ a ∈ tasks, s.machine.slots[a.slot]?.map (·.stats.name) = some a.task.name := by
    intro a mem
    have under := perm.mem_iff.mp mem
    have registered := booked.placed a under (now a under)
    obtain ⟨slot, found⟩ := booked.exists_slot registered
    have name := tameNow.named a.slot slot found
    rw [registered] at name
    rw [found]
    exact name.symm
  refine ⟨tasks, perm, List.pairwise_map.mp increasing.pairwise, ?_⟩
  rw [Machine.activeNames, slots, List.filterMap_map]
  exact congrArg _ ((List.filterMap_congr named).trans (List.filterMap_eq_map' ▸ rfl))

end Barks
end Floppy.Schedule
