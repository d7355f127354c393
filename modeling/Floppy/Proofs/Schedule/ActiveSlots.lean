import Floppy.Proofs.Schedule.Steps
import Mathlib.Data.Nat.Bitwise

/-!
# Slots, bits and tasks under way

The machine marks a task that is under way twice: its slot is empty, and its bit is set. `Booked` says that both
marks agree with the tasks that are really under way, and here is what each operation on the machine does to it.
-/
namespace Floppy.Schedule

def Slot.ofTask {C : Type} (task : Routine C) : Slot C := { task := some task, stats := { name := task.name } }

namespace Machine
variable {C : Type} {m m' : Machine C}

theorem testBit_bit {i : ℕ} (slot : i < maxTasks) (j : ℕ) : (bit i).toNat.testBit j = decide (i = j) := by
  have small : i < 32 := slot
  have power : (bit i).toNat = 2 ^ i := by
    rw [bit, UInt32.toNat_shiftLeft, UInt32.toNat_ofNat', Nat.mod_eq_of_lt (show i < 2 ^ 32 by omega),
      Nat.mod_eq_of_lt small, UInt32.toNat_one, Nat.one_shiftLeft,
      Nat.mod_eq_of_lt (Nat.pow_lt_pow_right (by decide) small)]
  rw [power, Nat.testBit_two_pow]

theorem testBit_set (active : UInt32) {i : ℕ} (slot : i < maxTasks) (j : ℕ) :
    (active ||| bit i).toNat.testBit j = (active.toNat.testBit j || decide (i = j)) := by
  rw [UInt32.toNat_or, Nat.testBit_or, testBit_bit slot]

theorem testBit_clear (active : UInt32) {i : ℕ} (slot : i < maxTasks) (j : ℕ) :
    (active &&& ~~~ bit i).toNat.testBit j = (active.toNat.testBit j && !decide (i = j)) := by
  have complement : (~~~ bit i).toNat = 2 ^ 32 - ((bit i).toNat + 1) := by
    rw [UInt32.toNat_not, Nat.sub_sub, Nat.add_comm]
    rfl
  rw [UInt32.toNat_and, Nat.testBit_and, complement, Nat.testBit_two_pow_sub_succ (bit i).toNat_lt,
    testBit_bit slot]
  rcases Nat.lt_or_ge j 32 with low | high
  · simp [low]
  · have beyond : active.toNat < 2 ^ j := active.toNat_lt.trans_le (Nat.pow_le_pow_right (by decide) high)
    simp [Nat.testBit_lt_two_pow beyond]

theorem isActive_iff {i : ℕ} (slot : i < maxTasks) : m.isActive i = true ↔ m.active.toNat.testBit i = true := by
  have masked (j : ℕ) : (m.active &&& bit i).toNat.testBit j = (m.active.toNat.testBit j && decide (i = j)) := by
    rw [UInt32.toNat_and, Nat.testBit_and, testBit_bit slot]
  rw [isActive, decide_eq_true_iff]
  constructor
  · intro some
    have positive : (m.active &&& bit i).toNat ≠ 0 := fun zero => some (UInt32.toNat.inj zero)
    obtain ⟨j, set⟩ := Nat.exists_testBit_of_ne_zero positive
    rw [masked, Bool.and_eq_true, decide_eq_true_iff] at set
    exact set.2 ▸ set.1
  · intro set none
    have kept := masked i
    simp [none, set] at kept

theorem deepened_eq (m : Machine C) :
    ∃ yieldLog yieldDeadline yieldTimeouts log, m.deepened =
      { m with
        clock := m.clock.feed
        depth := m.depth + 1
        yieldLog, yieldDeadline, yieldTimeouts, log } := by
  simp only [deepened, checkDeadline, countYield]
  split <;> split <;> split <;> exact ⟨_, _, _, _, rfl⟩

theorem leave_eq (m : Machine C) (i : ℕ) (task : Routine C) (generation : ℕ) :
    ∃ slots active, m.leave i task generation = { m with slots, active } := by
  rw [leave]
  split <;> exact ⟨_, _, rfl⟩

/-- The same tasks are under way, and there may be the same tasks. -/
structure Alike (m m' : Machine C) : Prop where
  slots : m'.slots = m.slots
  active : m'.active = m.active
  generation : m'.generation = m.generation
  boot : m'.boot = m.boot
  settings : m'.settings = m.settings

namespace Alike

theorem refl : m.Alike m := ⟨rfl, rfl, rfl, rfl, rfl⟩

theorem update (m : Machine C) (change : C → Effect C) : m.Alike (m.update change) := ⟨rfl, rfl, rfl, rfl, rfl⟩

theorem opened (m : Machine C) : m.Alike m.opened := ⟨rfl, rfl, rfl, rfl, rfl⟩

theorem refuse (m : Machine C) : m.Alike m.refuse := ⟨rfl, rfl, rfl, rfl, rfl⟩

theorem surface (m : Machine C) : m.Alike m.surface := ⟨rfl, rfl, rfl, rfl, rfl⟩

theorem deepened (m : Machine C) : m.Alike m.deepened := by
  obtain ⟨_, _, _, _, eq⟩ := m.deepened_eq
  rw [eq]
  exact ⟨rfl, rfl, rfl, rfl, rfl⟩

end Alike

theorem depth_deepened (m : Machine C) : m.deepened.depth = m.depth + 1 := by
  obtain ⟨_, _, _, _, eq⟩ := m.deepened_eq
  rw [eq]

/-- The tasks are new, and all of them wait for their turn. -/
structure Rebooted (m m' : Machine C) : Prop where
  slots : m'.slots = (m.registered.map Slot.ofTask).toArray
  active : m'.active = 0
  generation : m'.generation = m.generation + 1
  boot : m'.boot = m.boot
  settings : m'.settings = m.settings
  depth : m'.depth = m.depth

theorem slot_modifySlot {i j : ℕ} {f : Slot C → Slot C} {slot : Slot C}
    (found : (m.modifySlot i f).slots[j]? = some slot) :
    ∃ before, m.slots[j]? = some before ∧ slot = if i = j then f before else before := by
  rw [modifySlot, Array.getElem?_modify] at found
  split at found
  case isTrue same =>
    obtain ⟨before, there, rfl⟩ := Option.map_eq_some_iff.mp found
    exact ⟨before, there, (if_pos same).symm⟩
  case isFalse other => exact ⟨slot, found, (if_neg other).symm⟩

theorem install_eq (m : Machine C) (tasks : List (Routine C)) :
    ∃ said : Log, m.install tasks =
      { m with
        log := m.log ++ said
        slots := ((tasks.take maxTasks).map Slot.ofTask).toArray
        active := 0 } := by
  simp only [install]
  split
  case isTrue =>
    exact ⟨[⟨.error, "Scheduler: " ++ toString tasks.length ++ " tasks registered, only " ++ toString maxTasks ++
      " will run"⟩], rfl⟩
  case isFalse => exact ⟨[], rfl⟩

def crashRecord (m : Machine C) (cause : CrashCause) : CrashRecord :=
  ⟨m.clock.now, cause, m.activeNames, m.active, m.clock.elapsed⟩

/-- A crash leaves one record, and all but the counters, the depth and the settings starts over. -/
theorem crash_eq (m : Machine C) (cause : CrashCause) :
    ∃ said : Log, m.crash cause =
      { m with
        generation := m.generation + 1
        reboots := m.reboots + 1
        context := (m.boot m.context).context
        slots := (m.registered.map Slot.ofTask).toArray
        active := 0
        clock := m.clock.feed
        crashLog := (m.crashLog.record (m.crashRecord cause)).1
        yieldLog := {}
        yieldDeadline := latestTick
        log := m.log.push ⟨.error, (m.crashRecord cause).text⟩ ++ said } := by
  simp only [crash, rebootNow, restart]
  generalize booted : m.boot m.context = b
  obtain ⟨said, installed⟩ := install_eq
    { m with
      crashLog := (m.crashLog.record (m.crashRecord cause)).1
      generation := m.generation + 1
      reboots := m.reboots + 1
      context := b.context
      log := m.log.push ⟨.error, (m.crashRecord cause).text⟩ ++ (m.crashLog.record (m.crashRecord cause)).2 ++ b.log }
    b.tasks
  simp only [crashRecord] at installed
  rw [installed]
  refine ⟨(m.crashLog.record (m.crashRecord cause)).2 ++ b.log ++ said ++
    [⟨.info, "Rebooted (" ++ toString (m.reboots + 1).toNat ++ ")"⟩], ?_⟩
  simp only [say, feed, registered, booted, crashRecord]
  congr 1
  exact Array.ext' (by simp)

theorem rebooted_crash (m : Machine C) (cause : CrashCause) : m.Rebooted (m.crash cause) := by
  obtain ⟨_, eq⟩ := m.crash_eq cause
  rw [eq]
  exact ⟨rfl, rfl, rfl, rfl, rfl, rfl⟩

theorem start_eq (settings : ScheduleSettings) (context : C) (clock : Clock) (crashLog : CrashLog)
    (boot : C → Boot C) :
    ∃ context' log, start settings context clock crashLog boot =
      { settings, boot, clock := clock.feed, crashLog, log
        context := context'
        slots := (((boot context).tasks.take maxTasks).map Slot.ofTask).toArray } := by
  obtain ⟨said, installed⟩ := install_eq
    ({ settings, boot, clock, crashLog, context := (boot context).context, log := (#[] : Array LogEntry) ++ (boot context).log } :
      Machine C) (boot context).tasks
  refine ⟨(boot context).context, (#[] : Array LogEntry) ++ (boot context).log ++ said, ?_⟩
  simp only [start, restart, installed]
  rfl

theorem context_start (settings : ScheduleSettings) (context : C) (clock : Clock) (crashLog : CrashLog)
    (boot : C → Boot C) : (start settings context clock crashLog boot).context = (boot context).context := by
  obtain ⟨_, installed⟩ := install_eq
    ({ settings, boot, clock, crashLog, context := (boot context).context, log := (#[] : Array LogEntry) ++ (boot context).log } :
      Machine C) (boot context).tasks
  simp only [start, restart, installed]
  rfl

theorem leave_kept (m : Machine C) (i : ℕ) (task : Routine C) (generation : ℕ) :
    (m.leave i task generation).boot = m.boot ∧ (m.leave i task generation).settings = m.settings ∧
      (m.leave i task generation).depth = m.depth ∧ (m.leave i task generation).generation = m.generation := by
  obtain ⟨_, _, eq⟩ := m.leave_eq i task generation
  rw [eq]
  exact ⟨rfl, rfl, rfl, rfl⟩

end Machine
variable {C : Type} {m m' : Machine C} {roster : List (Routine C)} {tasks : List (Activation C)}

def places (tasks : List (Activation C)) : List (ℕ × ℕ) := tasks.map Activation.place

/-- The slots and the bits are those of a generation of which these tasks are under way. -/
structure Booked (m : Machine C) (roster : List (Routine C)) (tasks : List (Activation C)) : Prop where
  few : roster.length ≤ maxTasks
  size : m.slots.size = roster.length
  apart : (places tasks).Nodup
  past : ∀ a ∈ tasks, a.round.generation ≤ m.generation
  placed : ∀ a ∈ tasks, a.round.generation = m.generation → roster[a.slot]? = some a.task
  slot : ∀ i slot, m.slots[i]? = some slot →
    slot.task = if (m.generation, i) ∈ places tasks then none else roster[i]?
  active : ∀ i, m.active.toNat.testBit i = true ↔ (m.generation, i) ∈ places tasks

namespace Booked

theorem congr (h : Booked m roster tasks) (alike : m.Alike m') : Booked m' roster tasks := by
  refine ⟨h.few, ?_, h.apart, ?_, ?_, ?_, ?_⟩ <;> simp only [alike.slots, alike.generation, alike.active]
  exacts [h.size, h.past, h.placed, h.slot, h.active]

theorem lt_length (h : Booked m roster tasks) {i : ℕ} {slot : Slot C} (found : m.slots[i]? = some slot) :
    i < roster.length := by
  rw [← h.size]
  exact (Array.getElem?_eq_some_iff.mp found).1

theorem exists_slot (h : Booked m roster tasks) {i : ℕ} {task : Routine C} (registered : roster[i]? = some task) :
    ∃ slot, m.slots[i]? = some slot := by
  have inside : i < m.slots.size := by
    rw [h.size]
    exact (List.getElem?_eq_some_iff.mp registered).1
  exact ⟨m.slots[i], Array.getElem?_eq_getElem inside⟩

theorem lt_maxTasks (h : Booked m roster tasks) {i : ℕ} {task : Routine C} (registered : roster[i]? = some task) :
    i < maxTasks :=
  (List.getElem?_eq_some_iff.mp registered).1.trans_le h.few

theorem of_ready (h : Booked m roster tasks) {i : ℕ} {task : Routine C}
    (ready : m.slots[i]?.bind (·.task) = some task) :
    (m.generation, i) ∉ places tasks ∧ roster[i]? = some task := by
  obtain ⟨slot, found, there⟩ := Option.bind_eq_some_iff.mp ready
  have booked := h.slot i slot found
  rw [there] at booked
  split at booked
  case isTrue => cases booked
  case isFalse idle => exact ⟨idle, booked.symm⟩

theorem exists_registered (h : Booked m roster tasks) {i : ℕ} (active : (m.generation, i) ∈ places tasks) :
    ∃ a ∈ tasks, a.place = (m.generation, i) ∧ roster[i]? = some a.task := by
  obtain ⟨a, mem, here⟩ := List.mem_map.mp active
  obtain ⟨now, rfl⟩ := Prod.mk.inj here
  exact ⟨a, mem, here, h.placed a mem now⟩

theorem empty_iff (h : Booked m roster tasks) {i : ℕ} {slot : Slot C} (found : m.slots[i]? = some slot) :
    slot.task = none ↔ (m.generation, i) ∈ places tasks := by
  rw [h.slot i slot found, List.getElem?_eq_getElem (h.lt_length found)]
  split <;> simp [*]

theorem bit_iff (h : Booked m roster tasks) (i : ℕ) :
    m.active.toNat.testBit i = true ↔ ∃ slot, m.slots[i]? = some slot ∧ slot.task = none := by
  rw [h.active]
  constructor
  · intro active
    obtain ⟨a, -, -, registered⟩ := h.exists_registered active
    obtain ⟨slot, found⟩ := h.exists_slot registered
    exact ⟨slot, found, (h.empty_iff found).mpr active⟩
  · rintro ⟨slot, found, empty⟩
    exact (h.empty_iff found).mp empty

theorem skip (h : Booked m roster tasks) (i : ℕ) : Booked (m.skip i) roster tasks where
  few := h.few
  size := by simp [Machine.skip, Machine.modifySlot, h.size]
  apart := h.apart
  past := h.past
  placed := h.placed
  slot := by
    intro j slot found
    obtain ⟨before, there, rfl⟩ := Machine.slot_modifySlot found
    rw [← apply_ite]
    exact h.slot j before there
  active := h.active

theorem enter (h : Booked m roster tasks) {i : ℕ} {task : Routine C}
    (ready : m.slots[i]?.bind (·.task) = some task) {round : Round C} (now : round.generation = m.generation) :
    Booked (m.enter i) roster (⟨i, task, round⟩ :: tasks) := by
  obtain ⟨idle, registered⟩ := h.of_ready ready
  have here : places (⟨i, task, round⟩ :: tasks) = (m.generation, i) :: places tasks := by
    rw [← now]
    rfl
  refine ⟨h.few, ?_, ?_, ?_, ?_, ?_, ?_⟩
  · simp [Machine.enter, Machine.modifySlot, h.size]
  · rw [here]
    exact List.nodup_cons.mpr ⟨idle, h.apart⟩
  · exact List.forall_mem_cons.mpr ⟨now.le, h.past⟩
  · exact List.forall_mem_cons.mpr ⟨fun _ => registered, h.placed⟩
  · intro j slot found
    obtain ⟨before, there, rfl⟩ := Machine.slot_modifySlot found
    show _ = if (m.generation, j) ∈ places _ then none else roster[j]?
    rw [here]
    by_cases same : i = j
    · simp [same]
    · simp [same, Ne.symm same, h.slot j before there]
  · intro j
    show (m.active ||| Machine.bit i).toNat.testBit j = true ↔ (m.generation, j) ∈ places _
    rw [here, Machine.testBit_set _ (h.lt_maxTasks registered), Bool.or_eq_true, h.active, decide_eq_true_iff]
    simp [or_comm, eq_comm]

/-- A task that comes back after a reboot is dropped. -/
theorem leave {a : Activation C} (h : Booked m roster (a :: tasks)) :
    Booked (m.leave a.slot a.task a.round.generation) roster tasks := by
  have apart := List.nodup_cons.mp h.apart
  have past := List.forall_mem_cons.mp h.past
  have placed := List.forall_mem_cons.mp h.placed
  rw [Machine.leave]
  split
  case isTrue now =>
    have registered := placed.1 now.symm
    have here (i : ℕ) : (m.generation, i) ∈ places (a :: tasks) ↔ a.slot = i ∨ (m.generation, i) ∈ places tasks := by
      simp [places, Activation.place, now, eq_comm]
    have back : (m.generation, a.slot) ∉ places tasks := now ▸ apart.1
    refine ⟨h.few, ?_, apart.2, past.2, placed.2, ?_, ?_⟩
    · simp [Machine.modifySlot, h.size]
    · intro i slot found
      obtain ⟨before, there, rfl⟩ := Machine.slot_modifySlot found
      show _ = if (m.generation, i) ∈ places tasks then none else roster[i]?
      by_cases same : a.slot = i
      · rw [if_pos same, ← same, if_neg back, registered]
      · rw [if_neg same, h.slot i before there]
        simp only [here, same, false_or]
    · intro i
      show (m.active &&& ~~~ Machine.bit a.slot).toNat.testBit i = true ↔ (m.generation, i) ∈ places tasks
      rw [Machine.testBit_clear _ (h.lt_maxTasks registered), Bool.and_eq_true, h.active, here]
      by_cases same : a.slot = i
      · simp [← same, back]
      · simp [same]
  case isFalse rebooted =>
    have other (i : ℕ) : (m.generation, i) ∈ places (a :: tasks) ↔ (m.generation, i) ∈ places tasks := by
      simp [places, Activation.place, rebooted]
    refine ⟨h.few, h.size, apart.2, past.2, placed.2, ?_, ?_⟩
    · intro i slot found
      simpa only [other] using h.slot i slot found
    · intro i
      rw [h.active, other]

/-- All tasks of a generation that has just begun wait for their turn. -/
theorem fresh (slots : m.slots = (roster.map Slot.ofTask).toArray) (active : m.active = 0)
    (few : roster.length ≤ maxTasks) (apart : (places tasks).Nodup)
    (older : ∀ a ∈ tasks, a.round.generation < m.generation) : Booked m roster tasks := by
  have idle (i : ℕ) : (m.generation, i) ∉ places tasks := by
    intro mem
    obtain ⟨a, there, same⟩ := List.mem_map.mp mem
    exact absurd (congrArg Prod.fst same) (Nat.ne_of_lt (older a there))
  refine ⟨few, ?_, apart, ?_, ?_, ?_, ?_⟩
  · simp [slots]
  · exact fun a mem => (older a mem).le
  · exact fun a mem now => absurd now (Nat.ne_of_lt (older a mem))
  · intro i slot found
    rw [if_neg (idle i)]
    simp only [slots, List.getElem?_toArray, List.getElem?_map, Option.map_eq_some_iff] at found
    obtain ⟨task, registered, rfl⟩ := found
    exact registered.symm
  · intro i
    simp [active, idle i]

theorem reboot (h : Booked m roster tasks) (rebooted : m.Rebooted m') : Booked m' m.registered tasks := by
  refine fresh rebooted.slots rebooted.active (List.length_take_le _ _) h.apart ?_
  intro a mem
  rw [rebooted.generation]
  exact Nat.lt_succ_of_le (h.past a mem)

theorem start (settings : ScheduleSettings) (context : C) (clock : Clock) (crashLog : CrashLog)
    (boot : C → Boot C) :
    Booked (Machine.start settings context clock crashLog boot) ((boot context).tasks.take maxTasks) [] := by
  obtain ⟨_, _, started⟩ := Machine.start_eq settings context clock crashLog boot
  rw [started]
  exact fresh rfl rfl (List.length_take_le _ _) List.nodup_nil (by simp)

end Booked
end Floppy.Schedule
