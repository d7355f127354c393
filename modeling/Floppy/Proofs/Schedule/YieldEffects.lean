import Floppy.Proofs.Schedule.Unwinding

/-!
# What happens while a task waits

A task that yields finds what the others have made of the context meanwhile. If each of them changes it only as some
preorder allows, then so does the whole yield, however deeply the others yield inside of it and whether or not the
system reboots; and if one of them achieves something in each of its runs, then it is achieved in each yield after which
the system is still the same.
-/
namespace Floppy.Schedule
variable {C : Type}

namespace Program

/-- From this context on the program changes it only as the relation allows, if the others do so too. -/
def Respects (R : C → C → Prop) : Program C → C → Prop
  | .done, _ => True
  | .update change next, c => R c (change c).context ∧ next.Respects R (change c).context
  | .look next, c => ∀ view : View C, view.context = c → (next view).Respects R c
  | .yield next, c => ∀ same c', R c c' → (next same).Respects R c'
  | .runOthers next, c => ∀ c', R c c' → next.Respects R c'
  | .crash _ next, c => ∀ c', R c c' → next.Respects R c'

/-- From this context on the program makes a change of the kind before it ends, unless the system reboots. -/
def Achieves (R S : C → C → Prop) : Program C → C → Prop
  | .done, _ => False
  | .update change next, c => S c (change c).context ∨ next.Achieves R S (change c).context
  | .look next, c => ∀ view : View C, view.context = c → (next view).Achieves R S c
  | .yield next, c => ∀ c', R c c' → (next true).Achieves R S c'
  | .runOthers next, c => ∀ c', R c c' → next.Achieves R S c'
  | .crash _ _, _ => True

end Program

/-- What is achieved lasts, whatever the relation allows before and after. -/
structure Lasting (R S : C → C → Prop) : Prop where
  before : ∀ {a b c}, R a b → S b c → S a c
  after : ∀ {a b c}, S a b → R b c → S a c

namespace Machine

/-- The task that is in a slot, if it is not under way. -/
def task? (m : Machine C) (i : ℕ) : Option (Routine C) := m.slots[i]?.bind (·.task)

/-- The tasks that are booted change the context only as the relation allows. -/
def Renews (R : C → C → Prop) (m : Machine C) : Prop :=
  ∀ c, ∀ task ∈ (m.boot c).tasks, ∀ c', task.body.Respects R c'

/-- The tasks that are not under way change the context only as the relation allows. After a reboot the new ones do so
as well, or nobody lets them run. -/
structure Harmless (R : C → C → Prop) (m : Machine C) : Prop where
  boot : ∀ c, R c (m.boot c).context
  tasks : ∀ i task, m.task? i = some task → ∀ c, task.body.Respects R c
  reboot : m.Renews R ∨ ∀ i task, m.task? i = some task → task.body.Docile

/-- What others leave of a machine: all but the context is in its place, or there was a reboot. -/
structure Kept (R : C → C → Prop) (m m' : Machine C) : Prop where
  context : R m.context m'.context
  boot : m'.boot = m.boot
  settings : m'.settings = m.settings
  depth : m'.depth = m.depth
  generation : m.generation ≤ m'.generation
  same : m'.generation = m.generation →
    m'.active = m.active ∧ m'.slots.size = m.slots.size ∧ m'.task? = m.task?
  tasks : m.Renews R → ∀ i task, m'.task? i = some task → ∀ c, task.body.Respects R c

variable {R S : C → C → Prop} {m m' m'' : Machine C}

namespace Kept

theorem trans [IsTrans C R] (h : m.Kept R m') (h' : m'.Kept R m'') : m.Kept R m'' where
  context := trans_of R h.context h'.context
  boot := h'.boot.trans h.boot
  settings := h'.settings.trans h.settings
  depth := h'.depth.trans h.depth
  generation := h.generation.trans h'.generation
  same := by
    intro same
    have first : m'.generation = m.generation := Nat.le_antisymm (same ▸ h'.generation) h.generation
    obtain ⟨active, size, tasks⟩ := h.same first
    obtain ⟨active', size', tasks'⟩ := h'.same (same.trans first.symm)
    exact ⟨active'.trans active, size'.trans size, tasks'.trans tasks⟩
  tasks renews := h'.tasks (by rwa [Renews, h.boot])

theorem renews (h : m.Kept R m') (fresh : m.Renews R) : m'.Renews R := by
  rwa [Renews, h.boot]

theorem rest [Std.Refl R] (h : m.Kept R m') : m'.Kept R m' :=
  ⟨refl_of R _, rfl, rfl, rfl, le_rfl, fun _ => ⟨rfl, rfl, rfl⟩,
    fun renews => h.tasks (by rwa [Renews, ← h.boot])⟩

theorem harmless (kept : m.Kept R m') (h : m.Harmless R) (still : m.Renews R ∨ m'.generation = m.generation) :
    m'.Harmless R := by
  have renews : m'.Renews R ↔ m.Renews R := by rw [Renews, Renews, kept.boot]
  refine ⟨kept.boot ▸ h.boot, ?_, ?_⟩
  · rcases still with fresh | same
    · exact kept.tasks fresh
    · rw [(kept.same same).2.2]
      exact h.tasks
  · rw [renews]
    rcases still with fresh | same
    · exact .inl fresh
    · rw [(kept.same same).2.2]
      exact h.reboot

end Kept

theorem Alike.task? (alike : m.Alike m') : m'.task? = m.task? := by
  funext i
  rw [Machine.task?, Machine.task?, alike.slots]

theorem lt_size_of_task? {i : ℕ} {task : Routine C} (found : m.task? i = some task) : i < m.slots.size := by
  obtain ⟨slot, there, -⟩ := Option.bind_eq_some_iff.mp found
  exact (Array.getElem?_eq_some_iff.mp there).1

theorem task?_modifySlot (m : Machine C) (i : ℕ) (f : Slot C → Slot C) (j : ℕ) :
    (m.modifySlot i f).task? j = if i = j then (m.slots[j]?.map f).bind (·.task) else m.task? j := by
  rw [task?, modifySlot, Array.getElem?_modify]
  split <;> rfl

theorem task?_skip (m : Machine C) (i : ℕ) : (m.skip i).task? = m.task? := by
  funext j
  rw [skip, task?_modifySlot]
  split
  · simp [task?, Option.bind_map]
  · rfl

theorem task?_enter (m : Machine C) (i : ℕ) : (m.enter i).task? = Function.update m.task? i none := by
  funext j
  change (m.modifySlot i _).task? j = _
  rw [task?_modifySlot, Function.update_apply]
  by_cases same : i = j
  · simp [same, Option.bind_map]
  · simp [same, Ne.symm same]

theorem task?_leave {i : ℕ} (inside : i < m.slots.size) (task : Routine C) :
    (m.leave i task m.generation).task? = Function.update m.task? i (some task) := by
  funext j
  rw [leave, if_pos rfl]
  change (m.modifySlot i _).task? j = _
  rw [task?_modifySlot, Function.update_apply]
  by_cases same : i = j
  · simp [← same, inside]
  · simp [same, Ne.symm same]

theorem or_and_not {active bit : UInt32} (clear : active &&& bit = 0) : (active ||| bit) &&& ~~~bit = active := by
  rw [← UInt32.toBitVec_inj] at clear ⊢
  ext i
  have apart := congrArg (·.getLsbD i) clear
  simp at apart ⊢
  grind

theorem context_deepened (m : Machine C) : m.deepened.context = m.context := by
  obtain ⟨_, _, _, _, eq⟩ := m.deepened_eq
  rw [eq]

namespace Harmless
variable (h : m.Harmless R)
include h

theorem congr (alike : m.Alike m') : m'.Harmless R :=
  ⟨alike.boot ▸ h.boot, alike.task? ▸ h.tasks, by
    rw [alike.task?, Renews, alike.boot]
    exact h.reboot⟩

theorem enter (i : ℕ) : (m.enter i).Harmless R := by
  have still {j : ℕ} {task : Routine C} (found : (m.enter i).task? j = some task) : m.task? j = some task := by
    rw [task?_enter, Function.update_apply] at found
    split at found
    · cases found
    · exact found
  exact ⟨h.boot, fun j task found => h.tasks j task (still found),
    h.reboot.imp_right fun docile j task found => docile j task (still found)⟩

theorem kept (alike : m.Alike m') (depth : m'.depth = m.depth) (context : R m.context m'.context) : m.Kept R m' :=
  ⟨context, alike.boot, alike.settings, depth, alike.generation.ge,
    fun _ => ⟨alike.active, alike.slots ▸ rfl, alike.task?⟩, fun _ => alike.task? ▸ h.tasks⟩

theorem kept_crash (cause : CrashCause) : m.Kept R (m.crash cause) ∧ m.generation < (m.crash cause).generation := by
  have rebooted := m.rebooted_crash cause
  have context : (m.crash cause).context = (m.boot m.context).context := by
    obtain ⟨_, eq⟩ := m.crash_eq cause
    rw [eq]
  have later : m.generation < (m.crash cause).generation := rebooted.generation ▸ Nat.lt_succ_self _
  refine ⟨⟨context ▸ h.boot _, rebooted.boot, rebooted.settings, rebooted.depth, later.le, ?_, ?_⟩, later⟩
  · exact fun same => absurd same later.ne'
  · intro renews i task found
    simp only [task?, rebooted.slots, List.getElem?_toArray, List.getElem?_map, Option.bind_eq_some_iff,
      Option.map_eq_some_iff, Slot.ofTask, exists_exists_and_eq_and, Option.some_inj] at found
    obtain ⟨registered, there, rfl⟩ := found
    exact renews m.context registered (List.mem_of_mem_take (List.mem_of_getElem? there))

/-- The task is back in its place, or the system has rebooted. -/
theorem leave {i : ℕ} {task : Routine C} (kept : (m.enter i).Kept R m')
    (ready : m.task? i = some task) (idle : m.isActive i = false) :
    m.Kept R (m'.leave i task m.generation) := by
  by_cases same : m'.generation = m.generation
  · obtain ⟨active, size, tasks⟩ := kept.same same
    have entered : (m.enter i).slots.size = m.slots.size := Array.size_modify ..
    have inside : i < m'.slots.size := (size.trans entered).symm ▸ lt_size_of_task? ready
    have restored : (m'.leave i task m.generation).task? = m.task? := by
      rw [← same, task?_leave inside, tasks, task?_enter, Function.update_idem, ← ready, Function.update_eq_self]
    rw [Machine.leave, if_pos same] at restored ⊢
    refine ⟨kept.context, kept.boot, kept.settings, kept.depth, kept.generation, fun _ => ⟨?_, ?_, restored⟩,
      fun _ => restored ▸ h.tasks⟩
    · show m'.active &&& _ = _
      rw [active]
      exact or_and_not (by simpa [isActive] using idle)
    · exact (Array.size_modify ..).trans (size.trans entered)
  · rw [Machine.leave, if_neg same]
    exact { kept with same := fun now => absurd now same }

end Harmless

theorem visitAll_of_ne {frame : Machine C → Machine C} {generation : ℕ} (rebooted : m.generation ≠ generation)
    (left : List ℕ) : Machine.visitAll frame generation left m = m := by
  cases left with
  | nil => rfl
  | cons i left => rw [Machine.visitAll, if_pos rebooted]

section Frames
variable [IsPreorder C R] {frame : Machine C → Machine C}
  (frames : ∀ m : Machine C, m.Harmless R → m.Kept R (frame m))
include frames

/-- The answer to a yield says whether the system is still the same. -/
theorem Harmless.yieldWith (h : m.Harmless R) :
    m.Kept R (m.yieldWith frame).2 ∧
      ((m.yieldWith frame).1 = true ↔ (m.yieldWith frame).2.generation = m.generation) := by
  rcases expired : m.clock.isExpired with _ | _
  · rcases Nat.lt_or_ge m.depth m.settings.maxNesting with shallow | deep
    · rw [yieldWith_of_room expired shallow]
      have alike := Alike.deepened m
      have inner := frames m.deepened (h.congr alike)
      refine ⟨⟨?_, inner.boot.trans alike.boot, inner.settings.trans alike.settings, ?_,
        alike.generation ▸ inner.generation, ?_, ?_⟩, decide_eq_true_iff⟩
      · exact m.context_deepened ▸ inner.context
      · show (frame m.deepened).depth - 1 = m.depth
        rw [inner.depth, depth_deepened, Nat.add_sub_cancel]
      · intro same
        obtain ⟨active, size, tasks⟩ := inner.same (same.trans alike.generation.symm)
        exact ⟨active.trans alike.active, alike.slots ▸ size, tasks.trans alike.task?⟩
      · intro renews
        refine inner.tasks ?_
        rwa [Renews, alike.boot]
    · rw [yieldWith_of_deep expired deep]
      exact ⟨h.kept (.refuse m) rfl (refl_of R _), iff_of_true rfl rfl⟩
  · rw [yieldWith_of_expired expired]
    obtain ⟨kept, later⟩ := h.kept_crash .watchdogTimeout
    exact ⟨kept, iff_of_false Bool.false_ne_true later.ne'⟩

/-- A program goes on after a yield, or gives up if it is told of a reboot. -/
theorem Harmless.run_yield (h : m.Harmless R) {next : Bool → Program C}
    (respects : (Program.yield next).Respects R m.context) (yields : m.Renews R ∨ (Program.yield next).Docile)
    (rest : ∀ same {m' : Machine C}, m'.Harmless R → (next same).Respects R m'.context →
      m'.Renews R ∨ (next same).Docile → m'.Kept R ((next same).run frame m')) :
    (m.yieldWith frame).2.Kept R ((Program.yield next).run frame m) := by
  obtain ⟨kept, answer⟩ := h.yieldWith frames
  have respects := respects (m.yieldWith frame).1 _ kept.context
  rw [Program.run]
  rcases yields with fresh | docile
  · exact rest _ (kept.harmless h (.inl fresh)) respects (.inl (kept.renews fresh))
  · by_cases same : (m.yieldWith frame).1 = true
    · exact rest _ (kept.harmless h (.inr (answer.mp same))) respects (.inr (docile.answer _))
    · rw [Bool.not_eq_true] at same
      rw [same, docile.2]
      exact kept.rest

theorem Harmless.run (h : m.Harmless R) {program : Program C} (respects : program.Respects R m.context)
    (yields : m.Renews R ∨ program.Docile) : m.Kept R (program.run frame m) := by
  induction program generalizing m with
  | done => exact h.kept .refl rfl (refl_of R _)
  | update change next ih =>
    have alike := Alike.update m change
    have renews : (m.update change).Renews R ∨ next.Docile := yields
    exact (h.kept alike rfl respects.1).trans (ih (h.congr alike) respects.2 renews)
  | look next ih => exact ih m.view h (respects m.view rfl) (yields.imp_right fun docile => docile m.view)
  | yield next ih => exact (h.yieldWith frames).1.trans (h.run_yield frames respects yields ih)
  | runOthers next ih =>
    have fresh : m.Renews R := yields.resolve_right id
    have kept := frames m h
    exact kept.trans (ih (kept.harmless h (.inl fresh)) (respects _ kept.context) (.inl (kept.renews fresh)))
  | crash cause next ih =>
    have fresh : m.Renews R := yields.resolve_right id
    have kept := (h.kept_crash cause).1
    exact kept.trans (ih (kept.harmless h (.inl fresh)) (respects _ kept.context) (.inl (kept.renews fresh)))

theorem Harmless.visit (h : m.Harmless R) (i : ℕ) : m.Kept R (m.visit frame i) := by
  rw [Machine.visit]
  rcases active : m.isActive i with _ | _
  · rw [if_neg Bool.false_ne_true]
    rcases ready : m.slots[i]?.bind (·.task) with _ | task
    · exact h.kept .refl rfl (refl_of R _)
    · have docile := h.reboot.imp_right fun docile => docile i task ready
      exact h.leave ((h.enter i).run frames (h.tasks i task ready _) docile) ready active
  · rw [if_pos rfl]
    exact ⟨refl_of R _, rfl, rfl, rfl, le_rfl, fun _ => ⟨rfl, Array.size_modify .., m.task?_skip i⟩,
      fun _ => m.task?_skip i ▸ h.tasks⟩

theorem Harmless.visitAll (h : m.Harmless R) (left : List ℕ) :
    m.Kept R (Machine.visitAll frame m.generation left m) := by
  induction left generalizing m with
  | nil => exact h.kept .refl rfl (refl_of R _)
  | cons i left ih =>
    rw [Machine.visitAll, if_neg (not_not.mpr rfl)]
    rcases expired : m.clock.isExpired with _ | _
    · rw [if_neg Bool.false_ne_true]
      have kept := h.visit frames i
      by_cases same : (m.visit frame i).generation = m.generation
      · have rest := ih (kept.harmless h (.inr same))
        rw [same] at rest
        exact kept.trans rest
      · rw [visitAll_of_ne same]
        exact kept
    · rw [if_pos rfl]
      exact (h.kept_crash .watchdogTimeout).1

/-- What a task achieves in each of its runs. -/
theorem Harmless.run_achieves (lasting : Lasting R S) (h : m.Harmless R) {program : Program C}
    (respects : program.Respects R m.context) (yields : m.Renews R ∨ program.Docile)
    (achieves : program.Achieves R S m.context) (same : (program.run frame m).generation = m.generation) :
    S m.context (program.run frame m).context := by
  induction program generalizing m with
  | done => exact achieves.elim
  | update change next ih =>
    have later : (m.update change).Harmless R := h.congr (.update m change)
    rcases achieves with now | next
    · exact lasting.after now (later.run frames respects.2 yields).context
    · exact lasting.before respects.1 (ih later respects.2 yields next same)
  | look next ih =>
    exact ih m.view h (respects m.view rfl) (yields.imp_right fun docile => docile m.view) (achieves m.view rfl) same
  | yield next ih =>
    obtain ⟨kept, answer⟩ := h.yieldWith frames
    have rest := h.run_yield frames respects yields fun _ _ h => h.run frames
    have still : (m.yieldWith frame).2.generation = m.generation :=
      Nat.le_antisymm (same ▸ rest.generation) kept.generation
    have harmless := kept.harmless h (.inr still)
    rw [Program.run, answer.mpr still] at same ⊢
    exact lasting.before kept.context
      (ih true harmless (respects true _ kept.context) (yields.imp kept.renews (·.answer true))
        (achieves _ kept.context) (same.trans still.symm))
  | runOthers next ih =>
    have fresh : m.Renews R := yields.resolve_right id
    have kept := frames m h
    have harmless := kept.harmless h (.inl fresh)
    have rest := harmless.run frames (respects _ kept.context) (.inl (kept.renews fresh))
    have still : (frame m).generation = m.generation := Nat.le_antisymm (same ▸ rest.generation) kept.generation
    exact lasting.before kept.context
      (ih harmless (respects _ kept.context) (.inl (kept.renews fresh)) (achieves _ kept.context)
        (same.trans still.symm))
  | crash cause next ih =>
    have fresh : m.Renews R := yields.resolve_right id
    obtain ⟨kept, later⟩ := h.kept_crash cause
    have harmless := kept.harmless h (.inl fresh)
    have rest := harmless.run frames (respects _ kept.context) (.inl (kept.renews fresh))
    exact absurd (same ▸ rest.generation) (Nat.not_le.mpr later)

theorem Harmless.visit_achieves (lasting : Lasting R S) (h : m.Harmless R) {i : ℕ} {task : Routine C}
    (ready : m.task? i = some task) (idle : m.isActive i = false) (achieves : task.body.Achieves R S m.context)
    (same : (m.visit frame i).generation = m.generation) : S m.context (m.visit frame i).context := by
  have found : m.slots[i]?.bind (·.task) = some task := ready
  have docile := h.reboot.imp_right fun docile => docile i task ready
  obtain ⟨_, _, left⟩ := (task.body.run frame (m.enter i)).leave_eq i task m.generation
  have visited : m.visit frame i = (task.body.run frame (m.enter i)).leave i task m.generation := by
    rw [Machine.visit, idle, if_neg Bool.false_ne_true, found]
  rw [visited, left] at same ⊢
  exact (h.enter i).run_achieves frames lasting (h.tasks i task ready _) docile achieves same

theorem Harmless.visitAll_achieves (lasting : Lasting R S) (h : m.Harmless R) {i : ℕ} {task : Routine C}
    (ready : m.task? i = some task) (idle : m.isActive i = false) (achieves : ∀ c, task.body.Achieves R S c)
    {left : List ℕ} (visited : i ∈ left)
    (same : (Machine.visitAll frame m.generation left m).generation = m.generation) :
    S m.context (Machine.visitAll frame m.generation left m).context := by
  induction left generalizing m with
  | nil => exact absurd visited List.not_mem_nil
  | cons j left ih =>
    rw [Machine.visitAll, if_neg (not_not.mpr rfl)] at same ⊢
    rcases expired : m.clock.isExpired with _ | _
    · rw [expired, if_neg Bool.false_ne_true] at same
      rw [if_neg Bool.false_ne_true]
      have kept := h.visit frames j
      have still : (m.visit frame j).generation = m.generation := by
        by_contra rebooted
        rw [visitAll_of_ne rebooted] at same
        exact rebooted same
      have harmless := kept.harmless h (.inr still)
      have rest := harmless.visitAll frames left
      rw [still] at rest
      rcases List.mem_cons.mp visited with rfl | later
      · exact lasting.after (h.visit_achieves frames lasting ready idle (achieves _) still) rest.context
      · obtain ⟨active, -, tasks⟩ := kept.same still
        have idle' : (m.visit frame j).isActive i = false := by rwa [isActive, active]
        have next := ih harmless (tasks ▸ ready) idle' later
        rw [still] at next
        exact lasting.before kept.context (next same)
    · rw [expired, if_pos rfl] at same
      exact absurd same (h.kept_crash .watchdogTimeout).2.ne'

end Frames

theorem Harmless.frame [IsPreorder C R] (room : ℕ) (h : m.Harmless R) : m.Kept R (Machine.frame room m) := by
  induction room generalizing m with
  | zero => exact h.kept .refl rfl (refl_of R _)
  | succ room ih => exact h.visitAll (fun _ => ih) _

/-- The others do something that matters to the task that waits: one of them achieves it whenever it runs. -/
def Attended (R S : C → C → Prop) (m : Machine C) : Prop :=
  ∃ i task, m.task? i = some task ∧ m.isActive i = false ∧ ∀ c, task.body.Achieves R S c

theorem Kept.attended (kept : m.Kept R m') (attended : m.Attended R S) (same : m'.generation = m.generation) :
    m'.Attended R S := by
  obtain ⟨active, -, tasks⟩ := kept.same same
  simpa only [Attended, tasks, isActive, active] using attended

theorem Harmless.frame_achieves [IsPreorder C R] (lasting : Lasting R S) (h : m.Harmless R)
    (attended : m.Attended R S) {room : ℕ} (same : (Machine.frame (room + 1) m).generation = m.generation) :
    S m.context (Machine.frame (room + 1) m).context := by
  obtain ⟨i, task, ready, idle, achieves⟩ := attended
  have inside : i ∈ List.range m.slots.size := List.mem_range.mpr (lt_size_of_task? ready)
  exact h.visitAll_achieves (fun _ h => h.frame room) lasting ready idle achieves inside same

theorem Harmless.yield [IsPreorder C R] (h : m.Harmless R) (room : ℕ) :
    m.Kept R (m.yieldWith (Machine.frame room)).2 ∧ ((m.yieldWith (Machine.frame room)).1 = true ↔
      (m.yieldWith (Machine.frame room)).2.generation = m.generation) :=
  h.yieldWith fun _ h => h.frame room

theorem Harmless.yieldWith_achieves {frame : Machine C → Machine C} (h : m.Harmless R) (attended : m.Attended R S)
    (shallow : m.depth < m.settings.maxNesting)
    (achieves : ∀ m : Machine C, m.Harmless R → m.Attended R S → (frame m).generation = m.generation →
      S m.context (frame m).context)
    (same : (m.yieldWith frame).2.generation = m.generation) : S m.context (m.yieldWith frame).2.context := by
  rcases expired : m.clock.isExpired with _ | _
  · have alike := Alike.deepened m
    have attended' : m.deepened.Attended R S := by
      simpa only [Attended, alike.task?, isActive, alike.active] using attended
    rw [yieldWith_of_room expired shallow] at same ⊢
    have achieved := achieves m.deepened (h.congr alike) attended' (same.trans alike.generation.symm)
    rwa [context_deepened] at achieved
  · rw [yieldWith_of_expired expired] at same
    exact absurd same (h.kept_crash .watchdogTimeout).2.ne'

theorem Harmless.yield_achieves [IsPreorder C R] (lasting : Lasting R S) (h : m.Harmless R)
    (attended : m.Attended R S) (shallow : m.depth < m.settings.maxNesting) {room : ℕ}
    (same : (m.yieldWith (Machine.frame (room + 1))).2.generation = m.generation) :
    S m.context (m.yieldWith (Machine.frame (room + 1))).2.context :=
  h.yieldWith_achieves attended shallow (fun _ h attended => h.frame_achieves lasting attended) same

end Machine
end Floppy.Schedule
