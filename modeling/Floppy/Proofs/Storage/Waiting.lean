import Floppy.Proofs.Schedule.ProgramSteps
import Floppy.Proofs.Schedule.YieldEffects
import Floppy.Proofs.Storage
import Floppy.Storage.Waiting

/-!
# Writes that wait are exact

A task that writes more than storage takes at once yields until storage is idle again. As long as the others do not
write, and one of them services storage, all of the data comes to its place, or the write is cut short by a reboot.
-/
namespace Floppy
open Schedule

variable {C : Type} [StorageContext C Flash]

/-- Between these contexts storage was not written, but it may have been serviced. -/
def Spared (c c' : C) : Prop :=
  ∃ n, StorageContext.storage c' = Flash.service^[n] (StorageContext.storage c)

/-- Storage was serviced, and not written. -/
def Serviced (c c' : C) : Prop :=
  ∃ n, StorageContext.storage c' = Flash.service^[n + 1] (StorageContext.storage c)

instance : IsPreorder C Spared where
  refl _ := ⟨0, rfl⟩
  trans := by
    rintro a b c ⟨n, first⟩ ⟨k, second⟩
    exact ⟨k + n, by rw [second, first, Function.iterate_add_apply]⟩

theorem lasting_serviced : Lasting (C := C) Spared Serviced where
  before := by
    rintro a b c ⟨n, first⟩ ⟨k, second⟩
    refine ⟨k + n, ?_⟩
    rw [second, first, ← Function.iterate_add_apply, Nat.add_right_comm]
  after := by
    rintro a b c ⟨n, first⟩ ⟨k, second⟩
    refine ⟨k + n, ?_⟩
    rw [second, first, ← Function.iterate_add_apply, Nat.add_assoc]

/-- Storage is in the care of others for as long as a task waits: they service it, and do not write to it. -/
structure Schedule.Machine.Tended (m : Machine C) : Prop where
  harmless : m.Harmless Spared
  attended : m.Attended Spared Serviced
  shallow : m.depth < m.settings.maxNesting
  page : 0 < (StorageContext.storage m.context).pageSize

theorem Schedule.Machine.Kept.tended {m m' : Machine C} (kept : m.Kept Spared m') (tended : m.Tended)
    (same : m'.generation = m.generation) : m'.Tended := by
  refine ⟨kept.harmless tended.harmless (.inr same), kept.attended tended.attended same, ?_, ?_⟩
  · rw [kept.depth, kept.settings]
    exact tended.shallow
  · obtain ⟨n, serviced⟩ := kept.context
    rw [serviced, (Flash.service_iterate n).2.1]
    exact tended.page

section Waiting
variable {m : Machine C} {room : ℕ}

/-- The wait comes to its end, with storage idle or after a reboot. -/
theorem leads_awaitStorage (tended : m.Tended) {patience : ℕ}
    (enough : (StorageContext.storage m.context).busyLeft.toNat < patience) :
    ∃ result m', (∀ next, Leads (room + 1) m (awaitStorage next patience) m' (next result)) ∧ m.Kept Spared m' ∧
      ((result = .ok () ∧ m'.generation = m.generation ∧ (StorageContext.storage m'.context).isBusy = false) ∨
        (result = .error .interrupted ∧ m.generation < m'.generation)) := by
  induction patience generalizing m with
  | zero => exact absurd enough (Nat.not_lt_zero _)
  | succ patience ih =>
    have opened (next : Except StorageError Unit → Program C) :
        Leads (room + 1) m (awaitStorage next (patience + 1)) m
          (if (StorageContext.storage m.context).isBusy then
            .yield fun same => if same then awaitStorage next patience else next (.error .interrupted)
          else next (.ok ())) := .look
    cases busy : (StorageContext.storage m.context).isBusy with
    | false =>
      simp only [busy, Bool.false_eq_true, if_false] at opened
      exact ⟨.ok (), m, opened, tended.harmless.kept .refl rfl (refl_of Spared _), .inl ⟨rfl, rfl, busy⟩⟩
    | true =>
      simp only [busy, if_true] at opened
      obtain ⟨kept, answer⟩ := tended.harmless.yield (room + 1)
      have yielded (next) := (opened next).trans .yield
      cases same : (m.yieldWith (Machine.frame (room + 1))).1 with
      | false =>
        simp only [same, Bool.false_eq_true, if_false] at yielded
        have later : m.generation < (m.yieldWith (Machine.frame (room + 1))).2.generation := by
          refine lt_of_le_of_ne kept.generation fun still => ?_
          rw [answer.mpr still.symm] at same
          cases same
        exact ⟨_, _, yielded, kept, .inr ⟨rfl, later⟩⟩
      | true =>
        simp only [same, if_true] at yielded
        have still := answer.mp same
        obtain ⟨n, serviced⟩ :=
          tended.harmless.yield_achieves lasting_serviced tended.attended tended.shallow still
        have less : (StorageContext.storage
            (m.yieldWith (Machine.frame (room + 1))).2.context).busyLeft.toNat < patience := by
          have positive := Flash.isBusy_iff.mp busy
          rw [serviced, (Flash.service_iterate _).2.2]
          omega
        obtain ⟨result, m', leads, kept', outcome⟩ := ih (kept.tended tended still) less
        exact ⟨result, m', fun next => (yielded next).trans (leads next), kept.trans kept', still ▸ outcome⟩

variable (lens : ∀ (c : C) (flash : Flash), StorageContext.storage (StorageContext.setStorage c flash) = flash)
include lens

theorem tended_writeOnce (tended : m.Tended) (offset : ℕ) (data : List UInt8) :
    (m.update fun _ => (writeOnce offset data m.context).2).Tended := by
  refine ⟨tended.harmless.congr (.update m _), tended.attended, tended.shallow, ?_⟩
  show 0 < (StorageContext.storage (StorageContext.setStorage m.context _)).pageSize
  rw [lens]
  exact Flash.pageSize_write.symm ▸ tended.page

/-- One turn: the idle device takes a piece of the data, and what is left is for the turns that follow. -/
theorem leads_turn (tended : m.Tended) (idle : (StorageContext.storage m.context).isBusy = false)
    {offset written : ℕ} (inside : offset + written < (StorageContext.storage m.context).bytes.size)
    {data : List UInt8} (nonempty : data ≠ []) (requested fuel : ℕ) :
    ∃ m' taken,
      (∀ next, Leads room m
        (.perform (writeOnce (offset + written) data) fun (count, busy) =>
          if count = 0 ∧ !busy then next (.error (.shortWrite written requested))
          else writeRest offset requested next fuel (written + count) (data.drop count))
        m' (writeRest offset requested next fuel (written + taken) (data.drop taken))) ∧
      m'.Tended ∧ m'.generation = m.generation ∧ 0 < taken ∧ taken ≤ data.length ∧
      (StorageContext.storage m'.context).bytes =
        overlay (StorageContext.storage m.context).bytes (offset + written) (data.take taken) := by
  have positive : 0 < (writeOnce (offset + written) data m.context).1.1 :=
    Flash.write_pos tended.page idle inside nonempty
  obtain ⟨few, -, bytes⟩ := (StorageContext.storage m.context).write_spec (offset + written) data
  refine ⟨_, _, fun next => Leads.perform.trans ?_, tended_writeOnce lens tended (offset + written) data, rfl,
    positive, few, ?_⟩
  · dsimp only
    rw [if_neg fun none => positive.ne' none.1]
    exact .refl
  · exact (congrArg Flash.bytes (lens _ _)).trans bytes

/-- Piece by piece the data comes to its place, up to the reboot if there is one. -/
theorem leads_writeRest (tended : m.Tended) {offset written fuel : ℕ} {data : List UInt8}
    (enough : data.length < fuel)
    (fits : offset + written + data.length ≤ (StorageContext.storage m.context).bytes.size) (requested : ℕ) :
    ∃ result m' count,
      (∀ next, Leads (room + 1) m (writeRest offset requested next fuel written data) m' (next result)) ∧
      (StorageContext.storage m'.context).bytes =
        overlay (StorageContext.storage m.context).bytes (offset + written) (data.take count) ∧
      ((result = .ok () ∧ m'.generation = m.generation ∧ count = data.length) ∨
        (result = .error .interrupted ∧ m.generation < m'.generation ∧ count ≤ data.length)) := by
  induction fuel generalizing m written data with
  | zero => exact absurd enough (Nat.not_lt_zero _)
  | succ fuel ih =>
    cases data with
    | nil => exact ⟨.ok (), m, 0, fun _ => .refl, rfl, .inl ⟨rfl, rfl, rfl⟩⟩
    | cons b rest =>
      have patient : (StorageContext.storage m.context).busyLeft.toNat < storagePatience :=
        (UInt32.toNat_lt _).trans (by decide)
      obtain ⟨_, idle, waited, kept, outcome⟩ := leads_awaitStorage tended patient
      have same : (StorageContext.storage idle.context).bytes = (StorageContext.storage m.context).bytes := by
        obtain ⟨n, serviced⟩ := kept.context
        rw [serviced, (Flash.service_iterate n).1]
      rcases outcome with ⟨rfl, still, ready⟩ | ⟨rfl, later⟩
      · have inside : offset + written < (StorageContext.storage idle.context).bytes.size := by
          rw [same]
          rw [List.length_cons] at fits
          omega
        obtain ⟨turned, taken, turns, tended, still', positive, few, bytes⟩ :=
          leads_turn lens (kept.tended tended still) ready inside (List.cons_ne_nil b rest) requested fuel
        rw [same] at bytes
        have shorter : ((b :: rest).drop taken).length < fuel := by
          rw [List.length_drop]
          omega
        have fits' : offset + (written + taken) + ((b :: rest).drop taken).length ≤
            (StorageContext.storage turned.context).bytes.size := by
          rw [bytes, size_overlay, List.length_drop]
          omega
        obtain ⟨result, m', count, leads, bytes', outcome⟩ := ih tended shorter fits'
        refine ⟨result, m', taken + count, fun next => ((waited _).trans (turns next)).trans (leads next), ?_, ?_⟩
        · rw [bytes', bytes, List.take_add, overlay_append, List.length_take_of_le few, Nat.add_assoc]
        · rw [still', still, List.length_drop] at outcome
          rcases outcome with ⟨rfl, now, rfl⟩ | ⟨rfl, later, short⟩
          · exact .inl ⟨rfl, now, Nat.add_sub_cancel' few⟩
          · exact .inr ⟨rfl, later, by omega⟩
      · refine ⟨_, idle, 0, fun next => waited _, ?_, .inr ⟨rfl, later, Nat.zero_le _⟩⟩
        rw [same]
        rfl

/-- While others service storage and do not write to it, a write comes to its end, if the end of the data is a number of
a machine word. It is refused, or all of the data is in its place and nothing else has changed; only after a reboot it
may be a part of the data. Otherwise the program panics, with nothing written. -/
theorem write_exact (harmless : m.Harmless Spared) (attended : m.Attended Spared Serviced)
    (shallow : m.depth < m.settings.maxNesting) (page : 0 < (StorageContext.storage m.context).pageSize)
    (room offset : ℕ) (data : List UInt8) :
    let contents (m : Machine C) := (StorageContext.storage m.context).bytes.toList
    (∃ result m', (∀ panic next, Leads (room + 1) m (writeWaiting offset data panic next) m' (result.elim panic next)) ∧
      (if UInt64.size ≤ offset + data.length then result = none ∧ contents m' = contents m
      else if (contents m).length < offset + data.length then
        result = some (.error (.outOfRange offset data.length)) ∧ contents m' = contents m
      else
        (result = some (.ok ()) ∧ m'.generation = m.generation ∧
          contents m' = (contents m).take offset ++ data ++ (contents m).drop (offset + data.length)) ∨
        (result = some (.error .interrupted) ∧ m.generation < m'.generation ∧ ∃ written, written <+: data ∧
          contents m' = (contents m).take offset ++ written ++ (contents m).drop (offset + written.length)))) ∧
    ∀ (flash : Flash) (place : ℕ) (src : List UInt8), 0 < flash.pageSize →
      place % flash.pageSize + (flash.write place src).1 ≤ flash.pageSize := by
  intro contents
  refine ⟨?_, fun flash place src page => Flash.write_within_page page⟩
  have size : (contents m).length = (StorageContext.storage m.context).bytes.size := Array.length_toList
  by_cases overflows : UInt64.size ≤ offset + data.length
  · simp only [if_pos overflows]
    refine ⟨none, m, fun panic next => ?_, rfl, rfl⟩
    rw [writeWaiting, rangeEnd?_of_le overflows]
    exact .refl
  simp only [if_neg overflows]
  have opened (panic : Program C) (next : Except StorageError Unit → Program C) :
      Leads (room + 1) m (writeWaiting offset data panic next) m
        (if (contents m).length < offset + data.length then next (.error (.outOfRange offset data.length))
        else writeRest offset data.length next (storagePatience + data.length) 0 data) := by
    rw [writeWaiting, rangeEnd?_of_lt (Nat.not_le.mp overflows)]
    exact .look
  by_cases long : (contents m).length < offset + data.length
  · simp only [if_pos long] at opened ⊢
    exact ⟨some _, m, opened, rfl, rfl⟩
  · simp only [if_neg long] at opened ⊢
    have fits : offset + 0 + data.length ≤ (StorageContext.storage m.context).bytes.size := by omega
    have enough : data.length < storagePatience + data.length := Nat.lt_add_of_pos_left (by decide)
    obtain ⟨result, m', count, leads, bytes, outcome⟩ :=
      leads_writeRest lens ⟨harmless, attended, shallow, page⟩ enough fits data.length
    have now : contents m' = (contents m).take offset ++ data.take count ++
        (contents m).drop (offset + (data.take count).length) := by
      have short : (data.take count).length ≤ data.length := List.length_take_le' ..
      rw [← toList_overlay (by omega)]
      exact congrArg Array.toList bytes
    refine ⟨some result, m', fun panic next => (opened panic next).trans (leads next), ?_⟩
    rcases outcome with ⟨rfl, same, rfl⟩ | ⟨rfl, later, -⟩
    · rw [List.take_length] at now
      exact .inl ⟨rfl, same, now⟩
    · exact .inr ⟨rfl, later, data.take count, List.take_prefix .., now⟩

end Waiting

section Caretaker

local instance : StorageContext Flash Flash where
  storage := id
  setStorage _ flash := flash

def caretaker : Routine Flash := ⟨"caretaker", .update (fun flash => { context := flash.service }) .done⟩

/-- A task writes across the end of a page, while another one looks after storage. -/
def pagedWriter (flash : Flash) : Boot Flash where
  context := flash
  tasks := [⟨"writer", writeWaiting 2 [1, 2, 3, 4] .done fun _ => .done⟩, caretaker]

theorem write_exact_paged :
    let m := (Machine.start {} (.erased 8 4 2) { watchdogMax := 5000 } {} pagedWriter).enter 0
    ∃ result m', (∀ panic next, Leads 9 m (writeWaiting 2 [1, 2, 3, 4] panic next) m' (result.elim panic next)) ∧
      ((result = some (.ok ()) ∧ m'.generation = 0 ∧ m'.context.bytes.toList = [0xFF, 0xFF, 1, 2, 3, 4, 0xFF, 0xFF]) ∨
        (result = some (.error .interrupted) ∧ 0 < m'.generation)) := by
  intro m
  have only (i : ℕ) (task : Routine Flash) (found : m.task? i = some task) : task = caretaker := by
    rcases i with _ | _ | i
    · cases found
    · exact (Option.some.inj found).symm
    · cases found
  have harmless : m.Harmless Spared := by
    refine ⟨fun _ => ⟨0, rfl⟩, ?_, .inr ?_⟩
    · rintro i task found c
      rw [only i task found]
      exact ⟨⟨1, rfl⟩, trivial⟩
    · rintro i task found
      rw [only i task found]
      trivial
  have attended : m.Attended Spared Serviced := ⟨1, caretaker, rfl, by decide, fun _ => .inl ⟨0, rfl⟩⟩
  obtain ⟨⟨result, m', leads, outcome⟩, -⟩ :=
    write_exact (fun _ _ => rfl) harmless attended (by decide) (by decide) 8 2 [1, 2, 3, 4]
  refine ⟨result, m', leads, ?_⟩
  rcases outcome with ⟨rfl, same, now⟩ | ⟨rfl, later, -⟩
  · exact .inl ⟨rfl, same, now⟩
  · exact .inr ⟨rfl, later⟩

/-- One byte behind all others of the word: the write is not refused, and no other machine is reached than the one that
panics. -/
theorem write_overflows :
    let flash := Flash.erased 8 4 2
    let m := (Machine.start {} flash { watchdogMax := 5000 } {} pagedWriter).enter 0
    flash.bytes.size < 18446744073709551615 + [(1 : UInt8)].length ∧
      ¬ ∃ m', ∀ panic next, Leads 9 m (writeWaiting 18446744073709551615 [1] panic next) m'
        (next (.error (.outOfRange 18446744073709551615 1))) := by
  intro flash m
  refine ⟨by decide, ?_⟩
  rintro ⟨m', refused⟩
  let mark (flash : Flash) : Effect Flash := { context := { flash with writes := 1 } }
  have still : m = m' := (refused .done fun _ => .done).run
  have marked : m.update mark = m' := (refused (.update mark .done) fun _ => .done).run
  have writes := congrArg (·.context.writes) (still.trans marked.symm)
  exact absurd writes (by decide)

end Caretaker
end Floppy
