import Floppy.Schedule.CrashLog
import Mathlib.Data.List.DropRight

/-!
# What is on record

Records are added to a crash log: its history keeps the latest of them, in their order, and its store holds a line for
each, behind all that it held before. This is said of the contents, and not of the calls that have led to them.
-/
namespace Floppy

/-- The entries have come behind those of the history, which keeps the latest. -/
structure History.Gains {α : Type} (h : History α) (gained : List α) (h' : History α) : Prop where
  capacity : h'.capacity = h.capacity
  entries : h.entries.length ≤ h.capacity → h'.entries = (h.entries ++ gained).rtake h.capacity

namespace History.Gains
variable {α : Type} {h h' h'' : History α} {first second : List α}

theorem refl (h : History α) : h.Gains [] h := by
  refine ⟨rfl, fun fits => ?_⟩
  rw [List.append_nil, List.rtake, Nat.sub_eq_zero_of_le fits, List.drop_zero]

theorem push (h : History α) (a : α) : h.Gains [a] (h.push a) := by
  refine ⟨rfl, fun _ => ?_⟩
  rw [History.push, List.rtake, List.length_append, List.length_singleton]

theorem trans (before : h.Gains first h') (after : h'.Gains second h'') : h.Gains (first ++ second) h'' := by
  refine ⟨after.capacity.trans before.capacity, fun fits => ?_⟩
  have entries := before.entries fits
  have still : h'.entries.length ≤ h'.capacity := by
    rw [entries, before.capacity, List.rtake, List.length_drop]
    omega
  have short : (h.entries ++ first).length - h.capacity ≤ (h.entries ++ first).length := Nat.sub_le _ _
  rw [after.entries still, entries, before.capacity, ← List.append_assoc]
  simp only [List.rtake]
  rw [← List.drop_append_of_le_length short, List.drop_drop]
  congr 1
  simp only [List.length_append, List.length_drop] at fits ⊢
  omega

end History.Gains

namespace Schedule
namespace CrashStore

/-- Appending to the store goes well. -/
def Takes (store : CrashStore) : Prop := ∀ line, (store.append line).2 = none

/-- The lines of the one store, and behind them these lines, are those of the other. -/
def Gains (lines : List String) : CrashStore → CrashStore → Prop
  | memory before, memory after => after.reverse = before.reverse ++ lines
  | file before, file after =>
    after.getD [] = before.getD [] ++ lines.flatMap fun line => line.toUTF8.toList ++ [10]
  | _, _ => False

theorem Takes.append {store : CrashStore} (h : store.Takes) (line : String) : (store.append line).1.Takes := by
  cases store with
  | memory lines => exact fun _ => rfl
  | file content => exact fun _ => rfl
  | closed loaded cause => exact nomatch h ""

namespace Gains
variable {store store' store'' : CrashStore} {first second : List String}

theorem refl (takes : store.Takes) : Gains [] store store := by
  cases store with
  | memory lines => exact (List.append_nil _).symm
  | file content => exact (List.append_nil _).symm
  | closed loaded cause => exact nomatch takes ""

theorem append (takes : store.Takes) (line : String) : Gains [line] store (store.append line).1 := by
  cases store with
  | memory lines => exact List.reverse_cons
  | file content => exact (List.append_assoc _ _ _).trans (by rw [List.flatMap_singleton])
  | closed loaded cause => exact nomatch takes ""

theorem trans (before : Gains first store store') (after : Gains second store' store'') :
    Gains (first ++ second) store store'' := by
  cases store <;> cases store' <;> cases store'' <;> simp only [Gains] at before after ⊢
  case memory.memory.memory => rw [after, before, List.append_assoc]
  case file.file.file => rw [after, before, List.flatMap_append, List.append_assoc]

end Gains
end CrashStore

/-- The records have been added to the log. -/
structure CrashLog.Gains (log : CrashLog) (records : List CrashRecord) (log' : CrashLog) : Prop where
  previous : log'.previous = log.previous
  history : log.records.Gains records log'.records
  store : log.store.Takes → log'.store.Takes ∧ CrashStore.Gains (records.map CrashRecord.text) log.store log'.store

namespace CrashLog.Gains
variable {log log' log'' : CrashLog} {first second : List CrashRecord}

theorem refl (log : CrashLog) : log.Gains [] log :=
  ⟨rfl, .refl _, fun takes => ⟨takes, .refl takes⟩⟩

theorem record (log : CrashLog) (r : CrashRecord) : log.Gains [r] (log.record r).1 :=
  ⟨rfl, .push _ r, fun takes => ⟨takes.append _, .append takes _⟩⟩

theorem trans (before : log.Gains first log') (after : log'.Gains second log'') :
    log.Gains (first ++ second) log'' := by
  refine ⟨after.previous.trans before.previous, before.history.trans after.history, fun takes => ?_⟩
  obtain ⟨takes', lines⟩ := before.store takes
  obtain ⟨takes'', lines'⟩ := after.store takes'
  rw [List.map_append]
  exact ⟨takes'', lines.trans lines'⟩

end CrashLog.Gains
end Schedule
end Floppy
