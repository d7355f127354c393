import Floppy.Proofs.Gcr.Reader
import Floppy.Proofs.Head.Passing

/-!
# Reading back what a head sends

All bytes that a head gives, fillers and torn frames among them, go to one reader of data fields. A sector that
the reader finds is that of a frame whose data field passed without a break up to the second byte of its
epilogue, and it is found at that byte; so fields are found in the order they passed, and none twice. A field
that is torn before is followed by sync bytes and then by the opener of a prologue, and one of these stands
where a symbol or the epilogue is due, so that nothing is read out of the pieces.
-/
namespace Floppy
open Gcr DataField

namespace Standing

/-- Nothing of a frame but sync bytes has passed yet. -/
def Early : Standing → Prop
  | idle => True
  | inside _ _ sent => sent ≤ 2

/-- At first only sync bytes pass, and then the opener of a prologue. -/
theorem Gives.of_early {here next : Standing} {passed : Passed} (gives : here.Gives passed next)
    (early : here.Early) : (passed.byte = syncByte ∧ next.Early) ∨ passed.byte = 0xD5 := by
  cases gives with
  | filler => exact .inl ⟨rfl, trivial⟩
  | begins address sector => exact .inl ⟨rfl, Nat.le_succ 1⟩
  | @goes address sector sent byte there =>
    have few : sent = 0 ∨ sent = 1 ∨ sent = 2 := by
      simp only [Early] at early
      omega
    rw [after_of_lt (show sent + 1 < 366 by omega)]
    rcases few with rfl | rfl | rfl
    · exact .inl ⟨(Option.some.inj there).symm, Nat.le_succ 1⟩
    · exact .inl ⟨(Option.some.inj there).symm, le_rfl⟩
    · exact .inr (Option.some.inj there).symm

end Standing

/-- What the reader has got out of the bytes that passed, by where the head stands. Between fields, the opener
of a prologue is known to be one of the two in a frame. -/
inductive Reads : Reader → Standing → Prop
  | seeking {a b c : UInt8} {standing : Standing}
      (window : ∀ address sector sent, standing = .inside address sector sent →
        (c = 0xD5 → sent = 3 ∨ sent = 18) ∧ (b = 0xD5 → c = 0xAA → sent = 4 ∨ sent = 19)) :
      Reads (.searching a b c) standing
  | following {address : AddressField} {sector : Sector} {got : ℕ} (short : got < 345) :
      Reads (.collecting (marker ++ (body sector).take got).toArray)
        (.inside address sector (Frame.bodyStart + got))
  | lost {got : List UInt8} {standing : Standing} (short : got.length < 345)
      (astray : Doomed got ∨ standing.Early) :
      Reads (.collecting (marker ++ got).toArray) standing

namespace Reads
variable {reader : Reader} {here next : Standing} {passed : Passed}

theorem tear (h : Reads reader here) : Reads reader .idle := by
  cases h with
  | seeking window => exact .seeking (by simp)
  | following short => exact .lost (by simp; omega) (.inr trivial)
  | lost short astray => exact .lost short (.inr trivial)

theorem start : Reads Reader.start next := .seeking (by intros; constructor <;> simp)

/-- Where a prologue is complete, the body of a field begins. -/
theorem push_seeking {a b c : UInt8} (h : Reads (.searching a b c) here) (gives : here.Gives passed next) :
    Reads (Reader.push passed.byte (.searching a b c)).1 next := by
  cases h with | seeking window =>
  by_cases complete : [b, c, passed.byte] = marker
  · obtain ⟨rfl, rfl, last⟩ : b = 0xD5 ∧ c = 0xAA ∧ passed.byte = 0xAD := by simpa [marker] using complete
    rw [Reader.push, if_pos complete]
    cases gives with
    | filler => exact absurd last (show syncByte ≠ 0xAD by decide)
    | begins => exact absurd last (show syncByte ≠ 0xAD by decide)
    | @goes address sector sent byte there =>
      rcases (window address sector sent rfl).2 rfl rfl with rfl | rfl
      · exact absurd (last.symm.trans (Option.some.inj there).symm) (by decide)
      · exact @following address sector 0 (by decide)
  · rw [Reader.push, if_neg complete]
    cases gives with
    | filler => exact .seeking (by simp)
    | begins address sector =>
      refine .seeking ?_
      intro address sector sent same
      constructor
      · intro opens
        exact absurd opens (show syncByte ≠ 0xD5 by decide)
      · intro _ second
        exact absurd second (show syncByte ≠ 0xAA by decide)
    | @goes address sector sent byte there =>
      refine .seeking ?_
      intro address' sector' sent' same
      obtain ⟨rfl, rfl, rfl⟩ := Standing.eq_of_after same
      constructor
      · rintro rfl
        have := Frame.place_of_opener there
        omega
      · intro opens second
        have := (window address sector sent rfl).1 opens
        omega

/-- The next byte of a body; with the second byte of the epilogue its sector is found. -/
theorem push_body {sector : Sector} {got : ℕ} {byte : UInt8} (short : got < 345)
    (there : (body sector)[got]? = some byte) :
    Reader.push byte (.collecting (marker ++ (body sector).take got).toArray) =
      if got + 1 = 345 then (.start, some (.ok sector))
      else (.collecting (marker ++ (body sector).take (got + 1)).toArray, none) := by
  have length : ((body sector).take got).length = got := by
    rw [List.length_take, length_body]
    omega
  have grown : (body sector).take got ++ [byte] = (body sector).take (got + 1) := by
    rw [List.take_add_one, there]
    rfl
  rw [Reader.push_collecting, length, grown]
  by_cases whole : got + 1 = 345
  · rw [if_pos whole, if_pos whole, whole, decodeBody_body]
  · rw [if_neg whole, if_neg whole]

/-- The body goes on; with the second byte of the epilogue the sector is found. -/
theorem push_following {sector : Sector} {address : AddressField} {got : ℕ} (short : got < 345)
    (gives : Standing.Gives (.inside address sector (Frame.bodyStart + got)) passed next) :
    let pushed := Reader.push passed.byte (.collecting (marker ++ (body sector).take got).toArray)
    Reads pushed.1 next ∧
      ∀ found, pushed.2 = some (.ok found) → passed.origin = some (found, Frame.closing) := by
  cases gives with | @goes _ _ _ byte there =>
  rw [Frame.getElem?_encode_body] at there
  simp only [push_body short there]
  by_cases whole : got + 1 = 345
  · obtain rfl : got = 344 := by omega
    rw [if_pos rfl]
    refine ⟨start, ?_⟩
    intro found same
    cases same
    rfl
  · have more : Frame.bodyStart + got + 1 < Frame.size := by
      show 20 + got + 1 < 366
      omega
    have further : got + 1 < 345 := by omega
    rw [if_neg whole, Standing.after_of_lt more]
    exact ⟨.following further, by simp⟩

theorem push_lost {got : List UInt8} (short : got.length < 345) (astray : Doomed got ∨ here.Early)
    (gives : here.Gives passed next) :
    let pushed := Reader.push passed.byte (.collecting (marker ++ got).toArray)
    Reads pushed.1 next ∧ ∀ found, pushed.2 ≠ some (.ok found) := by
  have still : Doomed (got ++ [passed.byte]) ∨ (next.Early ∧ got.length < 343) := by
    rcases astray with doomed | early
    · exact .inl (doomed.append _)
    rcases gives.of_early early with ⟨sync, early⟩ | opens
    · by_cases late : 343 ≤ got.length
      · rw [sync]
        exact .inl (.sync late short)
      · exact .inr ⟨early, by omega⟩
    · rw [opens]
      exact .inl (.opener short)
  simp only [Reader.push_collecting]
  by_cases whole : got.length + 1 = 345
  · have doomed : Doomed (got ++ [passed.byte]) := still.resolve_right (by omega)
    rw [if_pos whole]
    refine ⟨start, ?_⟩
    intro found same
    exact doomed [] 3 found (by simpa using same)
  · rw [if_neg whole]
    have fewer : (got ++ [passed.byte]).length < 345 := by
      rw [List.length_append, List.length_singleton]
      omega
    exact ⟨.lost fewer (still.imp_right And.left), by simp⟩

/-- A sector is found at the second byte of the epilogue of its own field, and nowhere else. -/
theorem push (h : Reads reader here) (gives : here.Gives passed next) :
    Reads (reader.push passed.byte).1 next ∧
      ∀ found, (reader.push passed.byte).2 = some (.ok found) →
        passed.origin = some (found, Frame.closing) := by
  cases h with
  | @seeking a b c _ window =>
    refine ⟨push_seeking (.seeking window) gives, ?_⟩
    intro found same
    by_cases complete : [b, c, passed.byte] = marker
    · simp [Reader.push, complete] at same
    · simp [Reader.push, complete] at same
  | following short => exact push_following short gives
  | lost short astray =>
    obtain ⟨reads, none⟩ := push_lost short astray gives
    exact ⟨reads, fun found same => absurd same (none found)⟩

end Reads

def Passed.closed? (passed : Passed) : Option Sector :=
  passed.origin.bind fun (sector, place) => if place = Frame.closing then some sector else none

/-- The bytes that passed, all of them read by one reader. -/
structure Tape where
  passed : List Passed := []
  reader : Reader := .start
  /-- The sectors that the reader found, each with the number of bytes that had passed before the one that
  completed its field. -/
  found : List (ℕ × Sector) := []

namespace Tape

def hear (tape : Tape) (passed : Passed) : Tape :=
  let (reader, result) := tape.reader.push passed.byte
  { passed := tape.passed ++ [passed]
    reader
    found := match result with
      | some (.ok sector) => tape.found ++ [(tape.passed.length, sector)]
      | _ => tape.found }

/-- The data fields that passed up to the second byte of their epilogue, each by the number of bytes that had
passed before. -/
def closings (passed : List Passed) : List (ℕ × Sector) :=
  passed.zipIdx.filterMap fun (p, number) => p.closed?.map (number, ·)

/-- The data field of a sector as it passes in its frame, from the sync byte to the second byte of the
epilogue. -/
def field (sector : Sector) : List Passed :=
  (((DataField.encode sector).take 349).zipIdx Frame.headerSize).map fun (byte, place) =>
    ⟨byte, some (sector, place)⟩

def frame (address : AddressField) (sector : Sector) : List Passed :=
  (Frame.encode address sector).zipIdx.map fun (byte, place) => ⟨byte, some (sector, place)⟩

theorem closings_append (passed : List Passed) (p : Passed) :
    closings (passed ++ [p]) = closings passed ++ (p.closed?.map (passed.length, ·)).toList := by
  cases closes : p.closed? <;> simp [closings, List.zipIdx_append, List.zipIdx_cons, closes]

theorem lt_length_of_mem_closings {passed : List Passed} {number : ℕ} {sector : Sector}
    (mem : (number, sector) ∈ closings passed) : number < passed.length := by
  simp only [closings, List.mem_filterMap, Option.map_eq_some_iff, Prod.mk.injEq] at mem
  obtain ⟨⟨p, k⟩, there, _, _, rfl, _⟩ := mem
  exact List.snd_lt_of_mem_zipIdx there

theorem getElem?_frame (address : AddressField) (sector : Sector) (place : ℕ) :
    (frame address sector)[place]? =
      ((Frame.encode address sector)[place]?).map fun byte => ⟨byte, some (sector, place)⟩ := by
  cases there : (Frame.encode address sector)[place]? <;> simp [frame, List.getElem?_zipIdx, there]

/-- The data field is what passes of a frame behind its header. -/
theorem field_eq (address : AddressField) (sector : Sector) :
    field sector = ((frame address sector).take (Frame.closing + 1)).drop Frame.headerSize := by
  ext i : 1
  have behind : (Frame.encode address sector)[Frame.headerSize + i]? = (DataField.encode sector)[i]? := by
    rw [Frame.encode, List.getElem?_append_right (by simp [Frame.length_header]), Frame.length_header,
      Nat.add_sub_cancel_left]
  by_cases inside : i < 349
  · have before : Frame.headerSize + i < Frame.closing + 1 := by
      show 16 + i < 365
      omega
    cases there : (DataField.encode sector)[i]? <;>
      simp [field, List.getElem?_zipIdx, List.getElem?_take_of_lt, getElem?_frame, inside, before, behind, there]
  · have past : Frame.closing + 1 ≤ Frame.headerSize + i := by
      show 365 ≤ 16 + i
      omega
    simp [field, List.getElem?_take_eq_none, inside, past]

/-- What is known of the bytes that passed, by where the head stands. -/
structure Heard (tape : Tape) (standing : Standing) : Prop where
  reads : Reads tape.reader standing
  trail : ∀ address sector sent, standing = .inside address sector sent →
    (frame address sector).take sent <:+ tape.passed
  found : tape.found.Sublist (closings tape.passed)
  whole : ∀ c ∈ closings tape.passed, field c.2 <:+ tape.passed.take (c.1 + 1)

namespace Heard
variable {tape : Tape} {here next : Standing} {passed : Passed}

theorem fresh : Heard {} .idle where
  reads := .start
  trail := by simp
  found := .slnil
  whole := by simp [closings]

theorem tear (h : Heard tape here) : Heard tape .idle where
  reads := h.reads.tear
  trail := by simp
  found := h.found
  whole := h.whole

/-- Inside a frame the bytes that passed last are its first ones. -/
theorem trail_hear (h : Heard tape here) (gives : here.Gives passed next) {address : AddressField}
    {sector : Sector} {sent : ℕ} (inside : next = .inside address sector sent) :
    (frame address sector).take sent <:+ tape.passed ++ [passed] := by
  cases gives with
  | filler => cases inside
  | begins =>
    cases inside
    exact List.suffix_append _ _
  | @goes address sector sent byte there =>
    obtain ⟨rfl, rfl, rfl⟩ := Standing.eq_of_after inside
    have grown : (frame address sector).take (sent + 1) =
        (frame address sector).take sent ++ [⟨byte, some (sector, sent)⟩] := by
      rw [List.take_add_one, getElem?_frame, there]
      rfl
    obtain ⟨before, same⟩ := h.trail address sector sent rfl
    rw [grown, ← same]
    exact ⟨before, (List.append_assoc ..).symm⟩

/-- With the second byte of its epilogue a data field has passed from its sync byte on. -/
theorem field_suffix (h : Heard tape here) (gives : here.Gives passed next) {sector : Sector}
    (closes : passed.closed? = some sector) : field sector <:+ tape.passed ++ [passed] := by
  have inside : ∃ address, next = .inside address sector (Frame.closing + 1) := by
    cases gives with
    | filler => cases closes
    | begins => cases closes
    | @goes address sector' sent byte there =>
      by_cases last : sent = Frame.closing
      · simp only [Passed.closed?, last, Option.bind_some, if_true, Option.some.injEq] at closes
        rw [last, closes, Standing.after_of_lt (by decide)]
        exact ⟨address, rfl⟩
      · simp [Passed.closed?, last] at closes
  obtain ⟨address, rfl⟩ := inside
  rw [field_eq address]
  exact (List.drop_suffix _ _).trans (h.trail_hear gives rfl)

theorem hear (h : Heard tape here) (gives : here.Gives passed next) : Heard (tape.hear passed) next := by
  obtain ⟨reads, closes⟩ := h.reads.push gives
  exact {
    reads := reads
    trail := fun address sector sent inside => h.trail_hear gives inside
    found := by
      show List.Sublist _ (closings (tape.passed ++ [passed]))
      rw [closings_append]
      cases result : (tape.reader.push passed.byte).2 with
      | none =>
        simp only [Tape.hear, result]
        exact h.found.trans (List.sublist_append_left _ _)
      | some outcome =>
        cases outcome with
        | error fault =>
          simp only [Tape.hear, result]
          exact h.found.trans (List.sublist_append_left _ _)
        | ok sector =>
          have here : passed.closed? = some sector := by simp [Passed.closed?, closes sector result]
          simp only [Tape.hear, result, here]
          exact h.found.append (List.Sublist.refl _)
    whole := by
      intro (number, sector) mem
      show _ <:+ (tape.passed ++ [passed]).take (number + 1)
      rcases List.mem_append.mp (closings_append tape.passed passed ▸ mem) with old | new
      · rw [List.take_append_of_le_length (lt_length_of_mem_closings old)]
        exact h.whole _ old
      · cases closed : passed.closed? with
        | none => simp [closed] at new
        | some completed =>
          obtain ⟨rfl, rfl⟩ : number = tape.passed.length ∧ sector = completed := by simpa [closed] using new
          rw [List.take_of_length_le (by simp)]
          exact h.field_suffix gives closed }

end Heard
end Tape

/-- What is done with a head that reads. -/
inductive Head.Call where
  | next (slot : DriveSlot) (drive : Drive) (cache : TrackCache) (hint : Option Position)
  | moveTo (track : UInt8)
  | reset (sector : UInt8)

/-- A head, and the tape of what it gives. -/
structure Readback extends Tape where
  head : Head := {}
  /-- The sector of the frame in progress. -/
  kept : Option Sector := none

namespace Readback
open Tape

def step (r : Readback) : Head.Call → Readback
  | .next slot drive cache hint =>
    let pass := r.head.next slot drive cache hint
    let kept := r.head.source r.kept slot drive cache hint
    { r.hear ⟨pass.output.value, kept.map (·, (r.head.moveTo drive.track).bytesSent)⟩ with
      head := pass.head, kept }
  | .moveTo track => { r with head := r.head.moveTo track }
  | .reset sector => { r with head := r.head.reset sector }

def run (calls : List Head.Call) : Readback := calls.foldl step {}

/-- Each call leaves the head where the bytes that passed say. -/
theorem step_stands {r : Readback} {standing : Standing} (stands : r.head.Stands r.kept standing)
    (heard : Heard r.toTape standing) (call : Head.Call) :
    ∃ next, (r.step call).head.Stands (r.step call).kept next ∧ Heard (r.step call).toTape next := by
  cases call with
  | next slot drive cache hint =>
    obtain ⟨here, next, origin, gives, stands⟩ := stands.next slot drive cache hint
    have heard : Heard r.toTape here := by
      rcases origin with rfl | rfl
      · exact heard
      · exact heard.tear
    exact ⟨next, stands, heard.hear gives⟩
  | moveTo track =>
    rcases stands.moveTo track with stays | torn
    · exact ⟨standing, stays, heard⟩
    · exact ⟨.idle, torn, heard.tear⟩
  | reset sector => exact ⟨.idle, Head.Stands.reset r.head r.kept sector, heard.tear⟩

theorem run_stands (calls : List Head.Call) :
    ∃ standing, (run calls).head.Stands (run calls).kept standing ∧ Heard (run calls).toTape standing := by
  induction calls using List.reverseRecOn with
  | nil => exact ⟨.idle, .idle rfl, Heard.fresh⟩
  | append_singleton calls call ih =>
    obtain ⟨standing, stands, heard⟩ := ih
    have last : run (calls ++ [call]) = (run calls).step call := by simp [run]
    rw [last]
    exact step_stands stands heard call

/-- Each sector that is found is that of a data field which passed unbroken from its sync byte to the second
byte of its epilogue. It is found at that byte, so the order is kept and no field is found twice. -/
theorem found_unbroken (calls : List Head.Call) :
    (run calls).found.Sublist (closings (run calls).passed) ∧
      ∀ c ∈ closings (run calls).passed, field c.2 <:+ (run calls).passed.take (c.1 + 1) := by
  obtain ⟨_, _, heard⟩ := run_stands calls
  exact ⟨heard.found, heard.whole⟩

end Readback
end Floppy
