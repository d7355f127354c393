import Floppy.Proofs.Gcr.AddressField
import Floppy.Proofs.Head.Genuine
import Floppy.Proofs.Head.Readback
import Floppy.Proofs.Host.ByteOutcome

/-!
# What a host hears

A host that looks for an address finds that of the frame in which the head stands, at the end of its header. The data
field that follows is the one of the same frame; so what the host reads then is the sector that it was looking for.
-/
namespace Floppy
open Gcr DataField

/-- What the reader has after so many bytes from behind a header. -/
def Gcr.DataField.readerAt (sector : Sector) : ℕ → Reader
  | 0 => .searching 0 0 0
  | 1 => .searching 0 0 syncByte
  | 2 => .searching 0 syncByte 0xD5
  | 3 => .searching syncByte 0xD5 0xAA
  | got + 4 => .collecting (marker ++ (body sector).take got).toArray

/-- A data field is read through to the second byte of its epilogue, and then it gives its sector. -/
theorem Gcr.DataField.push_readerAt {address : AddressField} {sector : Sector} {got : ℕ} {byte : UInt8}
    (next : (Frame.encode address sector)[Frame.headerSize + got]? = some byte) (inside : got ≤ 348) :
    Reader.push byte (readerAt sector got) =
      if got = 348 then (.start, some (.ok sector)) else (readerAt sector (got + 1), none) := by
  match got with
  | 0 => rw [← Option.some.inj next]; rfl
  | 1 => rw [← Option.some.inj next]; rfl
  | 2 => rw [← Option.some.inj next]; rfl
  | 3 => rw [← Option.some.inj next]; rfl
  | got + 4 =>
    have place : Frame.headerSize + (got + 4) = Frame.bodyStart + got := by
      simp only [Frame.bodyStart]
      omega
    rw [place, Frame.getElem?_encode_body] at next
    rw [readerAt, Reads.push_body (by omega) next]
    by_cases whole : got + 1 = 345
    · rw [if_pos whole, if_pos (by omega)]
    · rw [if_neg whole, if_neg (by omega)]
      rfl

namespace Host

/-- The opener of a prologue among the last bytes belongs to the frame in which the head stands, and what follows it is
what has passed of the frame since. -/
structure Trails (window : List UInt8) (standing : Standing) : Prop where
  short : window.length ≤ windowSize
  opener : ∀ rest, 0xD5 :: rest <:+ window → ∃ address sector sent place,
    standing = .inside address sector sent ∧ (place = 2 ∨ place = 17) ∧ place < sent ∧
      0xD5 :: rest = ((Frame.encode address sector).take sent).drop place

namespace Trails
variable {window : List UInt8} {here next : Standing} {passed : Passed}

theorem nil (standing : Standing) : Trails [] standing := by
  refine ⟨Nat.zero_le _, fun rest ends => ?_⟩
  cases List.suffix_nil.mp ends

theorem length_slide (window : List UInt8) (byte : UInt8) (short : window.length ≤ windowSize) :
    (slide window byte).length ≤ windowSize := by
  simp only [slide, List.length_append, List.length_drop, List.length_singleton, windowSize] at short ⊢
  omega

theorem opens {address : AddressField} {sector : Sector} {sent : ℕ}
    (there : (Frame.encode address sector)[sent]? = some 0xD5) :
    ∃ place, (place = 2 ∨ place = 17) ∧ place < sent + 1 ∧ sent + 1 < Frame.size ∧
      [0xD5] = ((Frame.encode address sector).take (sent + 1)).drop place := by
  have place := Frame.place_of_opener there
  have lt : sent < (Frame.encode address sector).length := (List.getElem?_eq_some_iff.mp there).1
  refine ⟨sent, place, Nat.lt_succ_self _, ?_, ?_⟩
  · simp only [Frame.size, Frame.headerSize, DataField.size]
    omega
  · rw [List.take_add_one, there, List.drop_left' (List.length_take_of_le lt.le)]
    rfl

/-- One more byte passes, and the first of the last ones is forgotten. -/
theorem slide (h : Trails window here) (gives : here.Gives passed next) : Trails (slide window passed.byte) next := by
  have short := length_slide window passed.byte h.short
  refine ⟨short, fun rest ends => ?_⟩
  have size := ends.length_le.trans short
  obtain empty | ⟨before, same, earlier⟩ := List.suffix_concat_iff.mp ends
  · cases empty
  obtain ⟨rfl, last⟩ | ⟨more, rfl, rfl⟩ := List.cons_eq_append_iff.mp same
  · obtain ⟨byte, rfl⟩ := List.cons.inj last
    cases gives with
    | filler => exact absurd byte (show syncByte ≠ 0xD5 by decide)
    | begins => exact absurd byte (show syncByte ≠ 0xD5 by decide)
    | goes there =>
      obtain rfl := byte
      obtain ⟨place, which, since, inside, shown⟩ := opens there
      exact ⟨_, _, _, place, Standing.after_of_lt inside, which, since, shown⟩
  · obtain ⟨address, sector, sent, place, rfl, which, since, shown⟩ :=
      h.opener more (earlier.trans (List.drop_suffix ..))
    cases gives with
    | goes there =>
      have lt : sent < (Frame.encode address sector).length := (List.getElem?_eq_some_iff.mp there).1
      have length : ((Frame.encode address sector).take sent).length = sent := List.length_take_of_le lt.le
      have long := congrArg List.length shown
      rw [List.length_drop, length] at long
      refine ⟨address, sector, sent + 1, place, Standing.after_of_lt ?_, which, by omega, ?_⟩
      · simp only [List.length_cons, List.length_append, List.length_nil, Frame.size, Frame.headerSize, DataField.size,
          windowSize] at long size ⊢
        omega
      · rw [← List.cons_append, shown, List.take_add_one, there, List.drop_append_of_le_length (by omega)]
        rfl

/-- An address field is found at the end of the header of the frame in which the head stands. -/
theorem of_find? (h : Trails window here) (closes : AddressField.trailer <:+ window) {field : AddressField}
    (found : AddressField.find? window = some field) : ∃ sector, here = .inside field sector Frame.headerSize := by
  obtain ⟨bytes, ends, reads⟩ := AddressField.of_find? found
  obtain ⟨rest, begins, long⟩ := AddressField.of_ofBytes? reads
  obtain ⟨address, sector, sent, place, rfl, which, since, shown⟩ := h.opener _ (begins ▸ ends)
  rw [← begins] at shown
  have length := congrArg List.length shown
  have short := ends.length_le.trans h.short
  simp only [begins, List.length_cons, List.length_drop, List.length_take, Frame.length_encode, windowSize, Frame.size,
    Frame.headerSize, DataField.size] at length short
  have there (i : ℕ) (inside : place + i < sent) : bytes[i]? = (Frame.encode address sector)[place + i]? := by
    rw [shown, List.getElem?_drop, List.getElem?_take_of_lt inside]
  have third : (Frame.encode address sector)[place + 2]? = some 0x96 := by
    rw [← there 2 (by omega), begins]
    rfl
  obtain rfl : place = 2 := by
    refine which.resolve_right ?_
    rintro rfl
    exact absurd (Option.some.inj third) (show (0xAD : UInt8) ≠ 0x96 by decide)
  have closer : (Frame.encode address sector)[sent - 3]? = some 0xDE := by
    obtain ⟨before, closed⟩ := List.suffix_of_suffix_length_le closes ends
      (by simp only [begins, AddressField.trailer, List.length_cons, List.length_nil]; omega)
    have size := congrArg List.length closed
    simp only [begins, AddressField.trailer, List.length_append, List.length_cons, List.length_nil] at size
    rw [show sent - 3 = 2 + before.length by omega, ← there before.length (by omega), ← closed,
      List.getElem?_append_right le_rfl, Nat.sub_self]
    rfl
  have ended := Frame.eq_of_closer (by omega) (by omega) closer
  obtain rfl : sent = Frame.headerSize := by
    simp only [Frame.headerSize]
    omega
  rw [shown, Frame.drop_take_header, ← List.append_nil address.encode, AddressField.ofBytes?_encode] at reads
  exact ⟨sector, by rw [Option.some.inj reads]⟩

end Trails

/-- What a host has heard of the frame in which the head stands: of a header while it looks for an address, and of the
data field of the sector that is looked for while it reads. -/
inductive Hears (images : PerDrive (Array UInt8)) (host : Host) (standing : Standing) : Prop
  | deaf (unwanted : host.wanted = false)
  | looking {window : List UInt8} {headers : ℕ} (activity : host.activity = .findAddress window headers)
      (trails : Trails window standing)
  | reading {job : Job} {address : AddressField} {sector : Sector} {got : ℕ}
      (activity : host.activity = .readData (readerAt sector got)) (taken : host.current = some job)
      (inside : standing = .inside address sector (Frame.headerSize + got)) (short : got ≤ 348)
      (held : sectorAt? (images.get job.slot) job.track job.sector = some sector)

/-- The host has heard something of a frame that it cannot do without. -/
def Engaged (host : Host) : Prop :=
  match host.activity with
  | .findAddress window _ => window ≠ []
  | .readData _ => True
  | _ => False

namespace Hears
variable {images : PerDrive (Array UInt8)} {host : Host} {job : Job} {here next : Standing} {passed : Passed}

theorem of_not_engaged (h : host.Hears images here) (free : ¬ host.Engaged) (standing : Standing) :
    host.Hears images standing := by
  cases h with
  | deaf unwanted => exact .deaf unwanted
  | @looking window headers activity trails =>
    simp only [Engaged, activity, ne_eq, not_not] at free
    subst free
    exact .looking activity (.nil standing)
  | reading activity => simp only [Engaged, activity, not_true_eq_false] at free

theorem sectorAt?_congr {image : Array UInt8} {track a b : UInt8} (same : sectorIndex a = sectorIndex b) :
    sectorAt? image track a = sectorAt? image track b := by
  have start : imageOffset track a = imageOffset track b := by rw [imageOffset, imageOffset, same]
  rw [sectorAt?, sectorAt?, start]

theorem judge_of_held (shown : host.images.get job.slot = some (images.get job.slot)) {sector : Sector}
    (held : sectorAt? (images.get job.slot) job.track job.sector = some sector) :
    host.judge job (.ok sector) = .ok := by
  simp only [judge, verify, shown, held, if_true]

/-- One byte while an address is looked for. -/
theorem hear {window : List UInt8} {headers : ℕ} (trails : Trails window here) (taken : host.current = some job)
    (gives : here.Gives passed next)
    (genuine : ∀ address sector sent, next = .inside address sector sent →
      Genuine (images.get job.slot) address sector) :
    match Host.hear job window headers passed.byte with
    | .goes activity _ => { host with activity }.Hears images next
    | .settles verdict _ => verdict = .ok ∨ verdict = .notFound := by
  have trails := trails.slide gives
  unfold Host.hear
  by_cases closes : AddressField.trailer <:+ slide window passed.byte
  · rw [if_pos closes]
    cases found : AddressField.find? (slide window passed.byte) with
    | none => exact .looking rfl trails
    | some field =>
      obtain ⟨sector, inside⟩ := trails.of_find? closes found
      by_cases matching : field.track = job.track ∧ logicalOfPhysical field.sector = job.sector
      · obtain ⟨number, place, held⟩ := genuine _ _ _ inside
        have same : sectorIndex job.sector = sectorIndex number := by
          rw [← matching.2, place, sectorIndex_logicalOfPhysical]
        have begun : Activity.readData .start = .readData (readerAt sector 0) := rfl
        dsimp only
        rw [if_pos matching]
        refine .reading begun taken inside (Nat.zero_le _) ?_
        rw [sectorAt?_congr same, ← matching.1, held]
      · dsimp only
        rw [if_neg matching]
        by_cases many : maxHeaders < headers + 1
        · rw [if_pos many]
          exact .inr rfl
        · rw [if_neg many]
          exact .looking rfl (.nil next)
  · rw [if_neg closes]
    exact .looking rfl trails

theorem push {reader : Reader} (h : host.Hears images here) (reads : host.activity = .readData reader)
    (gives : here.Gives passed next) : ∃ job address sector got, host.current = some job ∧
      here = .inside address sector (Frame.headerSize + got) ∧
      next = .inside address sector (Frame.headerSize + (got + 1)) ∧
      sectorAt? (images.get job.slot) job.track job.sector = some sector ∧ got ≤ 348 ∧
      reader.push passed.byte =
        if got = 348 then (.start, some (.ok sector)) else (readerAt sector (got + 1), none) := by
  cases h with
  | deaf unwanted =>
    rw [Host.wanted, reads] at unwanted
    cases unwanted
  | looking activity =>
    rw [activity] at reads
    cases reads
  | @reading job address sector got activity taken inside short held =>
    obtain rfl := Activity.readData.inj (activity.symm.trans reads)
    subst inside
    cases gives with | @goes _ _ _ byte there =>
    have more : Frame.headerSize + got + 1 < Frame.size := by
      simp only [Frame.size, Frame.headerSize, DataField.size]
      omega
    exact ⟨job, address, sector, got, taken, rfl, Standing.after_of_lt more, held, short, push_readerAt there short⟩

theorem decoded {reader : Reader} {result : Except CodecError Sector} (h : host.Hears images here)
    (taken : host.current = some job) (reads : host.activity = .readData reader) (gives : here.Gives passed next)
    (done : (reader.push passed.byte).2 = some result) :
    ∃ sector, result = .ok sector ∧ sectorAt? (images.get job.slot) job.track job.sector = some sector := by
  obtain ⟨own, address, sector, got, owns, -, -, held, -, pushed⟩ := h.push reads gives
  obtain rfl := Option.some.inj (owns.symm.trans taken)
  rw [pushed] at done
  split at done
  · exact ⟨sector, (Option.some.inj done).symm, held⟩
  · cases done

/-- One byte for a job: the host has heard it, or settles the job, and never as bad. -/
theorem ruling (h : host.Hears images here) (wanted : host.wanted = true) (taken : host.current = some job)
    (shown : host.images.get job.slot = some (images.get job.slot)) (gives : here.Gives passed next)
    (genuine : ∀ address sector sent, next = .inside address sector sent →
      Genuine (images.get job.slot) address sector) :
    match host.ruling job passed.byte with
    | .goes activity _ => { host with activity }.Hears images next
    | .settles verdict _ => verdict = .ok ∨ verdict = .notFound := by
  by_cases many : maxJobBytes < host.jobBytes + 1
  · rw [Host.ruling, if_pos many]
    exact .inr rfl
  · rw [Host.ruling, if_neg many]
    have heard := h
    cases h with
    | deaf unwanted => rw [wanted] at unwanted; cases unwanted
    | looking activity trails =>
      rw [activity]
      exact hear trails taken gives genuine
    | reading activity =>
      obtain ⟨own, address, sector, got, owns, -, inside, held, short, pushed⟩ := heard.push activity gives
      obtain rfl := Option.some.inj (owns.symm.trans taken)
      rw [activity]
      dsimp only [Host.read]
      rw [pushed]
      by_cases whole : got = 348
      · rw [if_pos whole]
        exact .inl (judge_of_held shown held)
      · rw [if_neg whole]
        exact .reading rfl taken inside (by omega) held

end Hears
end Host
end Floppy
