import Floppy.Proofs.Gcr.Damage

/-!
# Reading data fields byte by byte

A reader takes any stream byte by byte. It skips what comes before the first prologue and keeps the bytes from there on;
with the last byte that a field needs it says of them what the block decoder says, and it is as new. As a field that is
decoded begins with its prologue and is long enough, a reader never misses a prologue and never calls a field truncated.
-/
namespace Floppy.Gcr.DataField

/-- Where the first prologue of a stream begins. -/
def opening? (stream : List UInt8) : Option ℕ := stream.tails.findIdx? (marker <+: ·)

theorem opening?_cons (b : UInt8) (rest : List UInt8) :
    opening? (b :: rest) = if marker <+: b :: rest then some 0 else (opening? rest).map (· + 1) := by
  simp [opening?, List.findIdx?_cons]

theorem opening?_cons_of_ne {b : UInt8} (other : b ≠ 0xD5) (rest : List UInt8) :
    opening? (b :: rest) = (opening? rest).map (· + 1) := by
  have away : ¬ marker <+: b :: rest := by simp [marker, other.symm]
  rw [opening?_cons, if_neg away]

theorem marker_prefix_iff {b c d : UInt8} {rest : List UInt8} : marker <+: b :: c :: d :: rest ↔ [b, c, d] = marker := by
  simp [marker, eq_comm]

theorem opening?_start (stream : List UInt8) : opening? (0 :: 0 :: stream) = (opening? stream).map (· + 2) := by
  rw [opening?_cons_of_ne (by decide), opening?_cons_of_ne (by decide), Option.map_map]
  rfl

theorem exists_body {stream : List UInt8} {place : ℕ} (opens : opening? stream = some place) :
    ∃ body, stream.drop place = marker ++ body ∧ place + 3 + body.length = stream.length := by
  obtain ⟨inside, here, -⟩ := List.findIdx?_eq_some_iff_getElem.mp opens
  rw [List.getElem_tails, decide_eq_true_eq] at here
  obtain ⟨body, same⟩ := here
  refine ⟨body, same.symm, ?_⟩
  have lengths := congrArg List.length same
  simp only [List.length_append, List.length_drop, marker, List.length_cons, List.length_nil] at lengths
  omega

theorem unchain_error {last : UInt8} {offset : ℕ} {bytes : List UInt8} {error : CodecError}
    (bad : unchain last offset bytes = .error error) :
    ∃ i byte, error = .invalidDiskByte byte (offset + i) ∧ bytes[i]? = some byte := by
  induction bytes generalizing last offset with
  | nil => cases bad
  | cons b rest ih =>
    rw [unchain_cons] at bad
    cases value : untranslate? b with
    | none =>
      simp only [value, Except.error.injEq] at bad
      exact ⟨0, b, bad.symm, rfl⟩
    | some v =>
      simp only [value] at bad
      cases tail : unchain (last ^^^ v) (offset + 1) rest with
      | ok result => simp [tail, Except.map] at bad
      | error later =>
        obtain rfl : later = error := by simpa [tail, Except.map] using bad
        obtain ⟨i, byte, rfl, there⟩ := ih tail
        exact ⟨i + 1, byte, by rw [Nat.add_right_comm, Nat.add_assoc], there⟩

/-- What can be wrong with a body that is long enough. -/
theorem decodeBody_error {start : ℕ} {bytes : List UInt8} {error : CodecError} (long : symbolCount < bytes.length)
    (bad : decodeBody start bytes = .error error) :
    error = .checksumMismatch ∨ error = .missingEpilogue ∨
      ∃ i byte, error = .invalidDiskByte byte (start + i) ∧ bytes[i]? = some byte := by
  have parts : bytes = bytes.take symbolCount ++ bytes[symbolCount] :: bytes.drop (symbolCount + 1) := by
    rw [← List.drop_eq_getElem_cons long, List.take_append_drop]
  have full : (bytes.take symbolCount).length = symbolCount := List.length_take_of_le long.le
  rw [parts, decodeBody_append full] at bad
  cases undone : unchain 0 start (bytes.take symbolCount) with
  | error fault =>
    obtain ⟨i, byte, rfl, there⟩ := unchain_error undone
    rw [undone] at bad
    refine .inr (.inr ⟨i, byte, (Except.error.inj bad).symm, ?_⟩)
    rw [List.getElem?_take] at there
    exact (Option.ite_none_right_eq_some.mp there).2
  | ok result =>
    simp only [undone] at bad
    cases value : untranslate? bytes[symbolCount] with
    | none =>
      simp only [value, Except.error.injEq] at bad
      exact .inr (.inr ⟨symbolCount, bytes[symbolCount], bad.symm, List.getElem?_eq_getElem long⟩)
    | some c =>
      simp only [value] at bad
      split at bad
      · exact .inl (Except.error.inj bad).symm
      · split at bad
        · cases bad
        · exact .inr (.inl (Except.error.inj bad).symm)

theorem getElem?_of_invalidDiskByte {bytes : List UInt8} (long : symbolCount < bytes.length) {byte : UInt8} {offset : ℕ}
    (bad : decode (marker ++ bytes) = .error (.invalidDiskByte byte offset)) :
    (marker ++ bytes)[offset]? = some byte := by
  rw [decode_marker] at bad
  obtain fault | fault | ⟨i, _, fault, there⟩ := decodeBody_error long bad
  · cases fault
  · cases fault
  · cases fault
    have place : 3 + i - marker.length = i := Nat.add_sub_cancel_left 3 i
    rwa [List.getElem?_append_right (show marker.length ≤ 3 + i from Nat.le_add_right 3 i), place]

namespace Reader

theorem push_collecting (got : List UInt8) (byte : UInt8) :
    push byte (.collecting (marker ++ got).toArray) =
      if got.length + 1 = 345 then (.start, some (decodeBody 3 (got ++ [byte])))
      else (.collecting (marker ++ (got ++ [byte])).toArray, none) := by
  have size : ((marker ++ got).toArray.push byte).size = got.length + 1 + 3 := by
    simp [marker]
  rw [push, size]
  by_cases whole : got.length + 1 = 345
  · simp only [whole, if_true, List.push_toArray, List.append_assoc, decode_marker]
  · have partly : got.length + 1 + 3 ≠ fieldLength := by
      show got.length + 1 + 3 ≠ 348
      omega
    simp only [whole, partly, if_false, List.push_toArray, List.append_assoc]

/-- Takes several bytes; gives what there is to say with each of them. -/
def feed : Reader → List UInt8 → Reader × List (Option (Except CodecError Sector))
  | reader, [] => (reader, [])
  | reader, byte :: rest =>
    let (reader, result) := reader.push byte
    let (reader, results) := reader.feed rest
    (reader, result :: results)

theorem feed_append (reader : Reader) (early late : List UInt8) :
    reader.feed (early ++ late) =
      (((reader.feed early).1.feed late).1, (reader.feed early).2 ++ ((reader.feed early).1.feed late).2) := by
  induction early generalizing reader with
  | nil => rfl
  | cons byte early ih => simp only [List.cons_append, feed, ih]

variable {a b c : UInt8} {stream : List UInt8}

theorem feed_unopened (unopened : opening? (b :: c :: stream) = none) :
    ((searching a b c).feed stream).2 = List.replicate stream.length none := by
  induction stream generalizing a b c with
  | nil => rfl
  | cons d rest ih =>
    rw [opening?_cons] at unopened
    split at unopened
    case isTrue => cases unopened
    case isFalse away =>
      have seeks : [b, c, d] ≠ marker := fun same => away (marker_prefix_iff.mpr same)
      simp only [feed, push, if_neg seeks, ih (Option.map_eq_none_iff.mp unopened)]
      rfl

/-- The bytes up to the end of the first prologue are skipped. -/
theorem feed_opened {place : ℕ} (opens : opening? (b :: c :: stream) = some place) :
    (searching a b c).feed stream =
      (((collecting marker.toArray).feed (stream.drop (place + 1))).1,
        List.replicate (place + 1) none ++ ((collecting marker.toArray).feed (stream.drop (place + 1))).2) := by
  induction stream generalizing a b c place with
  | nil => simp [opening?, marker, List.findIdx?_cons] at opens
  | cons d rest ih =>
    rw [opening?_cons] at opens
    split at opens
    case isTrue here =>
      cases opens
      have found : [b, c, d] = marker := marker_prefix_iff.mp here
      simp only [feed, push, if_pos found]
      rfl
    case isFalse away =>
      obtain ⟨later, further, rfl⟩ := Option.map_eq_some_iff.mp opens
      have seeks : [b, c, d] ≠ marker := fun same => away (marker_prefix_iff.mpr same)
      simp only [feed, push, if_neg seeks, ih further]
      rfl

theorem feed_short {got : List UInt8} (short : got.length + stream.length < 345) :
    (collecting (marker ++ got).toArray).feed stream =
      (collecting (marker ++ (got ++ stream)).toArray, List.replicate stream.length none) := by
  induction stream generalizing got with
  | nil => simp [feed]
  | cons d rest ih =>
    rw [List.length_cons] at short
    have fewer : got.length + 1 ≠ 345 := by omega
    have still : (got ++ [d]).length + rest.length < 345 := by
      rw [List.length_append, List.length_singleton]
      omega
    simp only [feed, push_collecting, if_neg fewer, ih still, List.append_assoc, List.singleton_append]
    rfl

theorem feed_full {field : List UInt8} (full : field.length = 345) (rest : List UInt8) :
    (collecting marker.toArray).feed (field ++ rest) =
      ((start.feed rest).1, List.replicate 344 none ++ some (decodeBody 3 field) :: (start.feed rest).2) := by
  have nonempty : field ≠ [] := List.ne_nil_of_length_pos (by omega)
  obtain ⟨front, last, rfl⟩ : ∃ front last, field = front ++ [last] :=
    ⟨_, _, (List.dropLast_append_getLast nonempty).symm⟩
  have length : front.length = 344 := by simpa using full
  have short : ([] : List UInt8).length + front.length < 345 := by simp [length]
  have kept := feed_short short
  rw [List.append_nil, List.nil_append, length] at kept
  rw [List.append_assoc, feed_append, kept]
  simp only [List.singleton_append, feed, push_collecting, length, if_true]

/-- What a reader can hold: less than a whole field, from its prologue on. -/
inductive Fits : Reader → Prop
  | searching (a b c : UInt8) : Fits (.searching a b c)
  | collecting {got : List UInt8} (short : got.length < 345) : Fits (.collecting (marker ++ got).toArray)

theorem Fits.received_le {reader : Reader} (fits : reader.Fits) : reader.received ≤ 347 := by
  cases fits with
  | searching => exact Nat.zero_le _
  | collecting short =>
    simp only [received, List.size_toArray, List.length_append, marker, List.length_cons, List.length_nil]
    omega

/-- The prologue of a field that is decoded is there, and so are all its bytes. -/
theorem Fits.push {reader : Reader} (fits : reader.Fits) (byte : UInt8) :
    (reader.push byte).1.Fits ∧ ∀ error, (reader.push byte).2 = some (.error error) →
      error ≠ .missingPrologue ∧ ∀ count, error ≠ .truncated count := by
  cases fits with
  | searching a b c =>
    rw [Reader.push]
    split
    · have nothing : ([] : List UInt8).length < 345 := by decide
      exact ⟨.collecting nothing, nofun⟩
    · exact ⟨.searching b c byte, nofun⟩
  | @collecting got short =>
    rw [push_collecting]
    split
    case isTrue whole =>
      refine ⟨.searching 0 0 0, fun error bad => ?_⟩
      have long : symbolCount < (got ++ [byte]).length := by
        rw [List.length_append, List.length_singleton, whole]
        decide
      obtain rfl | rfl | ⟨i, _, rfl, -⟩ := decodeBody_error long (Option.some.inj bad)
      · exact ⟨nofun, nofun⟩
      · exact ⟨nofun, nofun⟩
      · exact ⟨nofun, nofun⟩
    case isFalse partly =>
      refine ⟨.collecting ?_, nofun⟩
      rw [List.length_append, List.length_singleton]
      omega

theorem Fits.feed {reader : Reader} (fits : reader.Fits) (stream : List UInt8) :
    (reader.feed stream).1.Fits ∧ ∀ error, some (.error error) ∈ (reader.feed stream).2 →
      error ≠ .missingPrologue ∧ ∀ count, error ≠ .truncated count := by
  induction stream generalizing reader with
  | nil => exact ⟨fits, nofun⟩
  | cons byte rest ih =>
    obtain ⟨kept, sound⟩ := fits.push byte
    obtain ⟨last, later⟩ := ih kept
    refine ⟨last, fun error mem => ?_⟩
    rcases List.mem_cons.mp mem with here | mem
    · exact sound error here.symm
    · exact later error mem

theorem feed_start {place : ℕ} (opens : opening? stream = some place) :
    start.feed stream =
      (((collecting marker.toArray).feed (stream.drop (place + 3))).1,
        List.replicate (place + 3) none ++ ((collecting marker.toArray).feed (stream.drop (place + 3))).2) := by
  have window : opening? (0 :: 0 :: stream) = some (place + 2) := by
    rw [opening?_start, opens]
    rfl
  exact feed_opened window

theorem feed_start_unopened (unopened : opening? stream = none) :
    (start.feed stream).2 = List.replicate stream.length none := by
  have window : opening? (0 :: 0 :: stream) = none := by
    rw [opening?_start, unopened]
    rfl
  exact feed_unopened window

variable {place : ℕ}

theorem feed_start_short (opens : opening? stream = some place) (short : stream.length < place + fieldLength) :
    (start.feed stream).2 = List.replicate stream.length none := by
  obtain ⟨body, same, length⟩ := exists_body opens
  have behind : stream.drop (place + 3) = body := by
    rw [← List.drop_drop, same]
    rfl
  have few : ([] : List UInt8).length + body.length < 345 := by
    rw [List.length_nil]
    simp only [fieldLength] at short
    omega
  have kept := feed_short few
  rw [List.append_nil] at kept
  rw [feed_start opens, behind, kept, ← length]
  exact List.replicate_append_replicate

theorem exists_field (opens : opening? stream = some place) (whole : ¬ stream.length < place + fieldLength) :
    ∃ bytes, bytes.length = 345 ∧ (stream.drop place).take fieldLength = marker ++ bytes ∧
      stream.drop (place + 3) = bytes ++ stream.drop (place + fieldLength) := by
  obtain ⟨body, same, length⟩ := exists_body opens
  have long : 345 ≤ body.length := by
    simp only [fieldLength] at whole
    omega
  refine ⟨body.take 345, List.length_take_of_le long, ?_, ?_⟩
  · rw [same]
    rfl
  · rw [← List.drop_drop, ← List.drop_drop, same]
    exact (List.take_append_drop 345 body).symm

theorem feed_start_whole (opens : opening? stream = some place) (whole : ¬ stream.length < place + fieldLength) :
    let later := start.feed (stream.drop (place + fieldLength))
    start.feed stream = (later.1,
      List.replicate (place + 347) none ++ some (decode ((stream.drop place).take fieldLength)) :: later.2) := by
  obtain ⟨bytes, full, field, rest⟩ := exists_field opens whole
  rw [feed_start opens, rest, feed_full full, field, decode_marker, ← List.append_assoc,
    List.replicate_append_replicate]

theorem getElem?_of_field (opens : opening? stream = some place) (whole : ¬ stream.length < place + fieldLength)
    {byte : UInt8} {offset : ℕ}
    (bad : decode ((stream.drop place).take fieldLength) = .error (.invalidDiskByte byte offset)) :
    stream[place + offset]? = some byte := by
  obtain ⟨bytes, full, field, -⟩ := exists_field opens whole
  have symbols : symbolCount < bytes.length := by
    rw [full]
    decide
  rw [field] at bad
  have there := getElem?_of_invalidDiskByte symbols bad
  rw [← field, List.getElem?_take] at there
  rw [← List.getElem?_drop]
  exact (Option.ite_none_right_eq_some.mp there).2

/-- A new reader is silent up to the last byte of the first field that is there as a whole. With it the reader says what
the block decoder says of the field, and goes on as a new one. -/
theorem feed_eq_decode (stream : List UInt8) :
    (match opening? stream with
      | none => (start.feed stream).2 = List.replicate stream.length none
      | some place =>
        if stream.length < place + fieldLength then (start.feed stream).2 = List.replicate stream.length none
        else
          let field := (stream.drop place).take fieldLength
          let later := start.feed (stream.drop (place + fieldLength))
          start.feed stream = (later.1, List.replicate (place + 347) none ++ some (decode field) :: later.2) ∧
            ∀ byte offset, decode field = .error (.invalidDiskByte byte offset) →
              stream[place + offset]? = some byte) ∧
      (∀ error, some (.error error) ∈ (start.feed stream).2 →
        error ≠ .missingPrologue ∧ ∀ count, error ≠ .truncated count) ∧
      (start.feed stream).1.received ≤ 347 := by
  obtain ⟨fits, sound⟩ := Fits.feed (.searching 0 0 0) stream
  refine ⟨?_, sound, fits.received_le⟩
  cases opens : opening? stream with
  | none => exact feed_start_unopened opens
  | some place =>
    dsimp only
    split
    case isTrue short => exact feed_start_short opens short
    case isFalse whole => exact ⟨feed_start_whole opens whole, fun _ _ bad => getElem?_of_field opens whole bad⟩

end Reader
end Floppy.Gcr.DataField
