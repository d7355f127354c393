import Floppy.Proofs.Gcr.DataField

/-!
# Data fields among noise, and damaged data fields

A data field is read from among any noise that holds no prologue itself. A byte that is changed in the field is
always noticed, except in the places that are not read. This rests on the running exclusive or: a symbol that is
wrong by some difference makes every later symbol, the last one too, wrong by the same difference.
-/
namespace Floppy.Gcr

theorem untranslate?_eq_none_iff (byte : UInt8) : untranslate? byte = none ↔ byte ∉ diskBytes.toList := by
  rw [untranslate?_eq, Option.map_eq_none_iff, List.idxOf?_eq_none_iff]

theorem mem_of_untranslate? {byte symbol : UInt8} (value : untranslate? byte = some symbol) :
    byte ∈ diskBytes.toList := by
  by_contra none
  rw [(untranslate?_eq_none_iff byte).mpr none] at value
  cases value

theorem untranslate?_inj {b b' symbol : UInt8} (value : untranslate? b = some symbol)
    (value' : untranslate? b' = some symbol) : b = b' := by
  rw [untranslate?_eq, Option.map_eq_some_iff] at value value'
  obtain ⟨i, found, rfl⟩ := value
  obtain ⟨j, found', same⟩ := value'
  obtain ⟨inside, here, -⟩ := List.idxOf?_eq_some_iff.mp found
  obtain ⟨inside', here', -⟩ := List.idxOf?_eq_some_iff.mp found'
  have place : i = j := by
    have count : diskBytes.toList.length = 64 := by decide
    have values := congrArg UInt8.toNat same
    simp only [UInt8.toNat_ofNat'] at values
    omega
  subst place
  exact here.symm.trans here'

namespace DataField

/-- The symbol that stands last, or the first byte that is no disk byte. -/
def lastSymbol (last : UInt8) (offset : ℕ) (bytes : List UInt8) : Except CodecError UInt8 :=
  (unchain last offset bytes).map Prod.snd

theorem lastSymbol_cons (last : UInt8) (offset : ℕ) (b : UInt8) (rest : List UInt8) :
    lastSymbol last offset (b :: rest) =
      match untranslate? b with
      | none => .error (.invalidDiskByte b offset)
      | some v => lastSymbol (last ^^^ v) (offset + 1) rest := by
  rw [lastSymbol, unchain_cons]
  cases untranslate? b with
  | none => rfl
  | some v =>
    dsimp only [lastSymbol]
    cases unchain (last ^^^ v) (offset + 1) rest <;> rfl

theorem lastSymbol_xor (last difference : UInt8) (offset : ℕ) (bytes : List UInt8) :
    lastSymbol (last ^^^ difference) offset bytes = (lastSymbol last offset bytes).map (· ^^^ difference) := by
  induction bytes generalizing last offset with
  | nil => rfl
  | cons b rest ih =>
    rw [lastSymbol_cons, lastSymbol_cons]
    cases untranslate? b with
    | none => rfl
    | some v =>
      have swap : last ^^^ difference ^^^ v = last ^^^ v ^^^ difference := by
        rw [UInt8.xor_assoc, UInt8.xor_comm difference, UInt8.xor_assoc]
      simp only [swap, ih]

/-- With another byte in one place reading fails there, or the last symbol changes as the symbol there does. -/
theorem lastSymbol_set {last final : UInt8} {offset : ℕ} {bytes : List UInt8}
    (good : lastSymbol last offset bytes = .ok final) {i : ℕ} {b v : UInt8} (there : bytes[i]? = some b)
    (value : untranslate? b = some v) (b' : UInt8) :
    lastSymbol last offset (bytes.set i b') =
      match untranslate? b' with
      | none => .error (.invalidDiskByte b' (offset + i))
      | some v' => .ok (final ^^^ (v ^^^ v')) := by
  induction bytes generalizing last offset i with
  | nil => simp at there
  | cons a rest ih =>
    rw [lastSymbol_cons] at good
    cases i with
    | zero =>
      obtain rfl : a = b := by simpa using there
      simp only [value] at good
      rw [List.set_cons_zero, lastSymbol_cons]
      cases untranslate? b' with
      | none => rfl
      | some v' =>
        have other : last ^^^ v' = last ^^^ v ^^^ (v ^^^ v') := by
          rw [UInt8.xor_assoc, ← UInt8.xor_assoc v, UInt8.xor_self, UInt8.zero_xor]
        simp only [other, lastSymbol_xor, good, Except.map]
    | succ i =>
      have later : rest[i]? = some b := by simpa using there
      rw [List.set_cons_succ, lastSymbol_cons]
      cases first : untranslate? a with
      | none => simp [first] at good
      | some w =>
        simp only [first] at good ⊢
        rw [ih good later, Nat.add_right_comm, Nat.add_assoc]

theorem exists_unchain {last final : UInt8} {offset : ℕ} {bytes : List UInt8}
    (good : lastSymbol last offset bytes = .ok final) :
    ∃ symbols, unchain last offset bytes = .ok (symbols, final) := by
  rw [lastSymbol] at good
  cases undone : unchain last offset bytes with
  | error e => simp [undone, Except.map] at good
  | ok result =>
    rw [undone] at good
    cases good
    exact ⟨result.1, rfl⟩

theorem unchain_eq_error {last : UInt8} {offset : ℕ} {bytes : List UInt8} {error : CodecError}
    (bad : lastSymbol last offset bytes = .error error) : unchain last offset bytes = .error error := by
  rw [lastSymbol] at bad
  cases undone : unchain last offset bytes with
  | error e => simpa [undone, Except.map] using bad
  | ok result => simp [undone, Except.map] at bad

theorem decodeBody_append {start : ℕ} {front : List UInt8} (full : front.length = symbolCount) (sum : UInt8)
    (rest : List UInt8) :
    decodeBody start (front ++ sum :: rest) =
      match unchain 0 start front with
      | .error error => .error error
      | .ok (symbols, last) =>
        match untranslate? sum with
        | none => .error (.invalidDiskByte sum (start + symbolCount))
        | some c =>
          if c ≠ last then .error .checksumMismatch
          else if trailer.take 2 <+: rest then
            .ok (Gcr.decode (Vector.ofFn fun i => symbols.toArray.getD i 0))
          else .error .missingEpilogue := by
  have long : ¬ (front ++ sum :: rest).length < symbolCount + 1 := by simp [full]
  rw [decodeBody, if_neg long, List.take_left' full, List.drop_left' full]
  cases unchain 0 start front with
  | error e => rfl
  | ok result =>
    cases value : untranslate? sum <;> simp [value, bind, Except.bind]

/-- Before its epilogue a body has its symbols and their last one as the checksum. -/
theorem exists_front (start : ℕ) (sector : Sector) :
    ∃ front sum last, body sector = front ++ sum :: trailer ∧ front.length = symbolCount ∧
      lastSymbol 0 start front = .ok last ∧ untranslate? sum = some last := by
  obtain ⟨symbols, last, sum, rest, undone, tail, value, -, -⟩ :=
    decodeBody_eq_ok_iff.mp (decodeBody_body start sector)
  have length := length_body sector
  have there : (body sector)[symbolCount]? = some sum := by
    have first := congrArg List.head? tail
    rwa [List.head?_drop, List.getElem?_take_of_lt (by decide), List.head?_cons] at first
  have symbolsEnd : (body sector).drop symbolCount = sum :: trailer := by
    have chained : (chain 0 (Gcr.encode sector).toList).length = symbolCount + 1 := by simp [length_chain]
    obtain ⟨inside, same⟩ := List.getElem?_eq_some_iff.mp there
    rw [List.drop_eq_getElem_cons inside, same, body, List.drop_left' chained]
  refine ⟨(body sector).take symbolCount, sum, last, ?_, ?_, ?_, value⟩
  · rw [← symbolsEnd, List.take_append_drop]
  · rw [List.length_take_of_le (by rw [length]; decide)]
  · rw [List.take_take] at undone
    rw [lastSymbol, show symbolCount = min symbolCount 345 by rfl, undone]
    rfl

theorem decodeBody_more {start : ℕ} {bytes : List UInt8} {sector : Sector}
    (read : decodeBody start bytes = .ok sector) (more : List UInt8) :
    decodeBody start (bytes ++ more) = .ok sector := by
  obtain ⟨symbols, last, sum, rest, undone, tail, value, closed, whole⟩ := decodeBody_eq_ok_iff.mp read
  have long : symbolCount < bytes.length := List.length_lt_of_drop_ne_nil (tail ▸ List.cons_ne_nil sum rest)
  rw [decodeBody_eq_ok_iff]
  refine ⟨symbols, last, sum, rest ++ more, ?_, ?_, value, closed.trans (List.prefix_append ..), whole⟩
  · rw [List.take_append_of_le_length long.le]
    exact undone
  · rw [List.drop_append_of_le_length long.le, tail, List.cons_append]

theorem getElem?_of_marker {bytes : List UInt8} {place : ℕ} (opens : marker <+: bytes.drop place) :
    bytes[place]? = some 0xD5 := by
  obtain ⟨rest, same⟩ := opens
  rw [← Nat.add_zero place, ← List.getElem?_drop, ← same]
  rfl

/-- Noise that holds no prologue is skipped up to the sync byte ahead of the first prologue. -/
theorem afterMarker?_noise {noise : List UInt8} (free : ¬ marker <:+: noise) (rest : List UInt8) :
    afterMarker? (noise ++ syncByte :: (marker ++ rest)) = some (noise.length + 4, rest) := by
  induction noise with
  | nil =>
    have other : ¬ marker <+: syncByte :: (marker ++ rest) := by simp [marker, syncByte]
    rw [List.nil_append, afterMarker?, if_neg other, afterMarker?_marker]
    rfl
  | cons b noise ih =>
    have other : ¬ marker <+: b :: noise ++ syncByte :: (marker ++ rest) := by
      intro opens
      rcases noise with _ | ⟨c, _ | ⟨d, noise⟩⟩
      · simp [marker, syncByte] at opens
      · simp [marker, syncByte] at opens
      · refine free (List.IsPrefix.isInfix ?_)
        simpa [marker] using opens
    rw [List.cons_append, afterMarker?, ← List.cons_append, if_neg other,
      ih fun inside => free (inside.trans (List.suffix_cons b noise).isInfix)]
    simp [Nat.add_right_comm]

theorem decode_noise {noise : List UInt8} (free : ¬ marker <:+: noise) (rest : List UInt8) :
    decode (noise ++ syncByte :: (marker ++ rest)) = decodeBody (noise.length + 4) rest := by
  rw [decode, afterMarker?_noise free]

theorem getElem?_encode_ne_opener (sector : Sector) (j : ℕ) : (encode sector)[j + 4]? ≠ some 0xD5 := by
  rw [encode_eq]
  exact fun here => opener_notMem_body sector (List.mem_of_getElem? (i := j) here)

/-- A data field, whole or without its last byte, is read behind any noise that holds no prologue, whatever follows
the field. Behind its own prologue no other one begins in it. -/
theorem decode_surrounded {sector : Sector} {noise field rest : List UInt8} (free : ¬ marker <:+: noise)
    (cut : field = encode sector ∨ field = (encode sector).dropLast) :
    decode (noise ++ field ++ rest) = .ok sector ∧
      ∀ place, 4 ≤ place → place < field.length →
        ¬ marker <+: (noise ++ field ++ rest).drop (noise.length + place) := by
  have length := length_body sector
  obtain ⟨last, same⟩ : ∃ last, field = syncByte :: (marker ++ ((body sector).take 345 ++ last)) := by
    rcases cut with rfl | rfl
    · exact ⟨(body sector).drop 345, by rw [List.take_append_drop, encode_eq]⟩
    · refine ⟨[], ?_⟩
      rw [encode_eq, List.append_nil, List.dropLast_eq_take]
      simp [length, marker]
  constructor
  · have read := decodeBody_more (decodeBody_body (noise.length + 4) sector) (last ++ rest)
    rw [← read, ← decode_noise free, same]
    simp
  · intro place behind inside opens
    obtain ⟨more, whole⟩ : field <+: encode sector := by
      rcases cut with rfl | rfl
      exacts [List.prefix_rfl, List.dropLast_prefix _]
    have there := getElem?_of_marker opens
    rw [List.append_assoc, List.getElem?_append_right (Nat.le_add_right ..), Nat.add_sub_cancel_left,
      List.getElem?_append_left inside, ← List.getElem?_append_left inside, whole] at there
    obtain ⟨k, rfl⟩ := Nat.exists_eq_add_of_le' behind
    exact getElem?_encode_ne_opener sector k there

/-- A prologue that was cut off ahead of the field and one right behind it do no harm. -/
theorem decode_surrounded_blank :
    ¬ marker <:+: marker.dropLast ∧
      decode (marker.dropLast ++ (encode (Vector.replicate sectorSize 0)).dropLast ++ marker) =
        .ok (Vector.replicate sectorSize 0) := by
  have free : ¬ marker <:+: marker.dropLast := by decide
  exact ⟨free, (decode_surrounded free (.inr rfl)).1⟩

theorem encode_set_body (sector : Sector) (j : ℕ) (byte : UInt8) :
    (encode sector).set (j + 4) byte = syncByte :: (marker ++ (body sector).set j byte) := by
  rw [encode_eq]
  rfl

section
variable {start : ℕ} {front rest : List UInt8} {sum last byte : UInt8}

/-- A wrong symbol is no disk byte, or it makes the last symbol wrong. -/
theorem decodeBody_set_symbol (full : front.length = symbolCount) (good : lastSymbol 0 start front = .ok last)
    (closing : untranslate? sum = some last) {i : ℕ} (inside : i < front.length) (other : front[i] ≠ byte) :
    decodeBody start (front.set i byte ++ sum :: rest) =
      if byte ∈ diskBytes.toList then .error .checksumMismatch
      else .error (.invalidDiskByte byte (start + i)) := by
  obtain ⟨symbols, undone⟩ := exists_unchain good
  have valid := isSome_of_unchain undone _ (List.getElem_mem inside)
  obtain ⟨v, value⟩ := Option.isSome_iff_exists.mp valid
  have changed := lastSymbol_set good (List.getElem?_eq_getElem inside) value byte
  rw [decodeBody_append (by rw [List.length_set, full])]
  cases value' : untranslate? byte with
  | none =>
    simp only [value'] at changed
    rw [unchain_eq_error changed, if_neg ((untranslate?_eq_none_iff byte).mp value')]
  | some v' =>
    simp only [value'] at changed
    obtain ⟨symbols', undone'⟩ := exists_unchain changed
    have wrong : last ≠ last ^^^ (v ^^^ v') := by
      intro same
      have zero : v ^^^ v' = 0 := by simpa [← UInt8.xor_assoc] using (congrArg (last ^^^ ·) same).symm
      rw [UInt8.xor_eq_zero_iff] at zero
      exact other (untranslate?_inj value (zero ▸ value'))
    rw [undone', if_pos (mem_of_untranslate? value')]
    simp only [closing, if_pos wrong]

theorem decodeBody_sum (full : front.length = symbolCount) (good : lastSymbol 0 start front = .ok last)
    (closing : untranslate? sum = some last) (other : sum ≠ byte) :
    decodeBody start (front ++ byte :: rest) =
      if byte ∈ diskBytes.toList then .error .checksumMismatch
      else .error (.invalidDiskByte byte (start + symbolCount)) := by
  obtain ⟨symbols, undone⟩ := exists_unchain good
  rw [decodeBody_append full, undone]
  cases value : untranslate? byte with
  | none => simp [(untranslate?_eq_none_iff byte).mp value]
  | some c =>
    have wrong : c ≠ last := by
      rintro rfl
      exact other (untranslate?_inj closing value)
    simp [mem_of_untranslate? value, wrong]

theorem decodeBody_unclosed (full : front.length = symbolCount) (good : lastSymbol 0 start front = .ok last)
    (closing : untranslate? sum = some last) (unclosed : ¬ trailer.take 2 <+: rest) :
    decodeBody start (front ++ sum :: rest) = .error .missingEpilogue := by
  obtain ⟨symbols, undone⟩ := exists_unchain good
  rw [decodeBody_append full, undone]
  simp [closing, unclosed]

end

/-- Behind the prologue a wrong byte is no disk byte, or the sum is wrong, or the epilogue is. -/
theorem decodeBody_set {sector : Sector} {j : ℕ} {byte : UInt8} (inside : j < 346)
    (other : (body sector)[j]? ≠ some byte) :
    decodeBody 4 ((body sector).set j byte) =
      if j ≤ symbolCount then
        if byte ∈ diskBytes.toList then .error .checksumMismatch else .error (.invalidDiskByte byte (4 + j))
      else if j = 345 then .ok sector
      else .error .missingEpilogue := by
  obtain ⟨front, sum, last, parts, full, good, closing⟩ := exists_front 4 sector
  rcases Nat.lt_trichotomy j symbolCount with symbol | rfl | epilogue
  · have here : j < front.length := full ▸ symbol
    rw [parts, List.getElem?_append_left here, List.getElem?_eq_getElem here, Ne, Option.some_inj] at other
    rw [parts, List.set_append_left _ _ here, if_pos symbol.le, decodeBody_set_symbol full good closing here other]
  · rw [parts, List.getElem?_append_right full.le, full, Nat.sub_self, List.getElem?_cons_zero, Ne,
      Option.some_inj] at other
    rw [parts, List.set_append_right _ _ full.le, full, Nat.sub_self, List.set_cons_zero, if_pos le_rfl,
      decodeBody_sum full good closing other]
  · have behind : front.length ≤ j := full.le.trans epilogue.le
    have ending : (body sector)[j]? = (sum :: trailer)[j - 342]? := by
      rw [parts, List.getElem?_append_right behind, full]
      rfl
    rw [ending] at other
    rw [if_neg (Nat.not_le.mpr epilogue)]
    change 342 < j at epilogue
    obtain rfl | rfl | rfl : j = 343 ∨ j = 344 ∨ j = 345 := by omega
    · have unclosed : ¬ trailer.take 2 <+: [byte, 0xAA, 0xEB] := by simpa [trailer] using other
      rw [parts, List.set_append_right _ _ behind, full]
      exact decodeBody_unclosed full good closing unclosed
    · have unclosed : ¬ trailer.take 2 <+: [0xDE, byte, 0xEB] := by simpa [trailer] using other
      rw [parts, List.set_append_right _ _ behind, full]
      exact decodeBody_unclosed full good closing unclosed
    · have length : (body sector).length = 346 := length_body sector
      have read := decodeBody_more (decodeBody_body 4 sector) [byte]
      rw [if_pos rfl, List.set_eq_take_append_cons_drop, if_pos (by omega), List.drop_eq_nil_of_le (by omega), read]

theorem afterMarker?_eq_none_iff (bytes : List UInt8) : afterMarker? bytes = none ↔ ¬ marker <:+: bytes := by
  induction bytes with
  | nil => simp [afterMarker?, marker]
  | cons b rest ih =>
    rw [afterMarker?, List.infix_cons_iff, not_or, ← ih]
    split <;> simp [*]

/-- A prologue with a wrong byte is none, and it makes none with what is around it. -/
theorem decode_unmarked {place : ℕ} {byte : UInt8} (inside : place < 3) (other : marker[place]? ≠ some byte)
    (sector : Sector) : decode (syncByte :: (marker.set place byte ++ body sector)) = .error .missingPrologue := by
  obtain ⟨c, rest, first⟩ := List.exists_cons_of_length_pos (l := body sector) (by rw [length_body]; decide)
  have second : 0xAA ≠ c := by
    rintro rfl
    have there : ((body sector).take 345)[0]? = some 0xAA := by simp [first]
    have symbol := (getElem?_of_decodeBody (decodeBody_body 4 sector) there).1 (by decide)
    rw [untranslate?_eq] at symbol
    revert symbol
    decide
  have opener : 0xD5 ∉ c :: rest := first ▸ opener_notMem_body sector
  have free : ¬ marker <:+: c :: rest := fun within => opener (within.subset List.mem_cons_self)
  have lost : ¬ marker <:+: syncByte :: (marker.set place byte ++ body sector) := by
    rw [first]
    interval_cases place
    all_goals simp_all [marker, syncByte, List.infix_cons_iff]
  rw [decode, (afterMarker?_eq_none_iff _).mpr lost]

/-- A data field with one wrong byte. -/
theorem decode_set {sector : Sector} {place : ℕ} {byte : UInt8} (inside : place < size)
    (other : (encode sector)[place]? ≠ some byte) :
    decode ((encode sector).set place byte) =
      if place = 0 ∨ place = 349 then .ok sector
      else if place ≤ 3 then .error .missingPrologue
      else if place ≤ 346 then
        if byte ∈ diskBytes.toList then .error .checksumMismatch else .error (.invalidDiskByte byte place)
      else .error .missingEpilogue := by
  rw [encode_eq] at other
  match place with
  | 0 =>
    have away : ¬ marker <+: byte :: (marker ++ body sector) := by simp [marker]
    have read := decodeBody_more (decodeBody_body 4 sector) ((body sector).drop 345)
    rw [List.take_append_drop] at read
    rw [if_pos (.inl rfl), encode_eq, List.set_cons_zero, decode, afterMarker?, if_neg away, afterMarker?_marker]
    exact read
  | k + 1 =>
    by_cases marked : k < 3
    · have unmarked : marker[k]? ≠ some byte := by
        rwa [List.getElem?_cons_succ, List.getElem?_append_left marked] at other
      rw [if_neg (by omega), if_pos (by omega), encode_eq, List.set_cons_succ, List.set_append_left _ _ marked,
        decode_unmarked marked unmarked]
    · obtain ⟨j, rfl⟩ := Nat.exists_eq_add_of_le' (Nat.le_of_not_lt marked)
      have short : j < 346 := Nat.lt_of_add_lt_add_right (n := 4) inside
      have wrong : (body sector)[j]? ≠ some byte := other
      have read := decode_noise (show ¬ marker <:+: [] by simp [marker]) ((body sector).set j byte)
      rw [List.nil_append, List.length_nil, Nat.zero_add, decodeBody_set short wrong] at read
      rw [encode_set_body, read]
      have symbols : symbolCount = 342 := rfl
      grind

/-- A byte that opens a prologue, in the middle of a field. -/
theorem decode_set_opener :
    (encode (Vector.replicate sectorSize 0))[100]? ≠ some 0xD5 ∧
      decode ((encode (Vector.replicate sectorSize 0)).set 100 0xD5) = .error (.invalidDiskByte 0xD5 100) := by
  have other := getElem?_encode_ne_opener (Vector.replicate sectorSize 0) 96
  have read := decode_set (show 96 + 4 < size by decide) other
  exact ⟨other, read.trans (by decide)⟩

end DataField
end Floppy.Gcr
