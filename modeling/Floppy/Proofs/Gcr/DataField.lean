import Floppy.Gcr.DataField
import Floppy.Proofs.Gcr.Redundancy

/-!
# Reading a data field back

The body of a data field is the chain of symbols, their checksum and the epilogue. It is read as its sector as
soon as two bytes of the epilogue are there. Conversely, a body that is read at all has only disk bytes ahead
of its epilogue, and the byte that opens a prologue is none.
-/
namespace Floppy.Gcr

theorem untranslate?_eq (byte : UInt8) :
    untranslate? byte = (diskBytes.toList.idxOf? byte).map UInt8.ofNat := by
  simp [untranslate?, symbolTable, get_eq_getElem]

theorem untranslate?_translate (symbol : UInt8) :
    untranslate? (translate symbol) = some (symbol &&& 0x3F) := by
  rw [untranslate?_eq]
  exact forall_byte
    (p := fun s => (diskBytes.toList.idxOf? (translate s)).map UInt8.ofNat = some (s &&& 0x3F))
    (by decide +kernel) symbol

theorem untranslate?_opener : untranslate? 0xD5 = none := by
  rw [untranslate?_eq]
  decide

theorem sixBits_xor (a b : UInt8) : (a ^^^ b) &&& 0x3F = (a &&& 0x3F) ^^^ (b &&& 0x3F) := by
  apply UInt8.toNat.inj
  simp only [UInt8.toNat_and, UInt8.toNat_xor]
  exact Nat.and_xor_distrib_right

namespace DataField

def body (sector : Sector) : List UInt8 := chain 0 (Gcr.encode sector).toList ++ trailer

theorem encode_eq (sector : Sector) : encode sector = syncByte :: (marker ++ body sector) := by
  simp [encode, body]

theorem length_body (sector : Sector) : (body sector).length = 346 := by
  simp [body, length_chain, trailer, symbolCount, sectorSize, secondaryCount]

theorem afterMarker?_marker (rest : List UInt8) : afterMarker? (marker ++ rest) = some (3, rest) := by
  have opens : marker <+: marker ++ rest := List.prefix_append marker rest
  simp only [marker, List.cons_append, List.nil_append] at opens ⊢
  rw [afterMarker?, marker, if_pos opens]
  rfl

theorem decode_marker (rest : List UInt8) : decode (marker ++ rest) = decodeBody 3 rest := by
  simp only [decode, afterMarker?_marker]

set_option maxRecDepth 4000 in
theorem unchain_cons (last : UInt8) (offset : ℕ) (b : UInt8) (rest : List UInt8) :
    unchain last offset (b :: rest) =
      match untranslate? b with
      | none => .error (.invalidDiskByte b offset)
      | some v => (unchain (last ^^^ v) (offset + 1) rest).map fun (symbols, final) =>
        ((last ^^^ v) :: symbols, final) := by
  rfl

theorem opener_notMem_chain (last : UInt8) (symbols : List UInt8) : 0xD5 ∉ chain last symbols := by
  have disk (symbol : UInt8) : 0xD5 ≠ translate symbol := by
    intro same
    have value := untranslate?_translate symbol
    rw [← same, untranslate?_opener] at value
    cases value
  induction symbols generalizing last with
  | nil => simp [chain, disk]
  | cons s rest ih => simp [chain, disk, ih]

theorem opener_notMem_body (sector : Sector) : 0xD5 ∉ body sector := by
  simp [body, opener_notMem_chain, trailer]

/-- The symbols come back from their chain, and the last of them stands behind it. -/
theorem unchain_chain (symbols : List UInt8) (small : ∀ s ∈ symbols, s < 64) (last : UInt8)
    (lastSmall : last < 64) (offset : ℕ) :
    unchain last offset ((chain last symbols).take symbols.length) = .ok (symbols, symbols.getLastD last) ∧
      (chain last symbols).drop symbols.length = [translate (symbols.getLastD last)] := by
  induction symbols generalizing last offset with
  | nil => exact ⟨rfl, rfl⟩
  | cons s rest ih =>
    have smallHead : s < 64 := small s (by simp)
    obtain ⟨undone, closed⟩ := ih (fun t mem => small t (List.mem_cons_of_mem s mem)) s smallHead (offset + 1)
    have six (a : UInt8) (h : a < 64) : a &&& 0x3F = a := (sixBits_eq_self_iff a).mpr h
    have value : last ^^^ ((last ^^^ s) &&& 0x3F) = s := by
      rw [sixBits_xor, six last lastSmall, six s smallHead, ← UInt8.xor_assoc, UInt8.xor_self, UInt8.zero_xor]
    rw [List.getLastD_cons, chain, List.length_cons, List.take_succ_cons, List.drop_succ_cons, unchain_cons,
      untranslate?_translate]
    dsimp only
    rw [value, undone]
    exact ⟨rfl, closed⟩

theorem isSome_of_unchain {last : UInt8} {offset : ℕ} {bytes : List UInt8} {result : List UInt8 × UInt8}
    (h : unchain last offset bytes = .ok result) : ∀ b ∈ bytes, (untranslate? b).isSome := by
  induction bytes generalizing last offset result with
  | nil => simp
  | cons b rest ih =>
    rw [unchain_cons] at h
    cases value : untranslate? b with
    | none => simp [value] at h
    | some v =>
      simp only [value] at h
      cases tail : unchain (last ^^^ v) (offset + 1) rest with
      | error e => simp [tail, Except.map] at h
      | ok r =>
        intro c mem
        rcases List.mem_cons.mp mem with rfl | mem
        · simp [value]
        · exact ih tail c mem

/-- A body is read as a sector if its symbols come out of the chain, the last of them is the checksum, and the
first two bytes of the epilogue stand behind it. -/
theorem decodeBody_eq_ok_iff {start : ℕ} {bytes : List UInt8} {sector : Sector} :
    decodeBody start bytes = .ok sector ↔ ∃ symbols last sum rest,
      unchain 0 start (bytes.take symbolCount) = .ok (symbols, last) ∧
      bytes.drop symbolCount = sum :: rest ∧ untranslate? sum = some last ∧ trailer.take 2 <+: rest ∧
      Gcr.decode (Vector.ofFn fun i => symbols.toArray.getD i 0) = sector := by
  constructor
  · intro h
    rw [decodeBody] at h
    by_cases short : bytes.length < symbolCount + 1
    · rw [if_pos short] at h
      cases h
    rw [if_neg short] at h
    cases tail : bytes.drop symbolCount with
    | nil => exact absurd (Nat.lt_succ_of_le (List.drop_eq_nil_iff.mp tail)) short
    | cons sum rest =>
      cases undone : unchain 0 start (bytes.take symbolCount) with
      | error e => simp [undone, bind, Except.bind] at h
      | ok result =>
        simp only [undone, tail, bind, Except.bind, List.headD_cons, List.drop_one, List.tail_cons] at h
        cases value : untranslate? sum with
        | none => simp [value] at h
        | some c =>
          by_cases same : c = result.2
          · by_cases closed : trailer.take 2 <+: rest
            · exact ⟨result.1, result.2, sum, rest, rfl, rfl, by rw [value, same], closed,
                by simpa [value, same, closed] using h⟩
            · simp [value, same, closed] at h
          · simp [value, same] at h
  · rintro ⟨symbols, last, sum, rest, undone, tail, value, closed, rfl⟩
    have long : symbolCount < bytes.length := by
      rw [← Nat.not_le, ← List.drop_eq_nil_iff, tail]
      exact List.cons_ne_nil sum rest
    rw [decodeBody, if_neg (Nat.not_lt.mpr long)]
    simp [undone, tail, value, closed, bind, Except.bind]

/-- Only disk bytes before the right epilogue are read as a sector. -/
theorem valid_of_decodeBody {start : ℕ} {bytes : List UInt8} {sector : Sector}
    (h : decodeBody start bytes = .ok sector) :
    (∀ b ∈ bytes.take (symbolCount + 1), (untranslate? b).isSome) ∧
      trailer.take 2 <+: bytes.drop (symbolCount + 1) := by
  obtain ⟨symbols, last, sum, rest, undone, tail, value, closed, -⟩ := decodeBody_eq_ok_iff.mp h
  have back : bytes.drop (symbolCount + 1) = rest := by
    rw [← List.drop_drop, tail]
    rfl
  have front : bytes.take (symbolCount + 1) = bytes.take symbolCount ++ [sum] := by
    rw [List.take_add, tail]
    rfl
  rw [back, front]
  refine ⟨?_, closed⟩
  intro b mem
  rcases List.mem_append.mp mem with symbol | only
  · exact isSome_of_unchain undone b symbol
  · simp [List.mem_singleton.mp only, value]

theorem getElem?_of_decodeBody {start : ℕ} {bytes : List UInt8} {sector : Sector}
    (h : decodeBody start bytes = .ok sector) {place : ℕ} {byte : UInt8} (there : bytes[place]? = some byte) :
    (place < 343 → (untranslate? byte).isSome) ∧ (place = 343 → byte = 0xDE) ∧ (place = 344 → byte = 0xAA) := by
  obtain ⟨symbols, rest, closed⟩ := valid_of_decodeBody h
  have epilogue (i : ℕ) : bytes[symbolCount + 1 + i]? = ([0xDE, 0xAA] ++ rest)[i]? := by
    rw [← List.getElem?_drop, ← closed]
    rfl
  refine ⟨?_, ?_, ?_⟩
  · intro early
    refine symbols byte (List.mem_of_getElem? (i := place) ?_)
    rwa [List.getElem?_take_of_lt (show place < symbolCount + 1 from early)]
  · rintro rfl
    exact Option.some.inj (there.symm.trans (epilogue 0))
  · rintro rfl
    exact Option.some.inj (there.symm.trans (epilogue 1))

/-- No field whose body begins like this is read as a sector. -/
def Doomed (got : List UInt8) : Prop :=
  ∀ (rest : List UInt8) (start : ℕ) (sector : Sector), decodeBody start (got ++ rest) ≠ .ok sector

namespace Doomed
variable {got : List UInt8}

theorem append (h : Doomed got) (more : List UInt8) : Doomed (got ++ more) := by
  intro rest start sector
  rw [List.append_assoc]
  exact h (more ++ rest) start sector

theorem opener (short : got.length < 345) : Doomed (got ++ [0xD5]) := by
  intro rest start sector read
  have there : (got ++ [0xD5] ++ rest)[got.length]? = some 0xD5 := by simp
  obtain ⟨symbol, first, second⟩ := getElem?_of_decodeBody read there
  rw [untranslate?_opener] at symbol
  have place : got.length < 343 ∨ got.length = 343 ∨ got.length = 344 := by omega
  rcases place with early | here | here
  · cases symbol early
  · exact absurd (first here) (by decide)
  · exact absurd (second here) (by decide)

theorem sync (late : 343 ≤ got.length) (short : got.length < 345) : Doomed (got ++ [syncByte]) := by
  intro rest start sector read
  have there : (got ++ [syncByte] ++ rest)[got.length]? = some syncByte := by simp
  obtain ⟨-, first, second⟩ := getElem?_of_decodeBody read there
  have place : got.length = 343 ∨ got.length = 344 := by omega
  rcases place with here | here
  · exact absurd (first here) (by decide)
  · exact absurd (second here) (by decide)

end Doomed

theorem small_encode (sector : Sector) : ∀ s ∈ (Gcr.encode sector).toList, s < 64 := by
  intro s mem
  obtain ⟨i, inside, rfl⟩ := List.getElem_of_mem mem
  rw [Vector.getElem_toList]
  exact encode_lt sector ⟨i, by simpa using inside⟩

/-- A field is read as soon as two bytes of its epilogue are there. -/
theorem decodeBody_body (start : ℕ) (sector : Sector) :
    decodeBody start ((body sector).take 345) = .ok sector := by
  have small := small_encode sector
  have symbols : (Gcr.encode sector).toList.length = symbolCount := by simp
  have length : (chain 0 (Gcr.encode sector).toList).length = symbolCount + 1 := by rw [length_chain, symbols]
  have cut : (body sector).take 345 = chain 0 (Gcr.encode sector).toList ++ trailer.take 2 := by
    rw [body, List.take_append, length, List.take_of_length_le (by rw [length]; decide)]
    rfl
  obtain ⟨undone, closed⟩ := unchain_chain _ small 0 (by decide) start
  rw [symbols] at undone closed
  have lastSmall : (Gcr.encode sector).toList.getLastD 0 &&& 0x3F = (Gcr.encode sector).toList.getLastD 0 := by
    rw [sixBits_eq_self_iff, List.getLastD_eq_getLast?]
    cases last : (Gcr.encode sector).toList.getLast? with
    | none => decide
    | some s => exact small s (List.mem_of_getLast? last)
  have whole : Vector.ofFn (fun i : Fin symbolCount => (Gcr.encode sector).toList.toArray.getD i 0) =
      Gcr.encode sector := by
    ext i inside
    simp
  rw [decodeBody_eq_ok_iff, cut, List.take_append_of_le_length (by omega),
    List.drop_append_of_le_length (by omega), closed]
  refine ⟨_, _, _, _, undone, rfl, ?_, List.prefix_rfl, ?_⟩
  · rw [untranslate?_translate, lastSmall]
  · rw [whole, decode_encode]

end DataField
end Floppy.Gcr
