import Floppy.Gcr.Symbols
import Floppy.Proofs.Byte

/-!
# What the symbols of a sector say twice

The 342 symbols of six bits hold the 2048 bits of a sector and four bits more: bits 4 and 5 of symbols 84
and 85 repeat the low bits of bytes 0 and 1. Reading symbols and writing them again sets these four bits,
cuts every symbol to six bits, and changes nothing else. What the codec loses and keeps follows from that.
-/
namespace Floppy.Gcr

def packPairs (a b c : UInt8) : UInt8 :=
  (swapLowBits c <<< 4) ||| (swapLowBits b <<< 2) ||| swapLowBits a

/-- The bit pair of a symbol that a byte on this third of the sector reads. -/
def pairOf (symbol : UInt8) (third : ℕ) : UInt8 := (symbol >>> UInt8.ofNat (2 * third)) &&& 3

def upperIndex (y : Fin sectorSize) : Fin symbolCount :=
  ⟨86 + y, by have h : y.val < 256 := y.isLt; show _ < 342; omega⟩

def lowIndex (y : Fin sectorSize) : Fin symbolCount := ⟨y % 86, by show _ < 342; omega⟩

theorem get_eq_getElem {α : Type*} {n : ℕ} (v : Vector α n) (i : Fin n) : v.get i = v[i] := rfl

section Bytes
/-! Facts about single bytes, found by going through all of them. -/

theorem swapLowBits_lt (a : UInt8) : swapLowBits a < 4 := forall_byte (by decide) a

theorem swapLowBits_swapLowBits (a : UInt8) : swapLowBits (swapLowBits a) = a &&& 3 :=
  forall_byte (by decide) a

theorem shiftRight_two_lt (a : UInt8) : a >>> 2 < 64 := forall_byte (by decide) a

theorem upper_or_low (a : UInt8) : (((a >>> 2) &&& 0x3F) <<< 2) ||| (a &&& 3) = a := forall_byte (by decide) a

theorem sixBits_eq_self_iff (a : UInt8) : a &&& 0x3F = a ↔ a < 64 := forall_byte (by decide) a

theorem pairOf_lt (a : UInt8) (third : ℕ) : pairOf a third < 4 :=
  forall_byte (p := fun a => a &&& 3 < 4) (by decide) (a >>> UInt8.ofNat (2 * third))

theorem pairs_eq_sixBits (a : UInt8) :
    (pairOf a 2 <<< 4) ||| (pairOf a 1 <<< 2) ||| pairOf a 0 = a &&& 0x3F := forall_byte (by decide) a

theorem pairs_eq_fourBits (a : UInt8) : (pairOf a 1 <<< 2) ||| pairOf a 0 = a &&& 0x0F :=
  forall_byte (by decide) a

theorem merge_shiftRight (a b : UInt8) (hb : b < 4) : (((a &&& 0x3F) <<< 2) ||| b) >>> 2 = a &&& 0x3F :=
  forall_byte_pair (p := fun a b => (((a &&& 0x3F) <<< 2) ||| b) >>> 2 = a &&& 0x3F)
    (by decide) a b hb

theorem swapLowBits_merge (a b : UInt8) (hb : b < 4) : swapLowBits ((a <<< 2) ||| b) = swapLowBits b :=
  forall_byte_pair (p := fun a b => swapLowBits ((a <<< 2) ||| b) = swapLowBits b) (by decide) a b hb

theorem forall_pairs {p : UInt8 → UInt8 → UInt8 → Prop}
    (h : ∀ a b c : Fin 4, p (.ofNat a) (.ofNat b) (.ofNat c)) (a b c : UInt8)
    (ha : a < 4) (hb : b < 4) (hc : c < 4) : p a b c := by
  have bound (x : UInt8) (hx : x < 4) : x.toNat < 4 := by simpa using UInt8.lt_iff_toNat_lt.mp hx
  simpa using h ⟨a.toNat, bound a ha⟩ ⟨b.toNat, bound b hb⟩ ⟨c.toNat, bound c hc⟩

theorem packPairs_lt (a b c : UInt8) : packPairs a b c < 64 :=
  forall_pairs (p := fun a b c => (c <<< 4) ||| (b <<< 2) ||| a < 64) (by decide)
    _ _ _ (swapLowBits_lt a) (swapLowBits_lt b) (swapLowBits_lt c)

theorem pairOf_packPairs (a b c : UInt8) :
    pairOf (packPairs a b c) 0 = swapLowBits a ∧ pairOf (packPairs a b c) 1 = swapLowBits b ∧
      pairOf (packPairs a b c) 2 = swapLowBits c :=
  forall_pairs (p := fun a b c => pairOf ((c <<< 4) ||| (b <<< 2) ||| a) 0 = a ∧
      pairOf ((c <<< 4) ||| (b <<< 2) ||| a) 1 = b ∧ pairOf ((c <<< 4) ||| (b <<< 2) ||| a) 2 = c)
    (by decide) _ _ _ (swapLowBits_lt a) (swapLowBits_lt b) (swapLowBits_lt c)

theorem swapLowBits_shiftRight (a : UInt8) {third : ℕ} (h : third < 3) :
    swapLowBits ((a &&& 0x3F) >>> UInt8.ofNat (2 * third)) = swapLowBits (pairOf a third) := by
  have table (k : Fin 3) : swapLowBits ((a &&& 0x3F) >>> UInt8.ofNat (2 * k)) = swapLowBits (pairOf a k) :=
    forall_byte (p := fun a => ∀ k : Fin 3, swapLowBits ((a &&& 0x3F) >>> UInt8.ofNat (2 * k)) =
      swapLowBits (pairOf a k)) (by decide) a k
  exact table ⟨third, h⟩

def repeatPair (a b : UInt8) : UInt8 := (a &&& 0x0F) ||| (b &&& 3) <<< (4 : UInt8)

theorem repeatPair_eq_self_iff (a b : UInt8) :
    repeatPair a b = a ↔ a < 64 ∧ (a >>> 4) &&& 3 = b &&& 3 :=
  forall_byte_pair (p := fun a b => (a &&& 0x0F) ||| b <<< (4 : UInt8) = a ↔ a < 64 ∧ (a >>> 4) &&& 3 = b)
    (by decide) a (b &&& 3) (pairOf_lt b 0)

theorem fourBits_repeatPair (a b : UInt8) : repeatPair a b &&& 0x0F = a &&& 0x0F :=
  forall_byte_pair (p := fun a b => ((a &&& 0x0F) ||| b <<< (4 : UInt8)) &&& 0x0F = a &&& 0x0F)
    (by decide) a (b &&& 3) (pairOf_lt b 0)

theorem withoutRepeat_eq_fourBits (a : UInt8) (ha : a < 64) : a &&& 0xCF = a &&& 0x0F :=
  forall_byte (p := fun a => a < 64 → a &&& 0xCF = a &&& 0x0F) (by decide) a ha

end Bytes

section Positions

theorem third_lt (y : Fin sectorSize) : y.val / 86 < 3 := by
  have h : y.val < 256 := y.isLt
  omega

theorem getElem_encode_upperIndex (sector : Sector) (y : Fin sectorSize) :
    (encode sector)[upperIndex y] = sector.get y >>> 2 := by
  simp [encode, Nibbles.symbols, Nibbles.ofSector, upperIndex, get_eq_getElem]

theorem getElem_encode_of_lt (sector : Sector) (i : Fin symbolCount) (hi : i.val < 86) :
    (encode sector)[i] =
      packPairs (sector.get ⟨i, by show _ < 256; omega⟩) (sector.get ⟨86 + i, by show _ < 256; omega⟩)
        (sector.get ⟨(172 + i) % 256, Nat.mod_lt _ (by decide)⟩) := by
  have h₀ : 257 - (86 - 1 - i.val) = 172 + i := by omega
  have h₁ : (171 - (86 - 1 - i.val)) % 256 = 86 + i := by omega
  have h₂ : (85 - (86 - 1 - i.val)) % 256 = i := by omega
  simp [encode, Nibbles.symbols, Nibbles.ofSector, hi, packPairs, h₀, h₁, h₂]

theorem get_decode (symbols : Symbols) (y : Fin sectorSize) :
    (decode symbols).get y =
      ((symbols[upperIndex y] &&& 0x3F) <<< 2) ||| swapLowBits (pairOf symbols[lowIndex y] (y / 86)) := by
  have h : 85 - (85 - y.val % 86) = y % 86 := by omega
  rw [← swapLowBits_shiftRight _ (third_lt y)]
  simp [decode, Nibbles.toSector, Nibbles.ofSymbols, upperIndex, lowIndex, get_eq_getElem, h]

theorem swapLowBits_get_decode (symbols : Symbols) (y : Fin sectorSize) :
    swapLowBits ((decode symbols).get y) = pairOf symbols[lowIndex y] (y / 86) := by
  rw [get_decode, swapLowBits_merge _ _ (swapLowBits_lt _), swapLowBits_swapLowBits]
  simp [pairOf, UInt8.and_assoc]

theorem pairOf_getElem_encode (sector : Sector) (y : Fin sectorSize) :
    pairOf (encode sector)[lowIndex y] (y / 86) = swapLowBits (sector.get y) := by
  have hy : y.val < 256 := y.isLt
  rw [getElem_encode_of_lt _ _ (Nat.mod_lt _ (by decide))]
  obtain ⟨first, second, third⟩ := pairOf_packPairs
    (sector.get ⟨lowIndex y, by show y.val % 86 < 256; omega⟩)
    (sector.get ⟨86 + lowIndex y, by show 86 + y.val % 86 < 256; omega⟩)
    (sector.get ⟨(172 + lowIndex y) % 256, Nat.mod_lt _ (by decide)⟩)
  have hthird := third_lt y
  interval_cases h : y.val / 86
  · have place : y.val % 86 = y := by omega
    simpa only [lowIndex, place, get_eq_getElem] using first
  · have place : 86 + y.val % 86 = y := by omega
    simpa only [lowIndex, place, get_eq_getElem] using second
  · have place : (172 + y.val % 86) % 256 = y := by omega
    simpa only [lowIndex, place, get_eq_getElem] using third

theorem low_or_upper (i : Fin symbolCount) : i.val < 86 ∨ ∃ y, i = upperIndex y := by
  have hlt : i.val < 342 := i.isLt
  by_cases hi : i.val < 86
  · exact .inl hi
  · exact .inr ⟨⟨i - 86, by show _ < 256; omega⟩, Fin.ext (by simp only [upperIndex]; omega)⟩

theorem encode_lt (sector : Sector) (i : Fin symbolCount) : (encode sector)[i] < 64 := by
  obtain hi | ⟨y, rfl⟩ := low_or_upper i
  · rw [getElem_encode_of_lt sector i hi]
    exact packPairs_lt _ _ _
  · rw [getElem_encode_upperIndex]
    exact shiftRight_two_lt _

theorem decode_encode (sector : Sector) : decode (encode sector) = sector := by
  have h (y : Fin sectorSize) : (decode (encode sector)).get y = sector.get y := by
    refine (get_decode _ y).trans ?_
    rw [getElem_encode_upperIndex, pairOf_getElem_encode, swapLowBits_swapLowBits, upper_or_low]
  exact Vector.ext fun y hy => h ⟨y, hy⟩

/-- The symbols with six bits each, and with the bits that are said twice taken from where they count. -/
def canonical (symbols : Symbols) : Symbols :=
  Vector.ofFn fun i =>
    if i.val = 84 then repeatPair symbols[84] symbols[0]
    else if i.val = 85 then repeatPair symbols[85] symbols[1]
    else symbols[i] &&& 0x3F

theorem getElem_encode_decode_of_lt (symbols : Symbols) (i : Fin symbolCount) (hi : i.val < 86) :
    (encode (decode symbols))[i] =
      (pairOf (symbols.get ⟨(172 + i) % 256 % 86, by show _ < 342; omega⟩) ((172 + i) % 256 / 86) <<< 4) |||
        ((pairOf symbols[i] 1 <<< 2) ||| pairOf symbols[i] 0) := by
  have first : i.val / 86 = 0 := by omega
  have second : (86 + i.val) / 86 = 1 := by omega
  have place : i.val % 86 = i := by omega
  rw [getElem_encode_of_lt _ i hi, packPairs, UInt8.or_assoc]
  simp only [swapLowBits_get_decode, lowIndex, first, second, Nat.add_mod_left, place]
  simp only [get_eq_getElem]

/-- Writing what was read says the doubled bits anew. -/
theorem encode_decode (symbols : Symbols) : encode (decode symbols) = canonical symbols := by
  have h (i : Fin symbolCount) : (encode (decode symbols))[i] = (canonical symbols)[i] := by
    obtain hi | ⟨y, rfl⟩ := low_or_upper i
    · rw [getElem_encode_decode_of_lt symbols i hi]
      obtain ⟨i, hlt⟩ := i
      obtain hi | rfl | rfl : i < 84 ∨ i = 84 ∨ i = 85 := by simp only at hi; omega
      · have third : (172 + i) % 256 / 86 = 2 := by omega
        have place : (172 + i) % 256 % 86 = i := by omega
        simp only [third, place, get_eq_getElem]
        rw [← UInt8.or_assoc, pairs_eq_sixBits]
        simp [canonical, show i ≠ 84 by omega, show i ≠ 85 by omega]
      · rw [pairs_eq_fourBits, UInt8.or_comm]
        simp [canonical, repeatPair, pairOf, get_eq_getElem]
      · rw [pairs_eq_fourBits, UInt8.or_comm]
        simp [canonical, repeatPair, pairOf, get_eq_getElem]
    · rw [getElem_encode_upperIndex, get_decode, merge_shiftRight _ _ (swapLowBits_lt _)]
      simp [canonical, upperIndex, show 86 + y.val ≠ 84 by omega, show 86 + y.val ≠ 85 by omega]
  exact Vector.ext fun i hi => h ⟨i, hi⟩

end Positions

/-- The same symbols, but for bits 4 and 5 of the two that say something twice. -/
def AgreeUpToRepeats (a b : Symbols) : Prop :=
  ∀ i : Fin symbolCount, if i.val = 84 ∨ i.val = 85 then a[i] &&& 0xCF = b[i] &&& 0xCF else a[i] = b[i]

theorem getElem_canonical (symbols : Symbols) (i : Fin symbolCount) (h : i.val ≠ 84 ∧ i.val ≠ 85) :
    (canonical symbols)[i] = symbols[i] &&& 0x3F := by
  simp [canonical, h.1, h.2]

theorem canonical_eq_self_iff (symbols : Symbols) :
    canonical symbols = symbols ↔
      (∀ i : Fin symbolCount, symbols[i] < 64) ∧
        (symbols[85] >>> 4) &&& (3 : UInt8) = symbols[1] &&& (3 : UInt8) ∧
        (symbols[84] >>> 4) &&& (3 : UInt8) = symbols[0] &&& (3 : UInt8) := by
  have h₈₄ : (canonical symbols)[84] = repeatPair symbols[84] symbols[0] := by simp [canonical]
  have h₈₅ : (canonical symbols)[85] = repeatPair symbols[85] symbols[1] := by simp [canonical]
  constructor
  · intro h
    rw [h] at h₈₄ h₈₅
    obtain ⟨lt₈₄, eq₈₄⟩ := (repeatPair_eq_self_iff _ _).mp h₈₄.symm
    obtain ⟨lt₈₅, eq₈₅⟩ := (repeatPair_eq_self_iff _ _).mp h₈₅.symm
    refine ⟨fun i => ?_, eq₈₅, eq₈₄⟩
    obtain ⟨i, hi⟩ := i
    obtain rfl | rfl | hne : i = 84 ∨ i = 85 ∨ (i ≠ 84 ∧ i ≠ 85) := by omega
    · exact lt₈₄
    · exact lt₈₅
    · have same := getElem_canonical symbols ⟨i, hi⟩ hne
      rw [h] at same
      exact (sixBits_eq_self_iff _).mp same.symm
  · rintro ⟨lt, eq₈₅, eq₈₄⟩
    apply Vector.ext
    intro i hi
    obtain rfl | rfl | hne : i = 84 ∨ i = 85 ∨ (i ≠ 84 ∧ i ≠ 85) := by omega
    · exact h₈₄.trans ((repeatPair_eq_self_iff _ _).mpr ⟨lt ⟨84, hi⟩, eq₈₄⟩)
    · exact h₈₅.trans ((repeatPair_eq_self_iff _ _).mpr ⟨lt ⟨85, hi⟩, eq₈₅⟩)
    · exact (getElem_canonical symbols ⟨i, hi⟩ hne).trans ((sixBits_eq_self_iff _).mpr (lt ⟨i, hi⟩))

theorem AgreeUpToRepeats.getElem_of_ne {a b : Symbols} (h : AgreeUpToRepeats a b) (i : Fin symbolCount)
    (hi : i.val ≠ 84 ∧ i.val ≠ 85) : a[i] = b[i] := by
  have hi' := h i
  rwa [if_neg (by omega)] at hi'

theorem AgreeUpToRepeats.canonical_eq {a b : Symbols} (h : AgreeUpToRepeats a b)
    (ha : ∀ i : Fin symbolCount, a[i] < 64) (hb : ∀ i : Fin symbolCount, b[i] < 64) :
    canonical a = canonical b := by
  have four (i : Fin symbolCount) (hi : i.val = 84 ∨ i.val = 85) : a[i] &&& 0x0F = b[i] &&& 0x0F := by
    have hi' := h i
    rwa [if_pos hi, withoutRepeat_eq_fourBits _ (ha i), withoutRepeat_eq_fourBits _ (hb i)] at hi'
  have same (i : Fin symbolCount) : (canonical a)[i] = (canonical b)[i] := by
    obtain ⟨i, hi⟩ := i
    obtain rfl | rfl | hne : i = 84 ∨ i = 85 ∨ (i ≠ 84 ∧ i ≠ 85) := by omega
    · have h₀ : a[0] = b[0] := h.getElem_of_ne ⟨0, by decide⟩ (by decide)
      have h₈₄ : a[84] &&& (0x0F : UInt8) = b[84] &&& (0x0F : UInt8) := four ⟨84, hi⟩ (.inl rfl)
      simp [canonical, repeatPair, h₀, h₈₄]
    · have h₁ : a[1] = b[1] := h.getElem_of_ne ⟨1, by decide⟩ (by decide)
      have h₈₅ : a[85] &&& (0x0F : UInt8) = b[85] &&& (0x0F : UInt8) := four ⟨85, hi⟩ (.inr rfl)
      simp [canonical, repeatPair, h₁, h₈₅]
    · rw [getElem_canonical a _ hne, getElem_canonical b _ hne, h.getElem_of_ne _ hne]
  exact Vector.ext fun i hi => same ⟨i, hi⟩

theorem agreeUpToRepeats_of_canonical_eq {a b : Symbols} (h : canonical a = canonical b)
    (ha : ∀ i : Fin symbolCount, a[i] < 64) (hb : ∀ i : Fin symbolCount, b[i] < 64) :
    AgreeUpToRepeats a b := by
  have same (i : Fin symbolCount) : (canonical a)[i] = (canonical b)[i] := by rw [h]
  rintro ⟨i, hi⟩
  obtain rfl | rfl | hne : i = 84 ∨ i = 85 ∨ (i ≠ 84 ∧ i ≠ 85) := by omega
  · rw [if_pos (.inl rfl), withoutRepeat_eq_fourBits _ (ha _), withoutRepeat_eq_fourBits _ (hb _)]
    have low := congrArg (· &&& (0x0F : UInt8)) (same ⟨84, hi⟩)
    simpa [canonical, fourBits_repeatPair] using low
  · rw [if_pos (.inr rfl), withoutRepeat_eq_fourBits _ (ha _), withoutRepeat_eq_fourBits _ (hb _)]
    have low := congrArg (· &&& (0x0F : UInt8)) (same ⟨85, hi⟩)
    simpa [canonical, fourBits_repeatPair] using low
  · have six := same ⟨i, hi⟩
    rw [getElem_canonical a _ hne, getElem_canonical b _ hne, (sixBits_eq_self_iff _).mpr (ha _),
      (sixBits_eq_self_iff _).mpr (hb _)] at six
    rwa [if_neg (by simp only; omega)]

theorem decode_eq_decode_iff {a b : Symbols} (ha : ∀ i : Fin symbolCount, a[i] < 64)
    (hb : ∀ i : Fin symbolCount, b[i] < 64) : decode a = decode b ↔ AgreeUpToRepeats a b := by
  constructor
  · intro h
    apply agreeUpToRepeats_of_canonical_eq _ ha hb
    rw [← encode_decode, ← encode_decode, h]
  · intro h
    calc decode a = decode (encode (decode a)) := (decode_encode _).symm
      _ = decode (encode (decode b)) := by rw [encode_decode, encode_decode, h.canonical_eq ha hb]
      _ = decode b := decode_encode _

/-- A sector can be read back from its symbols, which have six bits each. Of the arrays of symbols those
are written that say the low bits of bytes 0 and 1 the same both times, and those four bits are all that
reading does not see. -/
theorem codec_redundancy :
    (∀ sector : Sector, (∀ i : Fin symbolCount, (encode sector)[i] < 64) ∧ decode (encode sector) = sector) ∧
    (∀ m : Symbols, encode (decode m) = m ↔
      (∀ i : Fin symbolCount, m[i] < 64) ∧
        (m[85] >>> 4) &&& (3 : UInt8) = m[1] &&& (3 : UInt8) ∧
        (m[84] >>> 4) &&& (3 : UInt8) = m[0] &&& (3 : UInt8)) ∧
    (∀ a b : Symbols, (∀ i : Fin symbolCount, a[i] < 64) → (∀ i : Fin symbolCount, b[i] < 64) →
      (decode a = decode b ↔ AgreeUpToRepeats a b)) := by
  refine ⟨fun sector => ⟨encode_lt sector, decode_encode sector⟩, fun m => ?_, fun a b ha hb => ?_⟩
  · rw [encode_decode, canonical_eq_self_iff]
  · exact decode_eq_decode_iff ha hb

/-- On a blank sector bits 4 and 5 of symbol 84 can be set without effect. -/
theorem codec_redundancy_blank :
    (∀ i : Fin symbolCount, (Vector.replicate symbolCount 0 : Symbols)[i] < 64) ∧
    (∀ i : Fin symbolCount, ((Vector.replicate symbolCount 0 : Symbols).set 84 0x30)[i] < 64) ∧
    decode (Vector.replicate symbolCount 0) = decode ((Vector.replicate symbolCount 0).set 84 0x30) := by
  have ha (i : Fin symbolCount) : (Vector.replicate symbolCount 0 : Symbols)[i] < 64 := by simp
  have hb (i : Fin symbolCount) : ((Vector.replicate symbolCount 0 : Symbols).set 84 0x30)[i] < 64 := by
    simp only [Fin.getElem_fin, Vector.getElem_set, Vector.getElem_replicate]
    split <;> decide
  refine ⟨ha, hb, (codec_redundancy.2.2 _ _ ha hb).mpr fun i => ?_⟩
  simp only [Fin.getElem_fin, Vector.getElem_set, Vector.getElem_replicate]
  by_cases h : i.val = 84
  · rw [if_pos (.inl h), if_pos h.symm]
    decide
  · simp [Ne.symm h]

end Floppy.Gcr
