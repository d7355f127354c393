import Floppy.Proofs.Gcr.AddressField

/-!
# Headers among noise, and damaged headers

An address field is found behind any noise that holds no prologue itself. With a wrong byte in the header no prologue
begins but its own, and the value that is wrong breaks the checksum; so the field is read as it was, or not at all.
-/
namespace Floppy.Gcr

namespace AddressField

theorem ofBytes?_eq_none {bytes : List UInt8} (away : ¬ marker <+: bytes) : ofBytes? bytes = none := by
  cases reads : ofBytes? bytes with
  | none => rfl
  | some field =>
    obtain ⟨rest, rfl, -⟩ := of_ofBytes? reads
    exact absurd ⟨rest, rfl⟩ away

theorem find?_append {noise rest : List UInt8}
    (free : ∀ place < noise.length, ¬ marker <+: (noise ++ rest).drop place) :
    find? (noise ++ rest) = find? rest := by
  induction noise with
  | nil => rfl
  | cons b noise ih =>
    have away : ¬ marker <+: b :: (noise ++ rest) := free 0 (Nat.zero_lt_succ _)
    have later := ih fun place inside => free (place + 1) (Nat.succ_lt_succ inside)
    rw [List.cons_append, find?, ofBytes?_eq_none away, Option.none_or, later]

theorem find?_eq_none {bytes : List UInt8} (free : ∀ place, ¬ marker <+: bytes.drop place) : find? bytes = none := by
  have skipped : find? (bytes ++ []) = find? [] := find?_append fun place _ => by
    rw [List.append_nil]
    exact free place
  rwa [List.append_nil] at skipped

theorem getElem?_of_opens {bytes : List UInt8} {place : ℕ} (opens : marker <+: bytes.drop place) {i : ℕ} {byte : UInt8}
    (there : marker[i]? = some byte) : bytes[place + i]? = some byte := by
  obtain ⟨rest, same⟩ := opens
  rw [← List.getElem?_drop, ← same, List.getElem?_append_left (List.getElem?_eq_some_iff.mp there).1, there]

/-- A prologue that begins in noise without one ends behind the noise. -/
theorem not_opens_in_noise {noise rest : List UInt8} (free : ¬ marker <:+: noise) (two : ¬ [0xAA, 0x96] <+: rest)
    (one : [0xD5, 0xAA] <:+ noise → ¬ [0x96] <+: rest) :
    ∀ place < noise.length, ¬ marker <+: (noise ++ rest).drop place := by
  intro place inside opens
  rw [List.drop_append_of_le_length inside.le] at opens
  have ends := List.drop_suffix place noise
  match piece : noise.drop place with
  | [] => exact absurd (List.drop_eq_nil_iff.mp piece) (Nat.not_le.mpr inside)
  | [b] =>
    rw [piece] at opens
    exact two (List.cons_prefix_cons.mp opens).2
  | [b, c] =>
    rw [piece] at opens ends
    obtain ⟨first, opens⟩ := List.cons_prefix_cons.mp opens
    obtain ⟨second, opens⟩ := List.cons_prefix_cons.mp opens
    rw [← first, ← second] at ends
    exact one ends opens
  | b :: c :: d :: more =>
    rw [piece] at opens ends
    refine free (List.IsInfix.trans (List.IsPrefix.isInfix ?_) ends.isInfix)
    simpa [marker] using opens

theorem find?_of_ofBytes? {bytes : List UInt8} {field : AddressField} (reads : ofBytes? bytes = some field) :
    find? bytes = some field := by
  cases bytes with
  | nil => cases reads
  | cons b rest => rw [find?, reads, Option.some_or]

theorem find?_noise {noise : List UInt8} (free : ¬ marker <:+: noise) (field : AddressField) (rest : List UInt8) :
    find? (noise ++ (field.header ++ rest)) = some field := by
  have sync : ∀ place < 2, ¬ marker <+: (syncByte :: syncByte :: (field.encode ++ rest)).drop place := by
    intro place inside
    interval_cases place <;> simp [marker, syncByte]
  calc find? (noise ++ (field.header ++ rest))
      = find? ([syncByte, syncByte] ++ (field.encode ++ rest)) :=
        find?_append (not_opens_in_noise free (by simp [header, syncByte]) fun _ => by simp [header, syncByte])
    _ = find? (field.encode ++ rest) := find?_append sync
    _ = some field := find?_of_ofBytes? (ofBytes?_encode field rest)

end AddressField

namespace Frame
variable {address : AddressField} {sector : Sector} {place : ℕ}

theorem place_of_third (third : (encode address sector)[place]? = some 0x96) : place = 4 ∨ bodyStart ≤ place := by
  by_cases front : place < bodyStart
  · exact .inl (by simpa using landmark (by decide) front third)
  · exact .inr (Nat.le_of_not_lt front)

/-- With a wrong byte in its header a frame holds no prologue of an address field but its own. -/
theorem eq_two_of_opens {changed : ℕ} (inside : changed < headerSize) {byte : UInt8}
    (opens : AddressField.marker <+: ((encode address sector).set changed byte).drop place) : place = 2 := by
  have first := AddressField.getElem?_of_opens opens (i := 0) rfl
  have third := AddressField.getElem?_of_opens opens (i := 2) rfl
  have third_of_ne (other : changed ≠ place + 2) : place + 2 = 4 ∨ bodyStart ≤ place + 2 := by
    rw [List.getElem?_set_ne other] at third
    exact place_of_third third
  simp only [headerSize, bodyStart] at inside third_of_ne
  by_cases same : changed = place
  · have := third_of_ne (by omega)
    omega
  · rw [Nat.add_zero, List.getElem?_set_ne same] at first
    obtain rfl | rfl := place_of_opener first
    · rfl
    · have := third_of_ne (by omega)
      omega

end Frame

namespace AddressField

theorem ofBytes?_values (field : AddressField) (rest : List UInt8) :
    ofBytes? (field.encode.take 11 ++ rest) = some field := by
  simp [encode, marker, oddEvenPair, ofBytes?, oddEvenDecode_encode]

theorem ofBytes?_marker_set (changed : Fin 3) (byte : UInt8) (rest : List UInt8) :
    ofBytes? (marker.set changed byte ++ rest) = ofBytes? (marker ++ rest) ∨
      ofBytes? (marker.set changed byte ++ rest) = none := by
  by_cases same : marker.get changed = byte
  · have whole : marker.set changed byte = marker := by
      rw [← same]
      exact List.set_getElem_self _
    exact .inl (by rw [whole])
  · refine .inr (ofBytes?_eq_none fun opens => same ?_)
    have there := @getElem?_of_opens _ 0 opens _ _ (List.getElem?_eq_getElem changed.isLt)
    have short : (changed : ℕ) < (marker.set changed byte).length := by
      rw [List.length_set]
      exact changed.isLt
    rw [Nat.zero_add, List.getElem?_append_left short, List.getElem?_set_self changed.isLt] at there
    exact (Option.some.inj there).symm

/-- The address that a header with a wrong byte holds is the right one, or there is none. -/
theorem ofBytes?_set (field : AddressField) (changed : Fin Frame.headerSize) (byte : UInt8) (rest : List UInt8) :
    ofBytes? ((field.header.set changed byte ++ rest).drop 2) = some field ∨
      ofBytes? ((field.header.set changed byte ++ rest).drop 2) = none := by
  have whole := ofBytes?_encode field rest
  have marked (k : Fin 3) : ofBytes? (marker.set k byte ++ (field.encode.drop 3 ++ rest)) = some field ∨
      ofBytes? (marker.set k byte ++ (field.encode.drop 3 ++ rest)) = none := by
    rcases ofBytes?_marker_set k byte (field.encode.drop 3 ++ rest) with same | lost
    · exact .inl (same.trans whole)
    · exact .inr lost
  fin_cases changed
  case «0» | «1» => exact .inl whole
  case «2» => exact marked 0
  case «3» => exact marked 1
  case «4» => exact marked 2
  case «13» => exact .inl (ofBytes?_values field (byte :: 0xAA :: 0xEB :: rest))
  case «14» => exact .inl (ofBytes?_values field (0xDE :: byte :: 0xEB :: rest))
  case «15» => exact .inl (ofBytes?_values field (0xDE :: 0xAA :: byte :: rest))
  all_goals
    simp only [header, encode, marker, oddEvenPair, List.cons_append, List.nil_append, List.set_cons_succ,
      List.set_cons_zero, List.drop_succ_cons, List.drop_zero, ofBytes?, oddEvenDecode_encode, checksum,
      UInt8.xor_left_inj, UInt8.xor_right_inj]
    split
    case isTrue same => exact .inl (by simp [same])
    case isFalse => exact .inr rfl

/-- In a frame with a wrong byte in its header nothing is read but what stands at the place of the address field. -/
theorem find?_set (field : AddressField) (changed : Fin Frame.headerSize) (byte : UInt8) (sector : Sector) :
    find? ((Frame.encode field sector).set changed byte) =
      ofBytes? (((Frame.encode field sector).set changed byte).drop 2) := by
  have own (place : ℕ) : AddressField.marker <+: ((Frame.encode field sector).set changed byte).drop place →
      place = 2 := Frame.eq_two_of_opens changed.isLt
  have long : 2 < ((Frame.encode field sector).set changed byte).length := by
    rw [List.length_set, Frame.length_encode]
    decide
  generalize (Frame.encode field sector).set changed byte = damaged at own long ⊢
  have ahead : find? (damaged.take 2 ++ damaged.drop 2) = find? (damaged.drop 2) := by
    refine find?_append fun place inside opens => ?_
    rw [List.take_append_drop] at opens
    rw [own place opens, List.length_take] at inside
    omega
  have behind : find? (damaged.drop 3) = none := by
    refine find?_eq_none fun place opens => ?_
    rw [List.drop_drop] at opens
    have := own _ opens
    omega
  rw [List.take_append_drop] at ahead
  rw [ahead, List.drop_eq_getElem_cons long, find?, behind, Option.or_none]

/-- An address field is read behind any noise that holds no prologue. Where any one byte of the header is wrong, and the
data field of a sector follows, the address is the same or is not found, also behind noise that makes no prologue with
the first byte of the header. -/
theorem find?_header (field : AddressField) :
    (∀ noise rest, ¬ marker <:+: noise → find? (noise ++ (field.header ++ rest)) = some field) ∧
      ∀ (changed : Fin Frame.headerSize) (byte : UInt8) (sector : Sector) (noise : List UInt8),
        ¬ marker <:+: noise ++ (field.header.set changed byte).take 1 →
        find? (noise ++ (field.header.set changed byte ++ DataField.encode sector)) = some field ∨
          find? (noise ++ (field.header.set changed byte ++ DataField.encode sector)) = none := by
  refine ⟨fun noise rest free => find?_noise free field rest, fun changed byte sector noise free => ?_⟩
  have whole : field.header.set changed byte ++ DataField.encode sector =
      (Frame.encode field sector).set changed byte := (List.set_append_left _ _ changed.isLt).symm
  have skipped : find? (noise ++ (field.header.set changed byte ++ DataField.encode sector)) =
      find? (field.header.set changed byte ++ DataField.encode sector) := by
    refine find?_append (not_opens_in_noise (fun inside => free (inside.trans (List.prefix_append ..).isInfix)) ?_ ?_)
    · rcases changed with ⟨_ | k, inside⟩
      · simp [header, syncByte]
      · simp [header, syncByte]
    · obtain ⟨b, rest, parts⟩ := List.exists_cons_of_length_pos (l := field.header.set changed byte)
        (by rw [List.length_set]; exact Nat.zero_lt_succ _)
      rw [parts] at free ⊢
      rintro ⟨before, ends⟩ opens
      obtain ⟨rfl, -⟩ := List.cons_prefix_cons.mp opens
      exact free (List.IsSuffix.isInfix ⟨before, by rw [← ends]; simp [marker]⟩)
  rw [skipped, whole, find?_set, ← whole]
  exact ofBytes?_set field changed byte (DataField.encode sector)

/-- A prologue that was cut off ahead of the header does no harm, and neither does one that opens in the header. -/
theorem find?_header_cut :
    ¬ marker <:+: [0xD5, 0xAA] ∧ ¬ marker <:+: [0xD5, 0xAA, syncByte] ∧
      find? ([0xD5, 0xAA] ++ ((⟨254, 17, 3⟩ : AddressField).header ++ [0xD5])) = some ⟨254, 17, 3⟩ ∧
      (find? ([0xD5, 0xAA] ++ ((⟨254, 17, 3⟩ : AddressField).header.set 7 0xD5 ++
          DataField.encode (Vector.replicate sectorSize 0))) = some ⟨254, 17, 3⟩ ∨
        find? ([0xD5, 0xAA] ++ ((⟨254, 17, 3⟩ : AddressField).header.set 7 0xD5 ++
          DataField.encode (Vector.replicate sectorSize 0))) = none) := by
  have free : ¬ marker <:+: [0xD5, 0xAA] := by decide
  have free' : ¬ marker <:+: [0xD5, 0xAA, syncByte] := by decide
  obtain ⟨whole, damaged⟩ := find?_header ⟨254, 17, 3⟩
  exact ⟨free, free', whole [0xD5, 0xAA] [0xD5] free, damaged 7 0xD5 _ [0xD5, 0xAA] free'⟩

/-- With the third byte of a prologue in place of the first sync byte, noise that ends in the other two would be the
beginning of another address field. -/
example : find? ([0xD5, 0xAA] ++ (⟨0xC0, 1, 0⟩ : AddressField).header.set 0 0x96) = some ⟨0xD5, 0x14, 0xC0⟩ := by
  decide

end AddressField
end Floppy.Gcr
