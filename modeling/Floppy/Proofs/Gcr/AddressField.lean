import Floppy.Proofs.Head.Passing

/-!
# Finding an address field

The last bytes that passed show an address field only at the end of the header of a frame, and then they show the
address of that frame.
-/
namespace Floppy
open Gcr

namespace Gcr

theorem oddEvenDecode_encode (value : UInt8) :
    oddEvenDecode (oddEvenEncode value).1 (oddEvenEncode value).2 = value :=
  forall_byte (p := fun v => oddEvenDecode (oddEvenEncode v).1 (oddEvenEncode v).2 = v) (by decide) value

theorem sectorIndex_logicalOfPhysical (number : UInt8) :
    sectorIndex (logicalOfPhysical (physicalOfLogical number)) = sectorIndex number := by
  have h : ∀ i : Fin 16, sectorIndex logicalOrder[sectorIndex physicalOrder[i]] = i := by decide
  exact h (sectorIndex number)

namespace AddressField

theorem ofBytes?_encode (field : AddressField) (rest : List UInt8) : ofBytes? (field.encode ++ rest) = some field := by
  simp [encode, marker, oddEvenPair, ofBytes?, oddEvenDecode_encode]

theorem of_ofBytes? {bytes : List UInt8} {field : AddressField} (reads : ofBytes? bytes = some field) :
    ∃ rest, bytes = 0xD5 :: 0xAA :: 0x96 :: rest ∧ 8 ≤ rest.length := by
  unfold ofBytes? at reads
  split at reads
  · exact ⟨_, rfl, by simp⟩
  · cases reads

theorem of_find? {bytes : List UInt8} {field : AddressField} (found : find? bytes = some field) :
    ∃ bytes', bytes' <:+ bytes ∧ ofBytes? bytes' = some field := by
  induction bytes with
  | nil => cases found
  | cons b rest ih =>
    rw [find?] at found
    rcases Option.or_eq_some_iff.mp found with here | ⟨-, later⟩
    · exact ⟨b :: rest, List.suffix_rfl, here⟩
    · obtain ⟨bytes', ends, reads⟩ := ih later
      exact ⟨bytes', ends.trans (List.suffix_cons ..), reads⟩

end AddressField

namespace Frame

theorem drop_take_header (address : AddressField) (sector : Sector) :
    ((encode address sector).take headerSize).drop 2 = address.encode := rfl

theorem eq_of_closer {address : AddressField} {sector : Sector} {place : ℕ} (behind : 10 ≤ place) (before : place ≤ 15)
    (closes : (encode address sector)[place]? = some 0xDE) : place = 13 := by
  have front : place < bodyStart := by
    simp only [bodyStart, headerSize]
    omega
  have known := landmark (by decide) front closes
  simp only [List.mem_cons, List.not_mem_nil, Prod.mk.injEq, or_false] at known
  omega

end Frame
end Gcr
end Floppy
