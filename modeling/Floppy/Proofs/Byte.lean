import Mathlib.Tactic

/-!
# Facts about single bytes

What holds of a byte whatever its two hex digits are is found by going through all of them.
-/
namespace Floppy

@[elab_as_elim]
theorem forall_byte {p : UInt8 → Prop} (h : ∀ high low : Fin 16, p (.ofNat (16 * high + low))) (b : UInt8) :
    p b := by
  have high : b.toNat / 16 < 16 := by
    have := b.toNat_lt
    omega
  have whole : UInt8.ofNat (16 * (b.toNat / 16) + b.toNat % 16) = b := by
    rw [Nat.div_add_mod, UInt8.ofNat_toNat]
  exact whole ▸ h ⟨b.toNat / 16, high⟩ ⟨b.toNat % 16, Nat.mod_lt _ (by decide)⟩

@[elab_as_elim]
theorem forall_byte_pair {p : UInt8 → UInt8 → Prop}
    (h : ∀ (high low : Fin 16) (b : Fin 4), p (.ofNat (16 * high + low)) (.ofNat b)) (a b : UInt8)
    (hb : b < 4) :
    p a b := by
  have bound : b.toNat < 4 := by simpa using UInt8.lt_iff_toNat_lt.mp hb
  have pairs :=
    forall_byte (p := fun a => p a (.ofNat b.toNat)) (fun high low => h high low ⟨b.toNat, bound⟩) a
  rwa [UInt8.ofNat_toNat] at pairs

end Floppy
