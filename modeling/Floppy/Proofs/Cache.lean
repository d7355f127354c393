import Floppy.Cache
import Floppy.Proofs.Byte

/-!
# What can be read from a track line

A line gives out a sector under one track and one volume only, those it is tagged with. Committing a sector
makes it readable and leaves the others as they are; a new tag makes every sector unreadable.
-/
namespace Floppy

theorem sectorIndex_low (sector : UInt8) : sectorIndex (sector &&& 0x0F) = sectorIndex sector :=
  forall_byte (by decide) sector

theorem sectorIndex_eq_iff (a b : UInt8) : sectorIndex a = sectorIndex b ↔ a &&& 0x0F = b &&& 0x0F := by
  have low (n : UInt8) : (n &&& 0x0F).toNat = (sectorIndex n).val := by
    rw [UInt8.toNat_and]
    exact Nat.and_two_pow_sub_one_eq_mod n.toNat 4
  rw [Fin.ext_iff, ← low a, ← low b, UInt8.toNat_inj]

theorem sectorIndex_ofNat {n : ℕ} (small : n < 16) : sectorIndex (.ofNat n) = ⟨n, small⟩ := by
  apply Fin.ext
  simp only [sectorIndex, UInt8.toNat_ofNat']
  omega

theorem get_set {α : Type} {n : ℕ} (v : Vector α n) (i j : Fin n) (a : α) :
    (v.set i.val a i.isLt).get j = if j = i then a else v.get j := by
  change (v.set i.val a i.isLt)[j.val] = if j = i then a else v[j.val]
  rw [Vector.getElem_set]
  by_cases same : j = i
  · simp [same]
  · have apart : i.val ≠ j.val := fun h => same (Fin.ext h.symm)
    simp [same, apart]

namespace TrackLine

/-- The track and the volume that a line is for. -/
def tag (line : TrackLine) : Option UInt8 × UInt8 := (line.track, line.volume)

theorem track_tag (line : TrackLine) : line.tag.1 = line.track := rfl

theorem isTagged_iff (line : TrackLine) (track volume : UInt8) :
    line.isTagged track volume = true ↔ line.tag = (some track, volume) := by
  simp [isTagged, tag]

theorem sector?_eq_some_iff (line : TrackLine) (track volume sector : UInt8) (bytes : Sector) :
    line.sector? track volume sector = some bytes ↔
      line.tag = (some track, volume) ∧ line.valid.get (sectorIndex sector) = true ∧
        line.sectors.get (sectorIndex sector) = bytes := by
  simp [sector?, ← isTagged_iff, and_assoc]

theorem sector?_of_invalid {line : TrackLine} (h : line.valid = .replicate 16 false)
    (track volume sector : UInt8) : line.sector? track volume sector = none := by
  simp [sector?, h, Vector.get]

theorem sector?_flush (line : TrackLine) (track volume sector : UInt8) :
    line.flush.sector? track volume sector = none :=
  sector?_of_invalid rfl track volume sector

theorem tag_retag (line : TrackLine) (track volume : UInt8) :
    (line.retag track volume).tag = (some track, volume) := by
  unfold retag
  split
  case isTrue h => exact (isTagged_iff ..).mp h
  case isFalse => rfl

theorem track_retag (line : TrackLine) (track volume : UInt8) : (line.retag track volume).track = some track :=
  congrArg Prod.fst (line.tag_retag track volume)

theorem retag_of_tagged {line : TrackLine} {track volume : UInt8} (h : line.isTagged track volume = true) :
    line.retag track volume = line := by
  simp [retag, h]

theorem sector?_retag_of_ne {line : TrackLine} {track volume : UInt8}
    (h : line.isTagged track volume = false) (track' volume' sector : UInt8) :
    (line.retag track volume).sector? track' volume' sector = none := by
  apply sector?_of_invalid
  simp [retag, h, invalidate]

theorem sector?_commit (line : TrackLine) (committed : UInt8) (bytes : Sector) (track volume sector : UInt8) :
    (line.commit committed bytes).sector? track volume sector =
      if sectorIndex sector = sectorIndex committed then
        if line.isTagged track volume then some bytes else none
      else line.sector? track volume sector := by
  have tagged : (line.commit committed bytes).isTagged track volume = line.isTagged track volume := rfl
  have valid := get_set line.valid (sectorIndex committed) (sectorIndex sector) true
  have content := get_set line.sectors (sectorIndex committed) (sectorIndex sector) bytes
  unfold sector?
  rw [tagged]
  simp only [commit, valid, content]
  by_cases same : sectorIndex sector = sectorIndex committed
  · simp [same]
  · simp [same]

def commitAll (line : TrackLine) (numbers : List UInt8) (content : UInt8 → Sector) : TrackLine :=
  numbers.foldl (fun line number => line.commit number (content number)) line

theorem tag_commitAll (line : TrackLine) (numbers : List UInt8) (content : UInt8 → Sector) :
    (line.commitAll numbers content).tag = line.tag := by
  induction numbers generalizing line with
  | nil => rfl
  | cons number rest ih => exact ih (line.commit number (content number))

/-- A sector that was taken over stays, whatever is taken over besides. -/
theorem get_commitAll (line : TrackLine) (numbers : List UInt8) (content : UInt8 → Sector) {bytes : Sector}
    {i : Fin 16} (right : ∀ number ∈ numbers, sectorIndex number = i → content number = bytes)
    (there : (∃ number ∈ numbers, sectorIndex number = i) ∨
      line.valid.get i = true ∧ line.sectors.get i = bytes) :
    (line.commitAll numbers content).valid.get i = true ∧
      (line.commitAll numbers content).sectors.get i = bytes := by
  induction numbers generalizing line with
  | nil => exact there.resolve_left (by simp)
  | cons number rest ih =>
    refine ih (line.commit number (content number)) (fun n mem => right n (List.mem_cons_of_mem _ mem)) ?_
    have valid := get_set line.valid (sectorIndex number) i true
    have sectors := get_set line.sectors (sectorIndex number) i (content number)
    by_cases same : i = sectorIndex number
    · rw [if_pos same] at valid sectors
      exact .inr ⟨valid, sectors.trans (right number (by simp) same.symm)⟩
    · rw [if_neg same] at valid sectors
      rcases there with ⟨n, mem, index⟩ | ⟨was, held⟩
      · rcases List.mem_cons.mp mem with rfl | later
        · exact absurd index.symm same
        · exact .inl ⟨n, later, index⟩
      · exact .inr ⟨valid.trans was, sectors.trans held⟩

theorem isComplete_of_forall {line : TrackLine} (h : ∀ i, line.valid.get i = true) : line.isComplete = true := by
  have all : line.valid = .replicate 16 true := by
    ext i small
    rw [Vector.getElem_replicate]
    exact h ⟨i, small⟩
  simp [isComplete, all]

theorem length_data (line : TrackLine) : line.data.length = trackSize := by
  simp only [data, List.length_flatMap, Vector.length_toList, List.map_const', List.sum_replicate, smul_eq_mul]

theorem data_eq {line : TrackLine} (content : UInt8 → Sector)
    (h : ∀ number < 16, line.sectors.get (sectorIndex (.ofNat number)) = content (.ofNat number)) :
    line.data =
      ((List.range sectorsPerTrack).map UInt8.ofNat).flatMap fun number => (content number).toList := by
  have sectors :
      line.sectors.toList = (List.range sectorsPerTrack).map fun number => content (.ofNat number) := by
    apply List.ext_getElem
    · simp
    · intro i small inside
      have low : i < 16 := by simpa using small
      have held := h i low
      rw [sectorIndex_ofNat low] at held
      rw [List.getElem_map, List.getElem_range, ← held, Vector.getElem_toList]
      rfl
  rw [data, sectors, List.flatMap_map, List.flatMap_map]

end TrackLine
end Floppy
