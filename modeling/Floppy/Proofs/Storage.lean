import Floppy.Storage.TrackLoader
import Floppy.Proofs.ImageSource

/-!
# What is in storage

A write changes the bytes that it took and no others, so that pieces which are written one after the other lie in
storage as one. A line that was loaded shows what storage holds.
-/
namespace Floppy

section Overlay
variable {bytes : Array UInt8} {start stop offset : ℕ}

theorem extract_set_of_le (below : stop ≤ offset) (byte : UInt8) :
    (bytes.setIfInBounds offset byte).extract start stop = bytes.extract start stop := by
  apply Array.ext
  · simp
  · intro i inside _
    have apart : offset ≠ start + i := by
      rw [Array.size_extract] at inside
      omega
    rw [Array.getElem_extract, Array.getElem_extract, Array.getElem_setIfInBounds_ne _ apart]

theorem extract_overlay_of_le (below : stop ≤ offset) (src : List UInt8) :
    (overlay bytes offset src).extract start stop = bytes.extract start stop := by
  induction src generalizing bytes offset with
  | nil => rfl
  | cons byte rest ih => rw [overlay, ih (Nat.le_succ_of_le below), extract_set_of_le below]

/-- From anywhere before the offset, the bytes up to the end of those that were laid over. -/
theorem extract_overlay {src : List UInt8} (after : start ≤ offset) (room : offset + src.length ≤ bytes.size) :
    (overlay bytes offset src).extract start (offset + src.length) =
      bytes.extract start offset ++ src.toArray := by
  induction src generalizing bytes offset with
  | nil => exact Array.append_empty.symm
  | cons byte rest ih =>
    rw [List.length_cons] at room ⊢
    have inside : offset < (bytes.setIfInBounds offset byte).size := by
      rw [Array.size_setIfInBounds]
      omega
    have first : (bytes.setIfInBounds offset byte).extract start (offset + 1) =
        (bytes.extract start offset).push byte := by
      rw [Array.extract_succ_right (Nat.lt_succ_of_le after) inside, extract_set_of_le le_rfl,
        Array.getElem_setIfInBounds_self]
    have more : offset + 1 + rest.length ≤ (bytes.setIfInBounds offset byte).size := by
      rw [Array.size_setIfInBounds]
      omega
    have later := ih (Nat.le_succ_of_le after) more
    rw [overlay, Nat.add_comm rest.length 1, ← Nat.add_assoc, later, first]
    simp

theorem overlay_append (first second : List UInt8) :
    overlay bytes offset (first ++ second) = overlay (overlay bytes offset first) (offset + first.length) second := by
  induction first generalizing bytes offset with
  | nil => rfl
  | cons b rest ih =>
    rw [List.cons_append, overlay, ih, overlay, List.length_cons, Nat.add_right_comm, Nat.add_assoc]

theorem toList_overlay {src : List UInt8} (room : offset + src.length ≤ bytes.size) :
    (overlay bytes offset src).toList =
      bytes.toList.take offset ++ src ++ bytes.toList.drop (offset + src.length) := by
  induction src generalizing bytes offset with
  | nil => simp [overlay]
  | cons b rest ih =>
    rw [List.length_cons] at room
    have inside : offset < bytes.toList.length := by
      rw [Array.length_toList]
      omega
    have more : offset + 1 + rest.length ≤ (bytes.setIfInBounds offset b).size := by
      rw [Array.size_setIfInBounds]
      omega
    have front : (bytes.toList.set offset b).take (offset + 1) = bytes.toList.take offset ++ [b] := by
      rw [List.take_succ_eq_append_getElem (by rwa [List.length_set]), List.take_set_of_le le_rfl,
        List.getElem_set_self]
    have behind : offset + 1 + rest.length = offset + (rest.length + 1) := by omega
    rw [overlay, ih more, Array.toList_setIfInBounds, List.drop_set_of_lt (by omega), front, behind, List.length_cons]
    simp

theorem extract_of_extract_zero {a b : Array UInt8} {size : ℕ} (same : a.extract 0 size = b.extract 0 size)
    (below : stop ≤ size) : a.extract start stop = b.extract start stop := by
  have part := congrArg (fun bytes : Array UInt8 => bytes.extract start stop) same
  simpa only [Array.extract_extract, Nat.zero_add, Nat.min_eq_left below] using part

end Overlay

namespace Flash
variable (flash : Flash) (offset : ℕ) (src : List UInt8)

theorem write_spec :
    let count := (flash.write offset src).1
    count ≤ src.length ∧ (offset ≤ flash.bytes.size → offset + count ≤ flash.bytes.size) ∧
      (flash.write offset src).2.bytes = overlay flash.bytes offset (src.take count) := by
  unfold write
  split
  · exact ⟨Nat.zero_le _, id, rfl⟩
  · refine ⟨min_le_left _ _, fun inside => ?_, rfl⟩
    have room : flash.accepted offset src.length ≤ flash.bytes.size - offset :=
      (min_le_right _ _).trans (min_le_right _ _)
    exact Nat.add_comm _ _ ▸ Nat.add_le_of_le_sub inside room

theorem write_le : (flash.write offset src).1 ≤ src.length := (flash.write_spec offset src).1

theorem size_write : (flash.write offset src).2.bytes.size = flash.bytes.size := by
  obtain ⟨-, -, bytes⟩ := flash.write_spec offset src
  rw [bytes, size_overlay]

theorem extract_write_of_le {start stop : ℕ} (below : stop ≤ offset) :
    (flash.write offset src).2.bytes.extract start stop = flash.bytes.extract start stop := by
  obtain ⟨-, -, bytes⟩ := flash.write_spec offset src
  rw [bytes, extract_overlay_of_le below]

theorem extract_write {start : ℕ} (after : start ≤ offset) (inside : offset ≤ flash.bytes.size) :
    (flash.write offset src).2.bytes.extract start (offset + (flash.write offset src).1) =
      flash.bytes.extract start offset ++ (src.take (flash.write offset src).1).toArray := by
  obtain ⟨few, room, bytes⟩ := flash.write_spec offset src
  have length : (src.take (flash.write offset src).1).length = _ := List.length_take_of_le few
  have fits : offset + (src.take (flash.write offset src).1).length ≤ flash.bytes.size := length.symm ▸ room inside
  have laid := extract_overlay after fits
  rw [length] at laid
  rw [bytes, laid]

/-- Of the data that is written from an offset on, so much is in its place, and there is room for all of it. -/
structure Placed (data : List UInt8) (offset written : ℕ) (bytes : Array UInt8) : Prop where
  short : written ≤ data.length
  room : offset + data.length ≤ bytes.size
  placed : bytes.extract offset (offset + written) = (data.take written).toArray

namespace Placed
variable {flash : Flash} {offset written : ℕ} {data : List UInt8} {bytes : Array UInt8}

theorem start (room : offset + data.length ≤ bytes.size) : Placed data offset 0 bytes :=
  ⟨Nat.zero_le _, room, Array.extract_eq_empty_of_le ((min_le_left _ _).trans (Nat.add_zero offset).le)⟩

theorem whole (h : Placed data offset written bytes) (rest : data.drop written = []) :
    bytes.extract offset (offset + data.length) = data.toArray := by
  have all : written = data.length := Nat.le_antisymm h.short (List.drop_eq_nil_iff.mp rest)
  rw [← all, h.placed, all, List.take_length]

theorem write (h : Placed data offset written flash.bytes) :
    Placed data offset (written + (flash.write (offset + written) (data.drop written)).1)
      (flash.write (offset + written) (data.drop written)).2.bytes := by
  have few := flash.write_le (offset + written) (data.drop written)
  have inside : offset + written ≤ flash.bytes.size := (Nat.add_le_add_left h.short offset).trans h.room
  refine ⟨?_, by rw [size_write]; exact h.room, ?_⟩
  · rw [List.length_drop] at few
    have short := h.short
    omega
  · rw [← Nat.add_assoc, extract_write _ _ _ (Nat.le_add_right offset written) inside, h.placed, List.take_add]
    exact List.append_toArray _ _

end Placed

theorem read_of_idle {flash : Flash} (idle : ¬ flash.isBusy = true) (offset length : ℕ) :
    flash.read offset length = flash.bytes.extract offset (offset + length) := if_neg idle

theorem bytes_service : flash.service.bytes = flash.bytes := by
  unfold service
  split <;> rfl

section
variable {flash offset src}

theorem write_within_page (page : 0 < flash.pageSize) :
    offset % flash.pageSize + (flash.write offset src).1 ≤ flash.pageSize := by
  have inside := (Nat.mod_lt offset page).le
  unfold write
  split
  · exact inside
  · have few : flash.accepted offset src.length ≤ flash.pageSize - offset % flash.pageSize :=
      (min_le_right _ _).trans (min_le_left _ _)
    show _ + flash.accepted offset src.length ≤ _
    omega

theorem write_pos (page : 0 < flash.pageSize) (idle : flash.isBusy = false) (inside : offset < flash.bytes.size)
    (nonempty : src ≠ []) : 0 < (flash.write offset src).1 := by
  have place := Nat.mod_lt offset page
  have length := List.length_pos_of_ne_nil nonempty
  simp only [write, idle, accepted, Bool.false_or, decide_eq_true_iff, Nat.not_le.mpr inside, if_false]
  omega

theorem pageSize_write : (flash.write offset src).2.pageSize = flash.pageSize := by
  unfold write
  split <;> rfl

theorem isBusy_iff : flash.isBusy = true ↔ 0 < flash.busyLeft.toNat := by
  rw [isBusy, decide_eq_true_iff, Nat.pos_iff_ne_zero, ← UInt32.toNat_zero]
  exact not_congr UInt32.toNat_inj.symm

/-- What some passes of service leave: the contents, and what is left of the time that the device is busy for. -/
theorem service_iterate (n : ℕ) :
    (service^[n] flash).bytes = flash.bytes ∧ (service^[n] flash).pageSize = flash.pageSize ∧
      (service^[n] flash).busyLeft.toNat = flash.busyLeft.toNat - n := by
  induction n with
  | zero => exact ⟨rfl, rfl, rfl⟩
  | succ n ih =>
    rw [Function.iterate_succ_apply']
    generalize service^[n] flash = later at ih ⊢
    obtain ⟨bytes, page, left⟩ := ih
    rw [← Nat.sub_sub, ← left, ← page, ← bytes]
    unfold service
    split
    case isTrue busy =>
      have positive : 1 ≤ later.busyLeft := UInt32.le_iff_toNat_le.mpr (isBusy_iff.mp busy)
      exact ⟨rfl, rfl, UInt32.toNat_sub_of_le _ _ positive⟩
    case isFalse idle =>
      rw [isBusy_iff] at idle
      exact ⟨rfl, rfl, by omega⟩

end

end Flash

namespace TrackLine
variable {line : TrackLine} {image other : Array UInt8}

/-- What can be read from the line is what the image holds, and the image holds the whole track. -/
def Shows (line : TrackLine) (image : Array UInt8) : Prop :=
  ∀ track, line.track = some track → track.toNat < trackCount ∧ (track.toNat + 1) * trackSize ≤ image.size ∧
    ∀ i : Fin 16, line.valid.get i = true → (line.sectors.get i).toArray =
      image.extract (track.toNat * trackSize + i.val * sectorSize)
        (track.toNat * trackSize + i.val * sectorSize + sectorSize)

theorem Shows.of_untagged (untagged : line.track = none) : line.Shows image :=
  fun _ tagged => nomatch untagged.symm.trans tagged

theorem Shows.congr (h : line.Shows image) (size : other.size = image.size)
    (same : other.extract 0 diskSize = image.extract 0 diskSize) : line.Shows other := by
  intro track tagged
  obtain ⟨onDisk, whole, sectors⟩ := h track tagged
  refine ⟨onDisk, size.symm ▸ whole, fun i valid => ?_⟩
  rw [sectors i valid]
  refine (extract_of_extract_zero same ?_).symm
  have low := i.isLt
  simp only [diskSize, trackSize, trackCount, sectorsPerTrack, sectorSize] at onDisk ⊢
  omega

theorem Shows.sector? (h : line.Shows image) {track volume sector : UInt8} {bytes : Sector}
    (read : line.sector? track volume sector = some bytes) :
    track.toNat < trackCount ∧ (track.toNat + 1) * trackSize ≤ image.size ∧
      bytes.toArray = image.extract (imageOffset track sector) (imageOffset track sector + sectorSize) := by
  obtain ⟨tag, valid, rfl⟩ := (line.sector?_eq_some_iff track volume sector bytes).mp read
  obtain ⟨onDisk, whole, sectors⟩ := h track (congrArg Prod.fst tag)
  exact ⟨onDisk, whole, sectors (sectorIndex sector) valid⟩

end TrackLine

namespace TrackLoader

theorem fill_eq (line : TrackLine) (track volume : UInt8) (bytes : Array UInt8) :
    fill line track volume bytes =
      (line.retag track volume).commitAll ((List.range sectorsPerTrack).map UInt8.ofNat) fun number =>
        .ofArray (bytes.extract (number.toNat * sectorSize) ((number.toNat + 1) * sectorSize)) := by
  rw [TrackLine.commitAll, List.foldl_map]
  refine List.foldl_ext _ _ _ fun line i mem => ?_
  have low : i < 16 := List.mem_range.mp mem
  have number : (UInt8.ofNat i).toNat = i := UInt8.toNat_ofNat_of_lt' (low.trans (by decide))
  rw [number]

theorem track_fill (line : TrackLine) (track volume : UInt8) (bytes : Array UInt8) :
    (fill line track volume bytes).track = some track := by
  rw [fill_eq, ← TrackLine.track_tag, TrackLine.tag_commitAll, TrackLine.tag_retag]

theorem get_fill (line : TrackLine) (track volume : UInt8) (bytes : Array UInt8) (i : Fin 16) :
    (fill line track volume bytes).sectors.get i =
      .ofArray (bytes.extract (i.val * sectorSize) ((i.val + 1) * sectorSize)) := by
  rw [fill_eq]
  refine (TrackLine.get_commitAll _ _ _ ?_ (.inl ?_)).2
  · intro number mem same
    obtain ⟨n, inside, rfl⟩ := List.mem_map.mp mem
    have low : n < 16 := List.mem_range.mp inside
    rw [← same, sectorIndex_ofNat low, UInt8.toNat_ofNat_of_lt' (low.trans (by decide))]
  · have low := i.isLt
    exact ⟨.ofNat i.val, List.mem_map_of_mem (List.mem_range.mpr low), sectorIndex_ofNat low⟩

/-- A track that is loaded from an image is shown as it is there. -/
theorem shows_fill (line : TrackLine) {track : UInt8} (volume : UInt8) {image : Array UInt8}
    (onDisk : track.toNat < trackCount) (whole : (track.toNat + 1) * trackSize ≤ image.size) :
    (fill line track volume
      (image.extract (track.toNat * trackSize) (track.toNat * trackSize + trackSize))).Shows image := by
  intro other tagged
  rw [track_fill] at tagged
  obtain rfl : track = other := Option.some.inj tagged
  refine ⟨onDisk, whole, fun i _ => ?_⟩
  have low := i.isLt
  have stop : min (track.toNat * trackSize + (i.val + 1) * sectorSize) (track.toNat * trackSize + trackSize) =
      track.toNat * trackSize + i.val * sectorSize + sectorSize := by
    simp only [trackSize, sectorsPerTrack, sectorSize]
    omega
  have size : (image.extract (track.toNat * trackSize + i.val * sectorSize)
      (track.toNat * trackSize + i.val * sectorSize + sectorSize)).size = sectorSize := by
    rw [Array.size_extract]
    simp only [trackSize, sectorsPerTrack, sectorSize] at whole ⊢
    omega
  rw [get_fill, Array.extract_extract, stop, ← Array.toList_inj]
  exact Sector.toList_ofArray size

/-- The image starts where storage starts, and the track that waits lies on the disk. -/
structure Aimed (loader : TrackLoader) : Prop where
  base : loader.base = 0
  pending : ∀ track volume, loader.pending = some (track, volume) → track.toNat < trackCount

namespace Aimed
variable {loader : TrackLoader} {flash : Flash} {line : TrackLine}

theorem cancel (h : loader.Aimed) : loader.cancel.Aimed := ⟨h.base, nofun⟩

theorem request (h : loader.Aimed) (track volume : UInt8) : (loader.request track volume).1.Aimed := by
  unfold TrackLoader.request
  split
  case isTrue onDisk =>
    refine ⟨h.base, fun other _ asked => ?_⟩
    obtain rfl : track = other := congrArg Prod.fst (Option.some.inj asked)
    exact onDisk
  case isFalse => exact h

theorem service (h : loader.Aimed) : (loader.service flash line).loader.Aimed := by
  unfold TrackLoader.service
  split
  case h_1 => exact h
  case h_2 track volume pending =>
    dsimp only
    split
    case isTrue => exact ⟨h.base, h.pending⟩
    case isFalse => split <;> exact ⟨h.base, nofun⟩

/-- A pass leaves the line as it is or loads it from the image. -/
theorem shows (h : loader.Aimed) (shown : line.Shows flash.bytes) :
    (loader.service flash line).line.Shows flash.bytes := by
  unfold TrackLoader.service
  split
  case h_1 => exact shown
  case h_2 track volume pending =>
    dsimp only
    split
    case isTrue => exact shown
    case isFalse idle =>
      split
      case isTrue => exact shown
      case isFalse long =>
        have onDisk := h.pending track volume pending
        have offset : loader.base + imageOffset track 0 = track.toNat * trackSize := by
          rw [h.base, Nat.zero_add]
          exact Nat.add_zero _
        have read : StorageDevice.read flash (loader.base + imageOffset track 0) trackSize =
            flash.bytes.extract (track.toNat * trackSize) (track.toNat * trackSize + trackSize) := by
          rw [offset]
          exact flash.read_of_idle idle _ _
        rw [read] at long ⊢
        refine shows_fill line volume onDisk ?_
        rw [Array.size_extract] at long
        simp only [trackSize, sectorsPerTrack, sectorSize] at long ⊢
        omega

end Aimed
end TrackLoader
end Floppy
