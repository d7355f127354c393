import Floppy.Proofs.Byte
import Floppy.Proofs.Head.Due
import Floppy.Proofs.Head.Genuine

/-!
# Sectors in rotation

The arm stays on a track, and bytes are read one after the other. As long as each sector can be read when its frame
begins, whole frames pass without a gap, each of the sector with the next lower number; what the cache holds in the
meantime does not matter.
-/
namespace Floppy
open Gcr
namespace Head

/-- The sector that comes so many places later. Its number counts down, and only four bits of it count. -/
def sectorAfter (sector : UInt8) (count : ℕ) : UInt8 := (sector - .ofNat count) &&& 0x0F

theorem sectorAfter_zero {sector : UInt8} (low : sector < 16) : sectorAfter sector 0 = sector := by
  have small : sector.toNat < 2 ^ 4 := UInt8.lt_iff_toNat_lt.mp low
  apply UInt8.toNat.inj
  show ((sector - 0) &&& 0x0F).toNat = sector.toNat
  rw [UInt8.sub_zero, UInt8.toNat_and]
  exact (Nat.and_two_pow_sub_one_eq_mod _ 4).trans (Nat.mod_eq_of_lt small)

theorem sectorAfter_succ (sector : UInt8) (count : ℕ) :
    sectorAfter sector (count + 1) = (sectorAfter sector count - 1) &&& 0x0F := by
  have masked (b : UInt8) : ((b &&& 0x0F) - 1) &&& 0x0F = (b - 1) &&& 0x0F :=
    forall_byte (p := fun b => ((b &&& 0x0F) - 1) &&& 0x0F = (b - 1) &&& 0x0F) (by decide) b
  have further : sector - .ofNat (count + 1) = sector - .ofNat count - 1 := by
    rw [UInt8.ofNat_add, UInt8.sub_eq_add_neg, UInt8.neg_add, UInt8.sub_eq_add_neg, ← UInt8.add_assoc,
      ← UInt8.sub_eq_add_neg, ← UInt8.sub_eq_add_neg]
    rfl
  rw [sectorAfter, sectorAfter, masked, further]

section
variable (head : Head) (slot : DriveSlot) (drive : ℕ → Drive) (cache : ℕ → TrackCache) (hint : ℕ → Option Position)

/-- A head from which so many bytes were read, each with the drive, the cache and the hint at the time. -/
def after : ℕ → Head
  | 0 => head
  | count + 1 => ((after count).next slot (drive count) (cache count) (hint count)).head

def passAt (count : ℕ) : Pass :=
  (head.after slot drive cache hint count).next slot (drive count) (cache count) (hint count)

end

variable {head idle : Head} {slot : DriveSlot} {drive : ℕ → Drive} {cache : ℕ → TrackCache}
  {hint : ℕ → Option Position} {volume : UInt8} {bytes : Sector} {first : ℕ}

/-- The head after one whole frame. -/
def turned (head : Head) : Head :=
  { head with
    sector := (head.sector - 1) &&& 0x0F
    stats := { head.stats with
      headersSent := head.stats.headersSent + 1
      sectorsSent := head.stats.sectorsSent + 1 } }

/-- The head after so many whole frames. -/
def rotated (head : Head) (count : ℕ) : Head :=
  { head with
    sector := sectorAfter head.sector count
    stats := { head.stats with
      headersSent := head.stats.headersSent + count
      sectorsSent := head.stats.sectorsSent + count } }

theorem rotated_zero (low : head.sector < 16) : head.rotated 0 = head := by
  rw [rotated, sectorAfter_zero low]
  rfl

theorem rotated_succ (head : Head) (count : ℕ) : head.rotated (count + 1) = (head.rotated count).turned := by
  rw [rotated, sectorAfter_succ]
  rfl

/-- The turn of a frame: the head idles, the sector that it stands at can be read, and the arm stays while the frame
passes. -/
structure Turn (idle : Head) (slot : DriveSlot) (drive : ℕ → Drive) (cache : ℕ → TrackCache) (volume : UInt8)
    (bytes : Sector) (first : ℕ) : Prop where
  still : idle.state = .inactive
  there : idle.slot = some slot
  stays : ∀ i < Frame.size, (drive (first + i)).track = idle.track
  labelled : (drive first).volume = volume
  held : (cache first).sector? slot idle.track volume idle.sector = some bytes

theorem ready_of_idle {track : UInt8} {hint : Option Position} (there : head.slot = some slot)
    (here : head.track = track) : head.ready slot track hint = head := by
  rw [ready, moveTo, if_neg (not_not.mpr here), arrive, if_pos ⟨there, here⟩]

namespace Turn

abbrev frame (idle : Head) (volume : UInt8) (bytes : Sector) : Playback Frame.size :=
  Frame.play (Frame.address volume idle.track idle.sector) bytes

def inside (idle : Head) (playback : Playback Frame.size) : Head :=
  { idle with state := .sending playback, stats.headersSent := idle.stats.headersSent + 1 }

theorem begins (turn : Turn idle slot drive cache volume bytes first)
    (reached : head.after slot drive cache hint first = idle) :
    head.passAt slot drive cache hint first =
      { head := inside idle ⟨(frame idle volume bytes).bytes, 1, by decide⟩
        output := .byte (frame idle volume bytes).bytes[0] } := by
  obtain ⟨still, there, stays, rfl, held⟩ := turn
  have here : idle.track = (drive first).track := (stays 0 (by decide)).symm
  have due : idle.due? slot (drive first).track (hint first) = some idle.sector := due?_of_idle still there here
  have quiet : idle.moveLog (drive first).track = [] := if_neg fun moved => moved.1 here
  rw [here] at held
  rw [passAt, reached, next_of_cached due held, ready_of_idle there here, quiet, frame, here]
  rfl

theorem passAt_of_inside {count : ℕ} {playback : Playback Frame.size}
    (reached : head.after slot drive cache hint count = inside idle playback)
    (here : (drive count).track = idle.track) :
    head.passAt slot drive cache hint count =
      { head := ((inside idle playback).send playback).1, output := ((inside idle playback).send playback).2 } := by
  rw [passAt, reached]
  exact next_of_sending rfl here.symm

theorem after_add (turn : Turn idle slot drive cache volume bytes first)
    (reached : head.after slot drive cache hint first = idle) (i : ℕ) (more : i + 1 < Frame.size) :
    head.after slot drive cache hint (first + (i + 1)) =
      inside idle ⟨(frame idle volume bytes).bytes, i + 1, more.le⟩ := by
  induction i with
  | zero =>
    show (head.passAt slot drive cache hint first).head = _
    rw [turn.begins reached]
  | succ i ih =>
    show (head.passAt slot drive cache hint (first + (i + 1))).head = _
    rw [passAt_of_inside (ih (by omega)) (turn.stays _ (by omega)), send_of_lt _ _ more]
    rfl

theorem passes (turn : Turn idle slot drive cache volume bytes first)
    (reached : head.after slot drive cache hint first = idle) {i : ℕ} (lt : i < Frame.size) :
    (head.passAt slot drive cache hint (first + i)).output = .byte (frame idle volume bytes).bytes[i] ∧
      (head.passAt slot drive cache hint (first + i)).fill = none := by
  cases i with
  | zero =>
    rw [Nat.add_zero, turn.begins reached]
    exact ⟨rfl, rfl⟩
  | succ i =>
    rw [passAt_of_inside (turn.after_add reached i lt) (turn.stays _ lt)]
    exact ⟨send_output _ lt, rfl⟩

theorem ends (turn : Turn idle slot drive cache volume bytes first)
    (reached : head.after slot drive cache hint first = idle) :
    head.after slot drive cache hint (first + Frame.size) = idle.turned := by
  have last : 364 + 1 < Frame.size := by decide
  show (head.passAt slot drive cache hint (first + (364 + 1))).head = _
  rw [passAt_of_inside (turn.after_add reached 364 last) (turn.stays _ last), send_of_eq _ _ rfl, inside, ← turn.still]
  rfl

theorem outputs (turn : Turn idle slot drive cache volume bytes first)
    (reached : head.after slot drive cache hint first = idle) :
    (List.range Frame.size).map (fun i => (head.passAt slot drive cache hint (first + i)).output) =
      (Frame.encode (Frame.address volume idle.track idle.sector) bytes).map .byte := by
  have content := Frame.content_play (Frame.address volume idle.track idle.sector) bytes
  apply List.ext_getElem
  · simp [Frame.length_encode]
  · intro i before _
    have lt : i < Frame.size := by simpa using before
    simp only [List.getElem_map, List.getElem_range, (turn.passes reached lt).1, ← content, Vector.getElem_toList]

end Turn

/-- Whole frames pass without a gap, the numbers of their sectors counting down, if each sector can be read when it is
due. Nothing is asked for meanwhile. -/
theorem plays_in_rotation (still : head.state = .inactive) (there : head.slot = some slot) (low : head.sector < 16)
    (n : ℕ) (stays : ∀ i < Frame.size * n, (drive i).track = head.track ∧ (drive i).volume = volume)
    (data : ℕ → Sector)
    (held : ∀ k < n, (cache (Frame.size * k)).sector? slot head.track volume (sectorAfter head.sector k) =
      some (data k)) :
    (List.range (Frame.size * n)).map (fun i => (head.passAt slot drive cache hint i).output) =
        ((List.range n).flatMap fun k =>
          Frame.encode (Frame.address volume head.track (sectorAfter head.sector k)) (data k)).map .byte ∧
      (∀ i < Frame.size * n, (head.passAt slot drive cache hint i).fill = none) ∧
      head.after slot drive cache hint (Frame.size * n) = head.rotated n := by
  induction n with
  | zero => exact ⟨rfl, nofun, (rotated_zero low).symm⟩
  | succ n ih =>
    have size : Frame.size * (n + 1) = Frame.size * n + Frame.size := Nat.mul_succ _ n
    have positive : 0 < Frame.size := by decide
    obtain ⟨outputs, fills, reached⟩ := ih (fun i lt => stays i (by omega)) fun k lt => held k (by omega)
    have turn : Turn (head.rotated n) slot drive cache volume (data n) (Frame.size * n) :=
      { still, there
        stays := fun i lt => (stays _ (by omega)).1
        labelled := (stays _ (by omega)).2
        held := held n (Nat.lt_succ_self n) }
    refine ⟨?_, ?_, ?_⟩
    · rw [size, List.range_add, List.map_append, outputs, List.range_succ, List.flatMap_append, List.map_append,
        List.map_map, List.flatMap_singleton]
      exact congrArg _ (turn.outputs reached)
    · intro i lt
      by_cases before : i < Frame.size * n
      · exact fills i before
      · obtain ⟨j, rfl⟩ := Nat.exists_eq_add_of_le (Nat.le_of_not_lt before)
        exact (turn.passes reached (by omega)).2
    · rw [size, turn.ends reached, rotated_succ]

/-- A cache that shows the track for one byte of each frame only. -/
def glimpses (count : ℕ) : TrackCache := if count % Frame.size = 0 then .both (.uniform 7) else .empty

/-- Sector 15 follows sector 0, though each can be read for a moment only. -/
theorem plays_in_rotation_glimpses :
    (∀ k < 2, (glimpses (Frame.size * k)).sector? .external 0 254 (sectorAfter 0 k) =
        some (Vector.replicate sectorSize 7)) ∧
      ((List.range (Frame.size * 2)).map fun i =>
          (passAt { slot := some .external } .external (fun _ => {}) glimpses (fun _ => none) i).output) =
        ((List.range 2).flatMap fun k =>
          Frame.encode (Frame.address 254 0 (sectorAfter 0 k)) (Vector.replicate sectorSize 7)).map .byte ∧
      (∀ i < Frame.size * 2,
        (passAt { slot := some .external } .external (fun _ => {}) glimpses (fun _ => none) i).fill = none) ∧
      after { slot := some .external } .external (fun _ => {}) glimpses (fun _ => none) (Frame.size * 2) =
        rotated { slot := some .external } 2 := by
  have held : ∀ k < 2, (glimpses (Frame.size * k)).sector? .external 0 254 (sectorAfter 0 k) =
      some (Vector.replicate sectorSize 7) := by
    intro k few
    interval_cases k <;> rfl
  exact ⟨held, plays_in_rotation rfl rfl (by decide) 2 (fun _ _ => ⟨by decide, rfl⟩) _ held⟩

end Head
end Floppy
