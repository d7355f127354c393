import Floppy.Image
import Floppy.Proofs.Head.Passing

/-!
# Genuine frames

As long as the cache holds nothing but what is on the disks, each frame that passes under the head is that of a sector
of the disk that the head is at, under the address of the track and of the place of the sector on it.
-/
namespace Floppy
open Gcr

/-- What can be read from the cache is on the disk of its drive. -/
def TrackCache.Truthful (images : PerDrive (Array UInt8)) (cache : TrackCache) : Prop :=
  ∀ slot track volume sector bytes, cache.sector? slot track volume sector = some bytes →
    sectorAt? (images.get slot) track sector = some bytes

theorem sectorAt?_replicate {size : ℕ} (byte : UInt8) {track sector : UInt8}
    (fits : imageOffset track sector + sectorSize ≤ size) :
    sectorAt? (Array.replicate size byte) track sector = some (.replicate sectorSize byte) := by
  have cut : (Array.replicate size byte).extract (imageOffset track sector) (imageOffset track sector + sectorSize) =
      Array.replicate sectorSize byte := by
    rw [Array.extract_replicate]
    congr 1
    omega
  have whole : Sector.ofArray (Array.replicate sectorSize byte) = .replicate sectorSize byte := by
    refine Vector.ext fun i inside => ?_
    simp only [Sector.ofArray, Vector.getElem_ofFn, Vector.getElem_replicate, Array.getD_eq_getD_getElem?,
      Array.getElem?_replicate, inside, if_true, Option.getD_some]
  rw [sectorAt?, Array.size_replicate, if_pos fits, cut, whole]

def TrackLine.uniform (byte : UInt8) : TrackLine :=
  { track := some 0, volume := 254, valid := .replicate 16 true, sectors := .replicate 16 (.replicate sectorSize byte) }

theorem TrackCache.truthful_uniform (byte : UInt8) :
    Truthful (.both (Array.replicate trackSize byte)) (.both (.uniform byte)) := by
  have line (track volume sector : UInt8) (bytes : Sector)
      (held : (TrackLine.uniform byte).sector? track volume sector = some bytes) :
      sectorAt? (Array.replicate trackSize byte) track sector = some bytes := by
    unfold TrackLine.sector? at held
    split at held
    case isFalse => cases held
    case isTrue shown =>
      obtain rfl : 0 = track := by
        simp only [TrackLine.isTagged, TrackLine.uniform, Bool.and_eq_true, decide_eq_true_eq,
          Option.some.injEq] at shown
        exact shown.1.1
      have fits : imageOffset 0 sector + sectorSize ≤ trackSize := by
        have low := sectorIndex_lt sector
        simp only [imageOffset, UInt8.toNat_zero, trackSize, sectorsPerTrack, sectorSize]
        omega
      rw [sectorAt?_replicate byte fits, ← held]
      exact congrArg some (Vector.getElem_replicate _).symm
  intro slot track volume sector bytes held
  cases slot with
  | external => exact line track volume sector bytes held
  | internal => exact line track volume sector bytes held

/-- The disk has this sector at this address. -/
def Genuine (image : Array UInt8) (address : AddressField) (bytes : Sector) : Prop :=
  ∃ sector, address.sector = physicalOfLogical sector ∧ sectorAt? image address.track sector = some bytes

namespace Head

/-- The head stands between frames, or in a genuine one of the disk and the track that it is at. -/
inductive Plays (images : PerDrive (Array UInt8)) (head : Head) : Standing → Prop
  | idle (still : head.state = .inactive) : head.Plays images .idle
  | inside {own : DriveSlot} {address : AddressField} {sector : Sector} {frame : Playback Frame.size}
      (state : head.state = .sending frame) (content : frame.bytes.toList = Frame.encode address sector)
      (lt : frame.position < Frame.size) (slot : head.slot = some own) (track : head.track = address.track)
      (genuine : Genuine (images.get own) address sector) :
      head.Plays images (.inside address sector frame.position)

variable {images : PerDrive (Array UInt8)} {head : Head} {standing : Standing}

namespace Plays

theorem genuine (h : head.Plays images standing) {slot : DriveSlot} (there : head.slot = some slot)
    {address : AddressField} {sector : Sector} {sent : ℕ} (inside : standing = .inside address sector sent) :
    Genuine (images.get slot) address sector ∧ head.track = address.track ∧ sent < Frame.size := by
  cases h with
  | idle => cases inside
  | inside _ _ lt owned track genuine =>
    cases inside
    obtain rfl := Option.some.inj (owned.symm.trans there)
    exact ⟨genuine, track, lt⟩

theorem abandon (images : PerDrive (Array UInt8)) (head : Head) : head.abandon.Plays images .idle :=
  .idle (Woven.abandon_state head)

theorem reset (images : PerDrive (Array UInt8)) (head : Head) (sector : UInt8) :
    (head.reset sector).Plays images .idle :=
  .idle (Woven.abandon_state head)

theorem moveTo (h : head.Plays images standing) (track : UInt8) : ∃ next, (head.moveTo track).Plays images next := by
  unfold Head.moveTo
  split
  · exact ⟨_, abandon images head⟩
  · exact ⟨_, h⟩

theorem moveArm {c : Controller} (h : c.head.Plays images standing) (status : Status) :
    ∃ next, (c.moveArm status).1.head.Plays images next := by
  unfold Controller.moveArm
  dsimp only
  split
  · exact ⟨_, h⟩
  · exact ⟨_, reset images _ _⟩
  · exact h.moveTo _

/-- A head that has just come to a track begins a frame, or gives a filler. -/
theorem start (still : head.state = .inactive) {cache : TrackCache} (truthful : cache.Truthful images)
    {slot : DriveSlot} {drive : Drive} (there : head.slot = some slot) (track : head.track = drive.track) :
    ∃ passed next, Standing.Gives .idle passed next ∧ passed.byte = (head.start slot drive cache).output.value ∧
      (head.start slot drive cache).head.Plays images next := by
  cases cached : cache.sector? slot drive.track drive.volume head.sector with
  | none =>
    simp only [Head.start, cached]
    exact ⟨_, _, .filler, rfl, .idle still⟩
  | some bytes =>
    let address := Frame.address drive.volume drive.track head.sector
    have more := Frame.more_play address bytes
    have genuine : Genuine (images.get slot) address bytes := ⟨head.sector, rfl, truthful _ _ _ _ _ cached⟩
    rw [head.start_of_cached cached]
    exact ⟨_, _, .begins address bytes, rfl,
      @inside images _ slot address bytes ⟨(Frame.play address bytes).bytes, 1, more.le⟩ rfl
        (Frame.content_play address bytes) more there track genuine⟩

theorem send {slot : DriveSlot} {address : AddressField} {sector : Sector} {frame : Playback Frame.size}
    (content : frame.bytes.toList = Frame.encode address sector) (lt : frame.position < Frame.size)
    (there : head.slot = some slot) (track : head.track = address.track)
    (genuine : Genuine (images.get slot) address sector) :
    ∃ passed next, Standing.Gives (.inside address sector frame.position) passed next ∧
      passed.byte = (head.send frame).2.value ∧ (head.send frame).1.Plays images next := by
  have byte : (Frame.encode address sector)[frame.position]? = some frame.bytes[frame.position] := by
    rw [← content, List.getElem?_eq_getElem (by simpa using lt), Vector.getElem_toList]
  refine ⟨_, _, .goes byte, ?_⟩
  by_cases more : frame.position + 1 < Frame.size
  · rw [Head.send_of_lt head frame more, Standing.after_of_lt more]
    exact ⟨rfl, @inside images _ slot address sector ⟨frame.bytes, frame.position + 1, more.le⟩ rfl content more there
      track genuine⟩
  · have last : frame.position + 1 = Frame.size := by omega
    rw [Head.send_of_eq head frame last, Standing.after, if_neg more]
    exact ⟨rfl, .idle rfl⟩

/-- One byte passes from where the head stands, unless the arm has moved since. -/
theorem next (h : head.Plays images standing) {cache : TrackCache} (truthful : cache.Truthful images) (slot : DriveSlot)
    (drive : Drive) (hint : Option Position) :
    ∃ here passed next, (here = standing ∨ here = .idle ∧ head.track ≠ drive.track) ∧
      Standing.Gives here passed next ∧ passed.byte = (head.next slot drive cache hint).output.value ∧
      (head.next slot drive cache hint).head.Plays images next := by
  have begin (still : (head.moveTo drive.track).state = .inactive) :
      ∃ passed next, Standing.Gives .idle passed next ∧
        passed.byte = (head.next slot drive cache hint).output.value ∧
        (head.next slot drive cache hint).head.Plays images next := by
    have arrived := (head.moveTo drive.track).arrive_at slot drive.track hint
    have idle := ((head.moveTo drive.track).arrive_kept slot drive.track hint).1.trans still
    have began := start idle truthful arrived.1 arrived.2
    simp only [Head.next, still]
    exact began
  by_cases moved : head.track = drive.track
  · have stays : head.moveTo drive.track = head := if_neg (not_not.mpr moved)
    cases h with
    | idle still =>
      obtain ⟨passed, next, gives⟩ := begin (by rw [stays]; exact still)
      exact ⟨_, passed, next, .inl rfl, gives⟩
    | inside state content lt there track genuine =>
      obtain ⟨passed, next, gives⟩ := send content lt there track genuine
      refine ⟨_, passed, next, .inl rfl, ?_⟩
      simp only [Head.next, stays, state]
      exact gives
  · have torn : (head.moveTo drive.track).state = .inactive := by
      rw [Head.moveTo, if_pos moved]
      exact Woven.abandon_state head
    obtain ⟨passed, next, gives⟩ := begin torn
    exact ⟨.idle, passed, next, .inr ⟨rfl, moved⟩, gives⟩

end Plays
end Head
end Floppy
