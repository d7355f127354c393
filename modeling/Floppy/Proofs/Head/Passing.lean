import Floppy.Proofs.Controller.Pieces
import Floppy.Proofs.Gcr.DataField

/-!
# What passes under a head

A head that reads stands between frames or inside one. Each byte that passes is a filler or the next byte of a
frame; a frame that is torn leaves the head between frames. Only two places of a frame hold the byte that opens
a prologue.
-/
namespace Floppy
open Gcr

namespace Gcr

theorem notMem_oddEvenPair {byte : UInt8} (apart : byte &&& 0xAA ≠ 0xAA) (value : UInt8) :
    byte ∉ AddressField.oddEvenPair value := by
  have odd : (oddEvenEncode value).1 &&& 0xAA = 0xAA :=
    forall_byte (p := fun v => (oddEvenEncode v).1 &&& 0xAA = 0xAA) (by decide) value
  have even : (oddEvenEncode value).2 &&& 0xAA = 0xAA :=
    forall_byte (p := fun v => (oddEvenEncode v).2 &&& 0xAA = 0xAA) (by decide) value
  rw [AddressField.oddEvenPair, List.mem_pair]
  rintro (rfl | rfl)
  · exact apart odd
  · exact apart even

namespace Frame
variable {address : AddressField} {sector : Sector} {place : ℕ}

abbrev bodyStart : ℕ := headerSize + 4

/-- The last byte that is needed to read the data field, the second of its epilogue. -/
abbrev closing : ℕ := 364

theorem encode_eq (address : AddressField) (sector : Sector) :
    encode address sector =
      (address.header ++ syncByte :: DataField.marker) ++ DataField.body sector := by
  simp [encode, DataField.encode_eq]

theorem length_front (address : AddressField) :
    (address.header ++ syncByte :: DataField.marker).length = bodyStart := rfl

theorem getElem?_encode_body (address : AddressField) (sector : Sector) (place : ℕ) :
    (encode address sector)[bodyStart + place]? = (DataField.body sector)[place]? := by
  rw [encode_eq, List.getElem?_append_right (by rw [length_front]; omega), length_front,
    Nat.add_sub_cancel_left]

/-- The bytes ahead of the body that cannot be mistaken for those of a value in the address field. -/
theorem landmark {byte : UInt8} (apart : byte &&& 0xAA ≠ 0xAA) (front : place < bodyStart)
    (there : (encode address sector)[place]? = some byte) :
    (place, byte) ∈ [(2, 0xD5), (4, 0x96), (13, 0xDE), (17, 0xD5), (19, 0xAD)] := by
  rw [encode_eq, List.getElem?_append_left (by rwa [length_front])] at there
  have volume := notMem_oddEvenPair apart address.volume
  have track := notMem_oddEvenPair apart address.track
  have number := notMem_oddEvenPair apart address.sector
  have sum := notMem_oddEvenPair apart address.checksum
  have others : byte ≠ 0xFF ∧ byte ≠ 0xEB := by
    constructor <;> rintro rfl <;> exact apart (by decide)
  simp only [AddressField.oddEvenPair, List.mem_cons, List.not_mem_nil, or_false,
    not_or] at volume track number sum
  interval_cases place <;>
    simp_all [AddressField.header, AddressField.encode, AddressField.marker, AddressField.trailer,
      AddressField.oddEvenPair, DataField.marker, syncByte, eq_comm]

theorem place_of_opener (opens : (encode address sector)[place]? = some 0xD5) :
    place = 2 ∨ place = 17 := by
  by_cases front : place < bodyStart
  · simpa using landmark (by decide) front opens
  · rw [show place = bodyStart + (place - bodyStart) by omega, getElem?_encode_body] at opens
    exact absurd (List.mem_of_getElem? opens) (DataField.opener_notMem_body sector)

end Frame
end Gcr

/-- A byte that passed, with the sector whose frame it belongs to and its place there; a filler belongs to no
frame. -/
structure Passed where
  byte : UInt8
  origin : Option (Sector × ℕ)

/-- Where a head stands that reads: between frames, or inside one after some of its bytes. -/
inductive Standing where
  | idle
  | inside (address : AddressField) (sector : Sector) (sent : ℕ)

namespace Standing

/-- After its last byte a frame is left. -/
def after (address : AddressField) (sector : Sector) (sent : ℕ) : Standing :=
  if sent < Frame.size then .inside address sector sent else .idle

theorem after_of_lt {address : AddressField} {sector : Sector} {sent : ℕ} (more : sent < Frame.size) :
    after address sector sent = .inside address sector sent := if_pos more

theorem eq_of_after {address address' : AddressField} {sector sector' : Sector} {sent sent' : ℕ}
    (same : after address sector sent = .inside address' sector' sent') :
    address = address' ∧ sector = sector' ∧ sent = sent' := by
  by_cases more : sent < Frame.size
  · simpa [after, more] using same
  · simp [after, more] at same

/-- What can pass from where the head stands, and where it stands then. -/
inductive Gives : Standing → Passed → Standing → Prop
  | filler : Gives .idle ⟨syncByte, none⟩ .idle
  | begins (address : AddressField) (sector : Sector) :
      Gives .idle ⟨syncByte, some (sector, 0)⟩ (.inside address sector 1)
  | goes {address : AddressField} {sector : Sector} {sent : ℕ} {byte : UInt8}
      (next : (Frame.encode address sector)[sent]? = some byte) :
      Gives (.inside address sector sent) ⟨byte, some (sector, sent)⟩ (after address sector (sent + 1))

end Standing

/-- The head stands there, and the given sector is that of the frame in progress. -/
inductive Head.Stands (head : Head) (kept : Option Sector) : Standing → Prop
  | idle (still : head.state = .inactive) : head.Stands kept .idle
  | inside {address : AddressField} {sector : Sector} {frame : Playback Frame.size}
      (state : head.state = .sending frame) (content : frame.bytes.toList = Frame.encode address sector)
      (same : kept = some sector) (lt : frame.position < Frame.size) :
      head.Stands kept (.inside address sector frame.position)

/-- The sector whose frame the next byte belongs to: the one in progress, else the one that is read from the
cache to begin a frame. -/
def Head.source (head : Head) (kept : Option Sector) (slot : DriveSlot) (drive : Drive) (cache : TrackCache)
    (hint : Option Position) : Option Sector :=
  if (head.moveTo drive.track).isActive then kept
  else cache.sector? slot drive.track drive.volume (head.next slot drive cache hint).head.sector

namespace Head.Stands
variable {head : Head} {kept : Option Sector} {standing : Standing}

theorem abandon (head : Head) (kept : Option Sector) : Stands head.abandon kept .idle :=
  .idle (Woven.abandon_state head)

theorem reset (head : Head) (kept : Option Sector) (sector : UInt8) : Stands (head.reset sector) kept .idle :=
  .idle (Woven.abandon_state head)

theorem moveTo (h : Stands head kept standing) (track : UInt8) :
    Stands (head.moveTo track) kept standing ∨ Stands (head.moveTo track) kept .idle := by
  by_cases moved : head.track ≠ track
  · rw [Head.moveTo, if_pos moved]
    exact .inr (abandon head kept)
  · rw [Head.moveTo, if_neg moved]
    exact .inl h

theorem send {address : AddressField} {sector : Sector} {frame : Playback Frame.size}
    (content : frame.bytes.toList = Frame.encode address sector) (same : kept = some sector)
    (lt : frame.position < Frame.size) :
    ∃ next, Standing.Gives (.inside address sector frame.position)
        ⟨(head.send frame).2.value, kept.map (·, frame.position)⟩ next ∧
      Stands (head.send frame).1 kept next := by
  have byte : (Frame.encode address sector)[frame.position]? = some frame.bytes[frame.position] := by
    rw [← content, List.getElem?_eq_getElem (by simpa using lt), Vector.getElem_toList]
  refine ⟨Standing.after address sector (frame.position + 1), ?_⟩
  by_cases more : frame.position + 1 < Frame.size
  · rw [Head.send_of_lt head frame more, same]
    constructor
    · exact .goes byte
    · rw [Standing.after, if_pos more]
      exact @inside _ _ address sector ⟨frame.bytes, frame.position + 1, more.le⟩ rfl content rfl more
  · have last : frame.position + 1 = Frame.size := by omega
    rw [Head.send_of_eq head frame last, same]
    constructor
    · exact .goes byte
    · rw [Standing.after, if_neg more]
      exact .idle rfl

/-- An idle head begins the frame of a sector that is cached, and else gives a filler. -/
theorem start (still : head.state = .inactive) (slot : DriveSlot) (drive : Drive) (cache : TrackCache) :
    ∃ next, Standing.Gives .idle
        ⟨(head.start slot drive cache).output.value,
          (cache.sector? slot drive.track drive.volume (head.start slot drive cache).head.sector).map (·, 0)⟩
        next ∧
      Stands (head.start slot drive cache).head
        (cache.sector? slot drive.track drive.volume (head.start slot drive cache).head.sector) next := by
  cases cached : cache.sector? slot drive.track drive.volume head.sector with
  | none =>
    simp only [Head.start, cached]
    exact ⟨.idle, .filler, .idle still⟩
  | some sector =>
    let address := Frame.address drive.volume drive.track head.sector
    have content := Frame.content_play address sector
    simp only [Head.start_of_cached head cached, cached]
    exact ⟨.inside address sector 1, .begins address sector,
      @inside _ _ address sector ⟨(Frame.play address sector).bytes, 1, by decide⟩ rfl content rfl
        (Frame.more_play address sector)⟩

/-- From where the head stands, or from between frames if its frame is torn, one byte passes. -/
theorem next (h : Stands head kept standing) (slot : DriveSlot) (drive : Drive) (cache : TrackCache)
    (hint : Option Position) :
    ∃ here next, (here = standing ∨ here = .idle) ∧
      Standing.Gives here ⟨(head.next slot drive cache hint).output.value,
        (head.source kept slot drive cache hint).map (·, (head.moveTo drive.track).bytesSent)⟩ next ∧
      Stands (head.next slot drive cache hint).head (head.source kept slot drive cache hint) next := by
  have moved : ∃ here, (here = standing ∨ here = .idle) ∧ Stands (head.moveTo drive.track) kept here := by
    cases h.moveTo drive.track with
    | inl stays => exact ⟨standing, .inl rfl, stays⟩
    | inr torn => exact ⟨.idle, .inr rfl, torn⟩
  obtain ⟨here, origin, stands⟩ := moved
  cases stands with
  | idle still =>
    obtain ⟨next, gives, stands⟩ := start ((Head.arrive_kept _ slot drive.track hint).1.trans still) slot drive cache
    refine ⟨.idle, next, origin, ?_⟩
    simp only [Head.source, Head.next, Head.isActive, Head.bytesSent, still]
    exact ⟨gives, stands⟩
  | @inside address sector frame state content same lt =>
    obtain ⟨next, gives, stands⟩ := @send (head.moveTo drive.track) kept address sector frame content same lt
    refine ⟨.inside address sector frame.position, next, origin, ?_⟩
    simp only [Head.source, Head.next, Head.isActive, Head.bytesSent, state]
    exact ⟨gives, stands⟩

end Head.Stands
end Floppy
