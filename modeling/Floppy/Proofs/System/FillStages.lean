import Floppy.Proofs.Fetch.Transfer
import Floppy.Proofs.System.FillLoop

/-!
# From the request to the frame

The stages of a loop: no byte was wanted yet; the sector was asked for, and events of the answer are to come;
the frame is complete. What the source and the channel do changes nothing of a stage.
-/
namespace Floppy.FillLoop
open Fetch Bench Controller
variable {δ : Type}

/-- What a loop is about: the sector under the arm, and how it is asked for. -/
structure WantedSector where
  position : Position
  volume : UInt8
  image : Image
  bytes : Sector
  wholeTrack : Bool
  limit : UInt32
  onDisk : position.track.toNat < trackCount
  low : position.sector < 16
  found : image.sector? position.track position.sector = some bytes

namespace WantedSector

def request (e : WantedSector) : Request :=
  ⟨e.position.track, if e.wholeTrack then none else some e.position.sector⟩

def frame (e : WantedSector) : List UInt8 := frameOf e.volume e.position e.bytes

def target (e : WantedSector) : FillTarget := ⟨e.position.track, e.volume, e.position.sector⟩

abbrev Brings (e : WantedSector) : Core → List StreamEvent → Prop :=
  Fetch.Brings e.position.track e.volume e.position.sector e.bytes

theorem room (e : WantedSector) (spare : ℕ) : Client.neededRoom e.request ≤ 6 + spare :=
  (Client.neededRoom_le e.request).trans (Nat.le_add_right 6 spare)

theorem sector_low (e : WantedSector) : e.position.sector &&& 0x0F = e.position.sector :=
  forall_byte (p := fun sector => sector < 16 → sector &&& 0x0F = sector) (by decide) e.position.sector e.low

theorem content (e : WantedSector) {number : UInt8} (same : sectorIndex e.position.sector = sectorIndex number) :
    (e.image.sector? e.position.track number).getD .zero = e.bytes := by
  rw [← e.image.sector?_congr _ same, e.found]
  rfl

theorem asked (e : WantedSector) :
    ∃ number ∈ e.request.sectors, sectorIndex e.position.sector = sectorIndex number := by
  unfold Request.sectors request
  cases e.wholeTrack with
  | false => exact ⟨_, List.mem_singleton.mpr rfl, (sectorIndex_low _).symm⟩
  | true =>
    refine ⟨UInt8.ofNat e.position.sector.toNat, ?_, by simp⟩
    exact List.mem_map_of_mem (List.mem_range.mpr e.low)

theorem answer (e : WantedSector) {core : Core} (disk : core.volume = e.volume)
    (undisturbed : core.inserted = false)
    (state : core.state = .inserted)
    (missing : core.line.sector? e.position.track e.volume e.position.sector = none) (source : ImageSource)
    (idle : source.line = []) (image : source.image = e.image) :
    ∃ events, ({} : Tokenizer).feed (replies source e.request.encode) = ({}, events) ∧
      e.Brings (core.request e.position.track e.volume true) events := by
  rw [replies, source.feed_request idle e.request e.onDisk, List.flatten_singleton, Tokenizer.feed_messages]
  refine ⟨_, rfl, ?_⟩
  have asks : core.request e.position.track e.volume true =
      { core with line := core.line.retag e.position.track e.volume, assembly := none, retries := 0,
                  state := .reading } := by
    simp [Core.request, state]
  have steady : Steady e.position.track e.volume e.position.sector e.bytes
      (core.request e.position.track e.volume true) := by
    rw [asks]
    refine ⟨core.line.tag_retag _ _, disk, undisturbed, .inl rfl, fun found readable => ?_⟩
    rcases tagged : core.line.isTagged e.position.track e.volume with _ | _
    · rw [TrackLine.sector?_retag_of_ne tagged] at readable
      cases readable
    · rw [TrackLine.retag_of_tagged tagged, missing] at readable
      cases readable
  refine Fetch.Brings.answer steady (by rw [asks]) e.request.sectors
    (fun number => (source.image.sector? e.position.track number).getD .zero)
    (fun number _ same => ?_) e.asked (source.closingCrc e.request)
  rw [image]
  exact e.content same

end WantedSector

/-- What no pass changes before the frame is complete. -/
structure Keeps (e : WantedSector) (loop : FillLoop δ) : Prop where
  online : loop.system.transport.online = true
  track : loop.system.controller.drives.external.track = e.position.track
  disk : loop.system.controller.drives.external.volume = e.volume
  limit : loop.system.client.retryLimit = e.limit

/-- No byte was wanted yet. -/
structure Quiet (e : WantedSector) (loop : FillLoop δ) : Prop extends Keeps e loop where
  inserted : loop.system.client.state = .inserted
  wholeTrack : loop.system.client.wholeTrack = e.wholeTrack
  hint : loop.system.registers.hint = some e.position
  missing : loop.system.cache.external.sector? e.position.track e.volume e.position.sector = none
  elsewhere : loop.system.controller.head.slot ≠ some .external
  unwritten : loop.system.registers.written = #[]
  unsent : loop.wire = []
  unread : loop.read = 0
  source : loop.source.line = []
  image : loop.source.image = e.image
  blank : loop.system.client.tokenizer.feed (loop.system.transport.received ++ loop.channel) = ({}, [])

/-- The sector was asked for. After so many fillers its frame begins or has begun, and these events of the
answer are still to come. -/
structure Fed (e : WantedSector) (fillers : ℕ) (events : List StreamEvent) (loop : FillLoop δ) : Prop
    extends Keeps e loop where
  sent : loop.wire = e.request.encode
  begun : Begun e.position e.frame fillers loop.system.controller.head loop.written
  ahead : loop.system.client.tokenizer.feed loop.ahead = ({}, events)
  brings : e.Brings loop.system.core events
  patience : loop.system.client.state = .reading → loop.system.client.retries.toNat ≤ loop.idle

/-- The frame is complete. -/
structure Done (e : WantedSector) (fillers : ℕ) (loop : FillLoop δ) : Prop where
  asked : e.request.encode <+: loop.wire
  played : Played e.frame fillers loop.written

section Source
variable {e : WantedSector} {loop : FillLoop δ} {fillers : ℕ} {events : List StreamEvent}

theorem Quiet.answer (h : Quiet e loop) (count : ℕ) : Quiet e (loop.step (.answer count)) := by
  have nothing : loop.unread.take count = [] := by
    rw [FillLoop.unread, show loop.system.transport.sent = [] from h.unsent, List.drop_nil, List.take_nil]
  have same : loop.step (.answer count) = loop := by
    simp [step, nothing, replies, ImageSource.feed]
  rw [same]
  exact h

theorem Quiet.deliver (h : Quiet e loop) (count : ℕ) : Quiet e (loop.step (.deliver count)) := by
  refine { h with blank := ?_ }
  have same : (loop.step (.deliver count)).system.transport.received ++ (loop.step (.deliver count)).channel =
      loop.system.transport.received ++ loop.channel := by
    simp [step, Pipe.push]
  rw [same]
  exact h.blank

theorem Fed.answer (h : Fed e fillers events loop) (count : ℕ) :
    Fed e fillers events (loop.step (.answer count)) := by
  refine { h with ahead := ?_ }
  rw [ahead_answer]
  exact h.ahead

theorem Fed.deliver (h : Fed e fillers events loop) (count : ℕ) :
    Fed e fillers events (loop.step (.deliver count)) := by
  refine { h with ahead := ?_ }
  rw [ahead_deliver]
  exact h.ahead

end Source

end Floppy.FillLoop
