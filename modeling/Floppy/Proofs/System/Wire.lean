import Floppy.Proofs.ImageSource
import Floppy.Proofs.System.Calls
import Floppy.Proofs.System.Sane
import Floppy.Transport.Rings

/-!
# What goes out on the wire

A disk system at rings of any size sends whole request lines and nothing else, each for a track of the disk. A request
that finds too little room is not begun, and nothing but the interrupt takes bytes away.
-/
namespace Floppy
open Fetch

namespace Rings

theorem pending_send (rings : Rings) {bytes : List UInt8} (fits : bytes.length ≤ rings.sendRoom) :
    (rings.send bytes).pending = rings.pending ++ bytes := by
  rw [send, List.take_of_length_le fits]

theorem pending_read (rings : Rings) (limit : ℕ) : (rings.read limit).2.pending = rings.pending := rfl

theorem transmit_append (rings : Rings) (limit : ℕ) :
    (rings.transmit limit).1 ++ (rings.transmit limit).2.pending = rings.pending :=
  List.take_append_drop ..

end Rings

namespace Fetch.Request

/-- A track of the disk, and a sector of one digit if there is one. -/
def OnDisk (request : Request) : Prop := request.track.toNat < trackCount ∧ ∀ sector ∈ request.sector, sector < 16

/-- The same request with what is sent of its sector. -/
def low (request : Request) : Request := ⟨request.track, request.sector.map (· &&& 0x0F)⟩

theorem encode_low (request : Request) : request.low.encode = request.encode := by
  have digit (n : UInt8) : Hex.digit (n &&& 0x0F) = Hex.digit n := forall_byte (by decide) n
  rcases request with ⟨track, _ | sector⟩
  · rfl
  · simp [encode, low, digit]

theorem onDisk_low {request : Request} (onDisk : request.track.toNat < trackCount) : request.low.OnDisk := by
  have below (n : UInt8) : n &&& 0x0F < 16 := forall_byte (p := fun n => n &&& 0x0F < 16) (by decide) n
  refine ⟨onDisk, fun sector mem => ?_⟩
  obtain ⟨n, -, rfl⟩ := Option.map_eq_some_iff.mp mem
  exact below n

theorem OnDisk.parse? {request : Request} (h : request.OnDisk) :
    parse? (Text.Utf8.decodeLossy request.encode) = some request := by
  have same (n : UInt8) : n < 16 → n &&& 0x0F = n :=
    forall_byte (p := fun n => n < 16 → n &&& 0x0F = n) (by decide) n
  rw [parse?_encode]
  rcases request with ⟨track, _ | sector⟩
  · rfl
  · simp [same sector (h.2 sector rfl)]

end Fetch.Request

/-- The rings of one system hold more than those of another by whole request lines for the disk. -/
def Rings.Grows (before after : Rings) : Prop :=
  ∃ requests : List Request, after.pending = before.pending ++ requests.flatMap (·.encode) ∧
    ∀ request ∈ requests, request.OnDisk

namespace Rings.Grows
variable {before after : Rings}

theorem of_eq (same : after.pending = before.pending) : before.Grows after := ⟨[], by simp [same], by simp⟩

theorem send {request : Request} (onDisk : request.track.toNat < trackCount)
    (room : Client.neededRoom request ≤ before.sendRoom) : before.Grows (before.send request.encode) := by
  refine ⟨[request.low], ?_, by simpa using Request.onDisk_low onDisk⟩
  rw [before.pending_send (Nat.le_of_succ_le room), List.flatMap_singleton, request.encode_low]

end Rings.Grows

namespace DiskSystem
variable {ρ δ : Type} {system : DiskSystem ρ Rings δ}

theorem grows_requestExternal {target : Option FillTarget}
    (onDisk : ∀ t, target = some t → t.track.toNat < trackCount) :
    system.transport.Grows (system.requestExternal target).context.transport := by
  cases target with
  | none => exact .of_eq rfl
  | some t =>
    rw [transport_requestExternal]
    split
    case isTrue ready => exact .send (onDisk t rfl) ready.2
    case isFalse => exact .of_eq rfl

theorem grows_fetchPass : system.transport.Grows system.fetchPass.2.context.transport := by
  refine .of_eq ?_
  change system.served.2.pending = system.transport.pending
  cases online : system.transport.connected with
  | false => rw [served, Client.transport_service_offline _ _ _ _ online]
  | true =>
    rw [served, Client.transport_service _ _ _ _ online]
    exact system.transport.pending_read _

/-- A disk system at rings, with the bytes that the interrupt has taken from them so far. -/
structure Wired (ρ δ : Type) where
  system : DiskSystem ρ Rings δ
  taken : List UInt8 := []

namespace Wired
variable {w : Wired ρ δ} {before : List UInt8}

/-- All that was ever put into the ring. -/
def wire (w : Wired ρ δ) : List UInt8 := w.taken ++ w.system.transport.pending

/-- Both arms are on their disks, and what was put into the ring so far are whole request lines for the disk. -/
structure Sound (before : List UInt8) (w : Wired ρ δ) : Prop where
  arms : w.system.controller.OnDisk
  lines : ∃ requests : List Request, w.wire = before ++ requests.flatMap (·.encode) ∧
    ∀ request ∈ requests, request.OnDisk

theorem Sound.grow (h : w.Sound before) {system : DiskSystem ρ Rings δ} (arms : system.controller.OnDisk)
    (grows : w.system.transport.Grows system.transport) : ({ w with system } : Wired ρ δ).Sound before := by
  obtain ⟨requests, same, onDisk⟩ := h.lines
  obtain ⟨more, longer, moreOnDisk⟩ := grows
  have longest : wire ({ w with system } : Wired ρ δ) = w.wire ++ more.flatMap (·.encode) := by
    rw [wire, longer, wire, List.append_assoc]
  refine ⟨arms, requests ++ more, ?_, List.forall_mem_append.mpr ⟨onDisk, moreOnDisk⟩⟩
  rw [longest, same, List.flatMap_append, List.append_assoc]

end Wired

variable [Registers ρ]

theorem wants_onDisk {τ : Type} {system : DiskSystem ρ τ δ} (arms : system.controller.OnDisk) (slot : DriveSlot) :
    ∀ target, system.wants.get slot = some target → target.track.toNat < trackCount :=
  FillQueue.forall_foldl (P := fun track => track.toNat < trackCount)
    (arms.pollOnce system.registers system.cache).fills slot

theorem grows_perform [StorageDevice δ] (arms : system.controller.OnDisk) (call : Call) :
    system.transport.Grows (system.perform call).transport := by
  cases call with
  | drive =>
    rw [perform_drive]
    obtain ⟨loader, same⟩ := requestInternal_eq (system.polled.requestExternal system.wants.external).context
      system.wants.internal
    rw [same]
    have grows : system.polled.transport.Grows
        (system.polled.requestExternal system.wants.external).context.transport :=
      grows_requestExternal (wants_onDisk arms .external)
    exact grows
  | fetch => exact grows_fetchPass
  | internal => exact .of_eq rfl
  | storage => exact .of_eq rfl
  | reinit => exact .of_eq rfl

namespace Wired
variable {w : Wired ρ δ} {before : List UInt8}

/-- A call of the system, or something that comes from outside: other registers and other storage, a link that comes or
goes, bytes that arrive, and bytes that are taken. -/
inductive Event (ρ δ : Type) where
  | call (call : Call)
  | surround (registers : ρ) (storage : δ)
  | connect (online : Bool)
  | receive (bytes : List UInt8)
  | transmit (limit : ℕ)

variable [StorageDevice δ]

def step (w : Wired ρ δ) : Event ρ δ → Wired ρ δ
  | .call call => { w with system := w.system.perform call }
  | .surround registers storage => { w with system.registers := registers, system.storage := storage }
  | .connect online => { w with system.transport.connected := online }
  | .receive bytes => { w with system.transport := w.system.transport.receive bytes }
  | .transmit limit =>
    let (bytes, rings) := w.system.transport.transmit limit
    { system := { w.system with transport := rings }, taken := w.taken ++ bytes }

def run (w : Wired ρ δ) (events : List (Event ρ δ)) : Wired ρ δ := events.foldl step w

theorem Sound.step (h : w.Sound before) (event : Event ρ δ) : (w.step event).Sound before := by
  cases event with
  | call call => exact h.grow (onDisk_perform h.arms call) (grows_perform h.arms call)
  | surround registers storage => exact h.grow h.arms (.of_eq rfl)
  | connect online => exact h.grow h.arms (.of_eq rfl)
  | receive bytes => exact h.grow h.arms (.of_eq rfl)
  | transmit limit =>
    have same : (w.step (.transmit limit)).wire = w.wire := by
      rw [wire, wire, ← w.system.transport.transmit_append limit]
      simp [Wired.step]
    exact ⟨h.arms, same ▸ h.lines⟩

theorem Sound.run (h : w.Sound before) (events : List (Event ρ δ)) : (w.run events).Sound before :=
  List.foldlRecOn events Wired.step (motive := Sound before) h fun _ sound event _ => sound.step event

/-- Whatever the registers show, whatever arrives and whenever bytes are taken: the arms stay between the stop and the
last track, whole request lines go out, each for a track of the disk and readable as its request, and storage is never
asked for a track past the end. -/
theorem requests_whole (settings : SystemSettings) (trace : Trace) (registers : ρ) (rings : Rings) (storage : δ)
    (events : List (Event ρ δ)) :
    let w := Wired.run { system := .new settings trace registers rings storage } events
    (∀ slot, 0 ≤ (w.system.controller.drives.get slot).halfTrack ∧
      (w.system.controller.drives.get slot).halfTrack ≤ maxHalfTrack) ∧
    (∃ requests : List Request, w.wire = rings.pending ++ requests.flatMap (·.encode) ∧
      ∀ request ∈ requests, request.track.toNat < trackCount ∧ (∀ sector ∈ request.sector, sector < 16) ∧
        Request.parse? (Text.Utf8.decodeLossy request.encode) = some request) ∧
    ∀ target, w.system.wants.internal = some target → target.track.toNat < trackCount := by
  intro w
  have start : Sound rings.pending { system := .new settings trace registers rings storage : Wired ρ δ } :=
    ⟨.ofVolume _ _, [], by simp [wire, DiskSystem.new], by simp⟩
  have sound : w.Sound rings.pending := start.run events
  obtain ⟨requests, same, onDisk⟩ := sound.lines
  exact ⟨sound.arms, ⟨requests, same, fun request mem => ⟨(onDisk request mem).1, (onDisk request mem).2,
    (onDisk request mem).parse?⟩⟩, wants_onDisk sound.arms .internal⟩

end Wired
end DiskSystem
end Floppy
