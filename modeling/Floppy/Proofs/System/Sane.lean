import Floppy.Proofs.Fetch.Confirmed
import Floppy.Proofs.Storage
import Floppy.Proofs.System.Calls
import Floppy.System.Tasks

/-!
# What the tasks keep in order

The image of the internal disk stays as it was, and the line of the internal drive shows it. Nothing beyond the last
track is ever asked for, neither from the source nor from storage. Each pass of the disk system keeps this, as do a
write behind the image, whatever the surroundings do, and a reboot.
-/
namespace Floppy

namespace FillQueue

theorem forall_foldl {P : UInt8 → Prop} {fills : List FillRequest} (asked : ∀ fill ∈ fills, P fill.track)
    (slot : DriveSlot) : ∀ target, (fills.foldl request empty).get slot = some target → P target.track := by
  refine List.foldlRecOn fills request (motive := fun queue => ∀ target, queue.get slot = some target → P target.track)
    ?_ ?_
  · intro target none
    cases slot <;> cases none
  intro queue waits fill mem target
  by_cases same : slot = fill.slot
  · rw [request, same, PerDrive.get_set_self]
    rintro ⟨rfl⟩
    exact asked fill mem
  · rw [request, PerDrive.get_set_of_ne _ same]
    exact waits target

end FillQueue

namespace Fetch.Client
variable {τ : Type} [Transport τ]

theorem clear_request {client : Client} {line : TrackLine} {volume : UInt8} (h : (client.core line volume).Clear)
    (transport : τ) (request : Request) : (client.request transport line volume request).2.1.core.Clear := by
  rw [core_request]
  exact h.request _ _ _

theorem track_request (client : Client) (transport : τ) (line : TrackLine) (volume : UInt8) (request : Request) :
    (client.request transport line volume request).2.1.line.track = line.track ∨
      (client.request transport line volume request).2.1.line.track = some request.track := by
  have asked := congrArg Core.line (client.core_request transport line volume request)
  have turned := line.track_retag request.track volume
  unfold Core.request at asked
  split at asked
  · exact .inl (congrArg TrackLine.track asked)
  · split at asked <;> exact .inr ((congrArg TrackLine.track asked).trans turned)

end Fetch.Client

namespace DiskSystem
variable {ρ τ : Type}

/-- The system among its tasks, with the image that storage began with. -/
structure Sane (image : Array UInt8) (c : DiskSystem ρ τ Flash) : Prop where
  size : c.storage.bytes.size = image.size
  kept : c.storage.bytes.extract 0 diskSize = image.extract 0 diskSize
  internal : c.cache.internal.Shows image
  loader : c.loader.Aimed
  arms : c.controller.OnDisk
  external : ∀ track, c.cache.external.track = some track → track.toNat < trackCount
  clear : c.core.Clear

namespace Sane
variable {image : Array UInt8} {c : DiskSystem ρ τ Flash}

theorem new (settings : SystemSettings) (trace : Trace) (registers : ρ) (transport : τ) (storage : Flash) :
    Sane storage.bytes (DiskSystem.new settings trace registers transport storage) where
  size := rfl
  kept := rfl
  internal := .of_untagged rfl
  loader := ⟨rfl, nofun⟩
  arms := .ofVolume _ _
  external := nofun
  clear := .of_dropped rfl

theorem reinit (h : Sane image c) : Sane image c.reinit.context where
  size := h.size
  kept := h.kept
  internal := .of_untagged rfl
  loader := h.loader.cancel
  arms := .reset _
  external := nofun
  clear := by
    have restarted := c.client.core_restart {} 0
    have dropped : (c.client.restart.1.core {} 0).assembly = none := by
      rw [restarted]
      rfl
    exact .of_dropped dropped

theorem surrounded (h : Sane image c) (registers : ρ) (transport : τ) :
    Sane image { c with registers, transport } := { h with }

theorem requestInternal (h : Sane image c) (target : Option FillTarget) :
    Sane image (c.requestInternal target).context := by
  cases target with
  | none => exact h
  | some target => exact { h with loader := h.loader.request target.track target.volume }

theorem internalPass (h : Sane image c) : Sane image c.internalPass.2.context :=
  have shown : c.cache.internal.Shows c.storage.bytes := h.internal.congr h.size h.kept
  { h with
    internal := (h.loader.shows shown).congr h.size.symm h.kept.symm
    loader := h.loader.service }

theorem storagePass (h : Sane image c) : Sane image c.storagePass := by
  have bytes : c.storagePass.storage.bytes = c.storage.bytes := c.storage.bytes_service
  exact { h with size := bytes ▸ h.size, kept := bytes ▸ h.kept }

theorem takeMirror (h : Sane image c) : Sane image c.takeMirror.2.context := { h with }

theorem mirrorDone (h : Sane image c) : Sane image c.mirrorDone := { h with }

theorem writeOnce (h : Sane image c) {offset : ℕ} (behind : diskSize ≤ offset) (data : List UInt8) :
    Sane image (writeOnce offset data c).2.context :=
  { h with
    size := (c.storage.size_write offset data).trans h.size
    kept := (c.storage.extract_write_of_le offset data behind).trans h.kept }

theorem polled [Registers ρ] (h : Sane image c) : Sane image c.polled :=
  { h with arms := (h.arms.pollOnce c.registers c.cache).arms }

variable [Transport τ]

theorem requestExternal (h : Sane image c) {target : Option FillTarget}
    (onDisk : ∀ t, target = some t → t.track.toNat < trackCount) :
    Sane image (c.requestExternal target).context := by
  cases target with
  | none => exact h
  | some target =>
    refine { h with external := fun track tagged => ?_, clear := ?_ }
    · rcases c.client.track_request c.transport c.cache.external target.volume
        (c.client.requestFor target.track target.sector) with same | turned
      · exact h.external track (same.symm.trans tagged)
      · obtain rfl : target.track = track := Option.some.inj (turned.symm.trans tagged)
        exact onDisk target rfl
    · have clear : (c.client.core c.cache.external target.volume).Clear := h.clear
      exact Fetch.Client.clear_request clear _ _

theorem drivePass [Registers ρ] (h : Sane image c) : Sane image c.drivePass.2.context := by
  have fills := (h.arms.pollOnce c.registers c.cache).fills
  have asked := h.polled.requestExternal (FillQueue.forall_foldl (P := fun t => t.toNat < trackCount) fills .external)
  exact asked.requestInternal _

theorem fetchPass (h : Sane image c) : Sane image c.fetchPass.2.context where
  size := h.size
  kept := h.kept
  internal := h.internal
  loader := h.loader
  arms := onDisk_fetchPass h.arms
  external := by
    intro track tagged
    rcases c.client.track_service c.transport c.cache.external c.controller.drives.external.volume with same | gone
    · exact h.external track (same.symm.trans tagged)
    · exact nomatch gone.symm.trans tagged
  clear := c.client.clear_service h.clear _

end Sane
end DiskSystem
end Floppy
