import Floppy.Proofs.Fetch.Core
import Floppy.System.Basic

/-!
# What the passes of the disk system do

The drive pass changes the core of the fetch client by a request at most. The fetch pass changes the
controller only if the source announces a disk.
-/
namespace Floppy

namespace Fetch.Client
variable {τ : Type} [Transport τ]

theorem transport_request (client : Client) (transport : τ) (line : TrackLine) (volume : UInt8)
    (request : Request) :
    (client.request transport line volume request).2.2 =
      if client.state = .inserted ∧ neededRoom request ≤ Transport.room transport then
        Transport.send transport request.encode
      else transport := by
  unfold Client.request
  dsimp only
  by_cases ready : client.state = .inserted
  · by_cases room : Transport.room transport < neededRoom request
    · rw [if_neg (not_not.mpr ready), if_pos room, if_neg (by omega)]
    · rw [if_neg (not_not.mpr ready), if_neg room, if_pos ⟨ready, by omega⟩]
  · rw [if_pos ready, if_neg fun h => ready h.1]

theorem transport_service (client : Client) (transport : τ) (line : TrackLine) (volume : UInt8)
    (online : Transport.connected transport = true) :
    (client.service transport line volume).2 = (Transport.read transport burstSize).2 := by
  unfold service
  rw [if_neg (by simp [online])]
  rcases Transport.read transport burstSize with ⟨_ | ⟨byte, burst⟩, rest⟩ <;> rfl

theorem transport_service_offline (client : Client) (transport : τ) (line : TrackLine) (volume : UInt8)
    (offline : Transport.connected transport = false) :
    (client.service transport line volume).2 = transport := by
  simp [service, offline]

end Fetch.Client

namespace DiskSystem
open Fetch
variable {ρ τ δ : Type}

def core (system : DiskSystem ρ τ δ) : Core :=
  system.client.core system.cache.external system.controller.drives.external.volume

theorem requestInternal_eq (system : DiskSystem ρ τ δ) (target : Option FillTarget) :
    ∃ loader, (system.requestInternal target).context = { system with loader } := by
  cases target with
  | none => exact ⟨system.loader, rfl⟩
  | some target => exact ⟨_, rfl⟩

/-- The system in the middle of a drive pass, before anything is asked for. -/
def polled [Registers ρ] (system : DiskSystem ρ τ δ) : DiskSystem ρ τ δ :=
  let run := system.controller.pollOnce system.registers system.cache
  { system with controller := run.controller, registers := run.registers }

theorem core_polled [Registers ρ] {system : DiskSystem ρ τ δ} (disk :
      system.polled.controller.drives.external.volume = system.controller.drives.external.volume) :
    system.polled.core = system.core := by
  rw [core, disk]
  rfl

variable [Transport τ]

/-- What the client makes of a fetch pass, and the transport then. -/
def served (system : DiskSystem ρ τ δ) : Desk × τ :=
  system.client.service system.transport system.cache.external system.controller.drives.external.volume

variable {system : DiskSystem ρ τ δ}

theorem core_requestExternal (system : DiskSystem ρ τ δ) (target : FillTarget)
    (disk : target.volume = system.controller.drives.external.volume) :
    (system.requestExternal (some target)).context.core =
      system.core.request target.track target.volume
        (decide (Client.neededRoom (system.client.requestFor target.track target.sector) ≤
          Transport.room system.transport)) := by
  have left : (system.requestExternal (some target)).context.core =
      { (system.client.request system.transport system.cache.external target.volume
          (system.client.requestFor target.track target.sector)).2.1.core with
        volume := system.controller.drives.external.volume, inserted := false } := rfl
  rw [left, Client.core_request, core, ← disk]
  unfold Core.request
  split
  case isTrue => rfl
  case isFalse => split <;> rfl

theorem transport_requestExternal (system : DiskSystem ρ τ δ) (target : FillTarget) :
    (system.requestExternal (some target)).context.transport =
      if system.client.state = .inserted ∧
          Client.neededRoom (system.client.requestFor target.track target.sector) ≤
            Transport.room system.transport then
        Transport.send system.transport (system.client.requestFor target.track target.sector).encode
      else system.transport :=
  Client.transport_request ..

theorem core_served_nil (online : Transport.connected system.transport = true)
    (nothing : (Transport.read system.transport Client.burstSize).1 = []) :
    system.served.1.core = system.core.wake.wait :=
  Client.core_service_nil _ _ _ _ online nothing

theorem core_served_cons (online : Transport.connected system.transport = true)
    (something : (Transport.read system.transport Client.burstSize).1 ≠ []) :
    system.served.1.core = system.core.wake.take (Transport.read system.transport Client.burstSize).1 :=
  Client.core_service_cons _ _ _ _ online something

/-- While no disk is announced, the fetch pass leaves the controller alone. -/
theorem fetchPass_undisturbed (disk : system.served.1.core.volume = system.controller.drives.external.volume)
    (undisturbed : system.served.1.core.inserted = false) :
    system.fetchPass.2.context.core = system.served.1.core ∧
      system.fetchPass.2.context.controller = system.controller ∧
      system.fetchPass.2.context.registers = system.registers ∧
      system.fetchPass.2.context.transport = system.served.2 := by
  have kept : system.controller.setVolume .external system.served.1.volume = system.controller := by
    rw [show system.served.1.volume = _ from disk]
    rfl
  have controller : system.fetchPass.2.context.controller = system.controller := by
    have quiet : system.served.1.outcome.inserted = false := undisturbed
    simp only [fetchPass]
    rw [show (system.client.service system.transport system.cache.external
      system.controller.drives.external.volume) = system.served from rfl, kept, quiet]
    simp
  refine ⟨?_, controller, rfl, rfl⟩
  have left : system.fetchPass.2.context.core =
      { system.served.1.core with
        volume := system.fetchPass.2.context.controller.drives.external.volume, inserted := false } := rfl
  rw [left, controller, ← disk, ← undisturbed]

variable [Registers ρ]

theorem drivePass_eq (system : DiskSystem ρ τ δ) (queue : FillQueue)
    (fills : (system.controller.pollOnce system.registers system.cache).fills.foldl FillQueue.request .empty =
      queue) :
    ∃ loader, system.drivePass.2.context =
      { (system.polled.requestExternal queue.external).context with loader } := by
  subst fills
  exact requestInternal_eq ..

theorem controller_drivePass (system : DiskSystem ρ τ δ) :
    system.drivePass.2.context.controller = system.polled.controller ∧
      system.drivePass.2.context.registers = system.polled.registers := by
  obtain ⟨loader, same⟩ := system.drivePass_eq _ rfl
  rw [same]
  cases ((system.controller.pollOnce system.registers system.cache).fills.foldl FillQueue.request
    .empty).external with
  | none => exact ⟨rfl, rfl⟩
  | some target => exact ⟨rfl, rfl⟩

theorem mirror_drivePass (system : DiskSystem ρ τ δ) :
    system.drivePass.2.context.storage = system.storage ∧
      system.drivePass.2.context.tracksMirrored = system.tracksMirrored ∧
      system.drivePass.2.context.mirrorQueue = system.mirrorQueue := by
  obtain ⟨loader, same⟩ := system.drivePass_eq _ rfl
  rw [same]
  cases ((system.controller.pollOnce system.registers system.cache).fills.foldl FillQueue.request
    .empty).external with
  | none => exact ⟨rfl, rfl, rfl⟩
  | some target => exact ⟨rfl, rfl, rfl⟩

theorem drivePass_of_nil (fills : (system.controller.pollOnce system.registers system.cache).fills = [])
    (disk : system.polled.controller.drives.external.volume = system.controller.drives.external.volume) :
    system.drivePass.2.context.core = system.core ∧
      system.drivePass.2.context.transport = system.transport := by
  obtain ⟨loader, same⟩ := system.drivePass_eq .empty (by rw [fills]; rfl)
  rw [same, ← core_polled disk]
  exact ⟨rfl, rfl⟩

/-- A drive pass in which a sector of the external disk is asked for. -/
theorem drivePass_of_single {target : FillTarget}
    (fills : (system.controller.pollOnce system.registers system.cache).fills =
      [⟨.external, target.track, target.volume, target.sector⟩])
    (disk : system.polled.controller.drives.external.volume = system.controller.drives.external.volume)
    (volume : target.volume = system.controller.drives.external.volume) :
    system.drivePass.2.context.core =
        system.core.request target.track target.volume
          (decide (Client.neededRoom (system.client.requestFor target.track target.sector) ≤
            Transport.room system.transport)) ∧
      system.drivePass.2.context.transport =
        if system.client.state = .inserted ∧
            Client.neededRoom (system.client.requestFor target.track target.sector) ≤
              Transport.room system.transport then
          Transport.send system.transport (system.client.requestFor target.track target.sector).encode
        else system.transport := by
  obtain ⟨loader, same⟩ := system.drivePass_eq ⟨some target, none⟩ (by rw [fills]; rfl)
  have asked := core_requestExternal system.polled target (volume.trans disk.symm)
  rw [core_polled disk] at asked
  rw [same]
  exact ⟨asked, transport_requestExternal system.polled target⟩

end DiskSystem
end Floppy
