import Floppy.Proofs.Controller.Arm
import Floppy.Proofs.System.Passes

/-!
# Calls of the disk system

The passes, and the return to power-on, in whatever order they are called. Both arms stay on their disks.
-/
namespace Floppy.DiskSystem
variable {ρ τ δ : Type}

inductive Call where
  | drive
  | fetch
  | internal
  | storage
  | reinit
deriving DecidableEq, Repr

section Fetching
variable [Transport τ] {system : DiskSystem ρ τ δ}

theorem controller_fetchPass (system : DiskSystem ρ τ δ) :
    let controller := system.controller.setVolume .external system.served.1.volume
    system.fetchPass.2.context.controller =
      if system.served.1.outcome.inserted ∧ controller.head.slot ≠ some .internal then controller.resetHead
      else controller :=
  rfl

theorem onDisk_fetchPass (h : system.controller.OnDisk) : system.fetchPass.2.context.controller.OnDisk := by
  have arms := h.setVolume .external system.served.1.volume
  rw [controller_fetchPass]
  split <;> exact arms

end Fetching

variable [Registers ρ]

/-- What a drive pass has to ask for, of each drive the latest. -/
def wants (system : DiskSystem ρ τ δ) : FillQueue :=
  (system.controller.pollOnce system.registers system.cache).fills.foldl FillQueue.request .empty

variable [Transport τ] [StorageDevice δ] {system : DiskSystem ρ τ δ}

def perform (system : DiskSystem ρ τ δ) : Call → DiskSystem ρ τ δ
  | .drive => system.drivePass.2.context
  | .fetch => system.fetchPass.2.context
  | .internal => system.internalPass.2.context
  | .storage => system.storagePass
  | .reinit => system.reinit.context

theorem perform_drive (system : DiskSystem ρ τ δ) : system.perform .drive =
    ((system.polled.requestExternal system.wants.external).context.requestInternal system.wants.internal).context :=
  rfl

theorem onDisk_perform (h : system.controller.OnDisk) (call : Call) : (system.perform call).controller.OnDisk := by
  cases call with
  | drive =>
    rw [perform, system.controller_drivePass.1]
    exact (h.pollOnce system.registers system.cache).arms
  | fetch => exact onDisk_fetchPass h
  | internal => exact h
  | storage => exact h
  | reinit => exact .reset _

end Floppy.DiskSystem
