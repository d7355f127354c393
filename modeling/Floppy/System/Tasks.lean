import Floppy.System.Basic

/-!
# The tasks of the disk system

In the order of their runs: the drive, the fetch client, the internal disk and storage. The fetch task also
mirrors tracks, and yields while storage is busy, so that the drive goes on meanwhile.
-/
namespace Floppy
open Schedule

namespace DiskSystem
variable {ρ τ δ : Type} [Registers ρ] [Transport τ] [StorageDevice δ]

/-- Tracks mirrored in one run of the task. The queue grows far more slowly. -/
def mirrorPatience : Nat := 1 <<< 40

def mirrorFailure (offset : Nat) (e : StorageError) : LogEntry :=
  ⟨.warn, "Mirror write at " ++ Text.hexLower 6 offset ++ " failed: " ++ e.message⟩

/-- Mirrors what waits. A reboot ends it. The mirror lies far below where the end of a track would overflow. -/
def mirror : Nat → Program (DiskSystem ρ τ δ)
  | 0 => .done
  | patience + 1 =>
    .perform takeMirror fun
      | none => .done
      | some (offset, data) =>
        writeWaiting offset data .done fun
          | .ok () => .update (fun s => { context := s.mirrorDone }) (mirror patience)
          | .error .interrupted => .done
          | .error e => .update (fun s => { context := s, log := [mirrorFailure offset e] }) (mirror patience)

def driveTask : Routine (DiskSystem ρ τ δ) := ⟨"drive", .update (fun s => s.drivePass.2) .done⟩

def fetchTask : Routine (DiskSystem ρ τ δ) := ⟨"fetch", .update (fun s => s.fetchPass.2) (mirror mirrorPatience)⟩

def internalTask : Routine (DiskSystem ρ τ δ) := ⟨"internal", .update (fun s => s.internalPass.2) .done⟩

def storageTask : Routine (DiskSystem ρ τ δ) :=
  ⟨"storage", .update (fun s => { context := s.storagePass }) .done⟩

def tasks : List (Routine (DiskSystem ρ τ δ)) := [driveTask, fetchTask, internalTask, storageTask]

def boot (system : DiskSystem ρ τ δ) : Boot (DiskSystem ρ τ δ) :=
  { context := system.reinit.context, tasks, log := system.reinit.log }

def launch (system : DiskSystem ρ τ δ) (crashLog : CrashLog) : Machine (DiskSystem ρ τ δ) :=
  let schedule := system.settings.schedule
  let m := Machine.start schedule system { watchdogMax := schedule.watchdogMax } crashLog boot
  { m with log := (newLog system.storage).toArray ++ m.log }

end DiskSystem
end Floppy
