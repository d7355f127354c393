import Floppy.Fetch.Client
import Floppy.Storage.TrackLoader
import Floppy.Storage.Waiting
import Floppy.System.FillQueue
import Floppy.System.Settings

/-!
# The disk system

What all tasks work on: the controller's registers, the transport and storage, and the state of the
emulation that connects them. The internal drive reads its image from storage; the tracks of the external
disk that were found right can be mirrored behind it.
-/
namespace Floppy
open Fetch Schedule

/-- Where the mirror of the external disk starts in storage. -/
abbrev mirrorBase : Nat := diskSize

/-- Room for the internal image and the mirror. -/
abbrev storageSize : Nat := mirrorBase + diskSize

structure DiskSystem (ρ τ δ : Type) where
  settings : SystemSettings
  registers : ρ
  transport : τ
  storage : δ
  controller : Controller
  cache : TrackCache := .empty
  client : Client
  loader : TrackLoader := {}
  /-- Validated tracks that wait to be mirrored, oldest first. -/
  mirrorQueue : List UInt8 := []
  tracksMirrored : Nat := 0

namespace DiskSystem
variable {ρ τ δ : Type} [Registers ρ] [Transport τ] [StorageDevice δ]

instance : StorageContext (DiskSystem ρ τ δ) δ where
  storage := storage
  setStorage system storage := { system with storage }

def new (settings : SystemSettings) (trace : Trace) (registers : ρ) (transport : τ) (storage : δ) :
    DiskSystem ρ τ δ where
  settings
  registers
  transport
  storage
  controller := .ofVolume settings.volume settings.controller
  client := { retryLimit := settings.fetch.retryLimit, wholeTrack := settings.fetch.wholeTrack, trace }

/-- Storage that is too small is reported. -/
def newLog (storage : δ) : Log :=
  if StorageDevice.size storage < storageSize then
    [⟨.warn, "Storage is " ++ toString (StorageDevice.size storage) ++
      " bytes; the internal image and track mirror need " ++ toString storageSize⟩]
  else []

/-- The state at power-on. What is outside the emulation stays, and so does an external disk. -/
def reinit (system : DiskSystem ρ τ δ) : Effect (DiskSystem ρ τ δ) :=
  let (client, log) := system.client.restart
  { context := { system with
      controller := system.controller.reset
      cache := .empty
      client
      loader := system.loader.cancel
      mirrorQueue := [] }
    log }

/-- Asks the source for what the external drive lacks. -/
def requestExternal (system : DiskSystem ρ τ δ) (target : Option FillTarget) : Effect (DiskSystem ρ τ δ) :=
  match target with
  | none => { context := system }
  | some t =>
    let (_, desk, transport) := system.client.request system.transport system.cache.external t.volume
      (system.client.requestFor t.track t.sector)
    { context := { system with
        client := desk.client
        transport
        cache := { system.cache with external := desk.line } }
      log := desk.log }

/-- Asks storage for what the internal drive lacks. -/
def requestInternal (system : DiskSystem ρ τ δ) (target : Option FillTarget) : Effect (DiskSystem ρ τ δ) :=
  match target with
  | none => { context := system }
  | some t =>
    let (loader, log) := system.loader.request t.track t.volume
    { context := { system with loader }, log }

/-- Polls the controller once and passes on what the head asked for. Gives the number of bytes written. -/
def drivePass (system : DiskSystem ρ τ δ) : Nat × Effect (DiskSystem ρ τ δ) :=
  let run := system.controller.pollOnce system.registers system.cache
  let system := { system with controller := run.controller, registers := run.registers }
  let queue := run.fills.foldl FillQueue.request .empty
  let external := system.requestExternal queue.external
  let internal := external.context.requestInternal queue.internal
  (run.written.size,
    { context := internal.context, ticks := run.ticks, log := run.log ++ external.log ++ internal.log })

/-- Takes over what the transport has received. A new disk resets the head, unless it reads the internal
drive. -/
def fetchPass (system : DiskSystem ρ τ δ) : Outcome × Effect (DiskSystem ρ τ δ) :=
  let (desk, transport) := system.client.service system.transport system.cache.external
    system.controller.drives.external.volume
  let controller := system.controller.setVolume .external desk.volume
  let controller := if desk.outcome.inserted ∧ controller.head.slot ≠ some .internal then
      controller.resetHead
    else controller
  (desk.outcome,
    { context := { system with
        client := desk.client
        transport
        cache := { system.cache with external := desk.line }
        controller
        mirrorQueue := system.mirrorQueue ++
          (if system.settings.fetch.mirrorTracks then desk.outcome.validatedTrack.toList else []) }
      log := desk.log })

/-- Loads a track for the internal drive; the flag says whether one was loaded. -/
def internalPass (system : DiskSystem ρ τ δ) : Bool × Effect (DiskSystem ρ τ δ) :=
  let pass := system.loader.service system.storage system.cache.internal
  (pass.loaded,
    { context := { system with
        loader := pass.loader
        cache := { system.cache with internal := pass.line } }
      log := pass.log })

def storagePass (system : DiskSystem ρ τ δ) : DiskSystem ρ τ δ :=
  { system with storage := StorageDevice.service system.storage }

/-- The first track of a queue that the line still holds and vouches for, and what is left of the queue;
the others are dropped. -/
def nextMirror (line : TrackLine) : List UInt8 → Option UInt8 × List UInt8 × Log
  | [] => (none, [], [])
  | track :: rest =>
    if line.track = some track && line.validated then (some track, rest, [])
    else
      let (found, left, log) := nextMirror line rest
      (found, left, ⟨.debug, "Mirror: track " ++ toString track.toNat ++ " no longer cached"⟩ :: log)

/-- The next track to mirror: where it goes in storage, and its bytes. -/
def takeMirror (system : DiskSystem ρ τ δ) : Option (Nat × List UInt8) × Effect (DiskSystem ρ τ δ) :=
  let (found, mirrorQueue, log) := nextMirror system.cache.external system.mirrorQueue
  (found.map fun track => (mirrorBase + track.toNat * trackSize, system.cache.external.data),
    { context := { system with mirrorQueue }, log })

def mirrorDone (system : DiskSystem ρ τ δ) : DiskSystem ρ τ δ :=
  { system with tracksMirrored := system.tracksMirrored + 1 }

def driveStatus (system : DiskSystem ρ τ δ) (slot : DriveSlot) : String :=
  let drive := system.controller.drives.get slot
  let line := system.cache.get slot
  slot.name ++ ": ht " ++ toString drive.halfTrack ++ " vol " ++ toString drive.volume.toNat ++ " motor " ++
    Text.bit drive.motor ++ " | cache t:" ++ line.trackText ++ " v:" ++ toString line.volume.toNat ++
    " bits " ++ Text.hexLower 4 line.validBits ++ (if line.validated then " validated" else "")

/-- The state of the system in words. -/
def status (system : DiskSystem ρ τ δ) : List String :=
  let head := system.controller.head
  let c := system.controller.stats
  let l := system.loader.stats
  [ "head: " ++ head.stateName ++ " drive " ++ Text.optional (head.slot.map (·.label)) ++ " at " ++
      head.position.text ++ " (" ++ toString head.bytesSent ++ " bytes)",
    system.driveStatus .external,
    system.driveStatus .internal,
    "controller: polls " ++ toString c.polls ++ " written " ++ toString c.bytesWritten ++ " fillers " ++
      toString c.fillers ++ " steps " ++ toString c.steps ++ " stops " ++ toString c.stopHits ++ " stalls " ++
      toString c.burstStalls,
    "fetch (" ++ system.client.state.name ++ "): " ++ system.client.stats.text,
    "internal: loaded " ++ toString l.tracksLoaded ++ " busy " ++ toString l.busyPasses ++ " errors " ++
      toString l.readErrors ++ " | mirrored " ++ toString system.tracksMirrored ]

end DiskSystem
end Floppy
