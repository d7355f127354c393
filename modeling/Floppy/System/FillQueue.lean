import Floppy.Head

/-!
# Waiting fill requests

Of the requests that the head makes in one pass, the latest one for each drive counts.
-/
namespace Floppy

structure FillTarget where
  track : UInt8
  volume : UInt8
  sector : UInt8
deriving DecidableEq, Repr

abbrev FillQueue := PerDrive (Option FillTarget)

namespace FillQueue

def empty : FillQueue := .both none

def request (queue : FillQueue) (fill : FillRequest) : FillQueue :=
  queue.set fill.slot (some ⟨fill.track, fill.volume, fill.sector⟩)

def take (queue : FillQueue) (slot : DriveSlot) : Option FillTarget × FillQueue :=
  (queue.get slot, queue.set slot none)

end FillQueue
end Floppy
