import Floppy.Controller
import Floppy.Schedule.Machine

/-!
# Settings of the disk system
-/
namespace Floppy

structure FetchSettings where
  /-- Empty passes after which a transfer is abandoned. -/
  retryLimit : UInt32 := 1000
  /-- Whole tracks are asked for instead of single sectors. -/
  wholeTrack : Bool := false
  /-- Tracks whose CRC is right are copied into storage. -/
  mirrorTracks : Bool := false
deriving DecidableEq, Repr

structure SystemSettings where
  volume : UInt8 := defaultVolume
  schedule : Schedule.ScheduleSettings := {}
  fetch : FetchSettings := {}
  controller : ControllerSettings := {}
  /-- Where the raw stream is traced to; a hyphen stands for the console. -/
  traceFile : Option String := none
deriving DecidableEq, Repr

end Floppy
