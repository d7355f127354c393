import Floppy.Bench.Levers
import Floppy.Controller
import Floppy.Host

/-!
# Single parts at work

A controller that is polled, bytes taken from a head, and status bytes taken from a simulated host, with all
that was noted on the way.
-/
namespace Floppy.Bench

/-- Polls of a controller at registers that are set by hand. -/
structure ControllerPolls where
  controller : Controller
  levers : Levers
  /-- How many bytes each poll wrote. -/
  counts : Array Nat := #[]
  fills : Array FillRequest := #[]
  log : Array LogEntry := #[]

def ControllerPolls.next (p : ControllerPolls) (cache : TrackCache) : ControllerPolls :=
  let run := p.controller.pollOnce p.levers cache
  { controller := run.controller
    levers := run.registers
    counts := p.counts.push run.written.size
    fills := p.fills ++ run.fills
    log := p.log ++ run.log }

structure HeadReads where
  head : Head
  bytes : Array UInt8 := #[]
  fillers : Nat := 0
  fills : Array FillRequest := #[]
  log : Array LogEntry := #[]

def HeadReads.next (r : HeadReads) (slot : DriveSlot) (drive : Drive) (cache : TrackCache)
    (hint : Option Position) : HeadReads :=
  let pass := r.head.next slot drive cache hint
  { head := pass.head
    bytes := r.bytes.push pass.output.value
    fillers := r.fillers + (if pass.output = .filler then 1 else 0)
    fills := r.fills ++ pass.fill.toList
    log := r.log ++ pass.log }

structure HostReads where
  host : Host
  /-- The status bytes that were read. -/
  bytes : Array UInt8 := #[]
  log : Array LogEntry := #[]

namespace HostReads

def read (r : HostReads) : HostReads :=
  let poll := r.host.poll
  { host := poll.registers, bytes := r.bytes.push poll.status.toByte, log := r.log ++ poll.log }

/-- Reads until the host wants a byte, but for so many reads at most. -/
def readUntilWanted : (limit : Nat) → HostReads → HostReads
  | 0, r => r
  | limit + 1, r => if r.host.poll.status.wanted then r.read else readUntilWanted limit r.read

def write (r : HostReads) (bytes : List UInt8) : HostReads :=
  bytes.foldl (fun r b =>
    let (host, log) := r.host.accept b
    { r with host, log := r.log ++ log }) r

end HostReads
end Floppy.Bench
