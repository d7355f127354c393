/-!
# The clock

The timer interrupt counts ticks, and counts them once more in a watchdog that is fed by setting it back to
zero. Both counters wrap.
-/
namespace Floppy.Schedule

structure Clock where
  now : UInt64 := 0
  /-- Ticks since the watchdog was fed. -/
  elapsed : UInt32 := 0
  watchdogMax : UInt32
deriving DecidableEq, Repr

namespace Clock

def tick (clock : Clock) (ticks : Nat) : Clock :=
  { clock with now := clock.now + .ofNat ticks, elapsed := clock.elapsed + .ofNat ticks }

def feed (clock : Clock) : Clock := { clock with elapsed := 0 }

def isExpired (clock : Clock) : Bool := clock.watchdogMax < clock.elapsed

end Clock
end Floppy.Schedule
