import Floppy.Status

/-!
# Registers set by hand

Registers whose lines are set from outside, with a queue of status bytes that are shown before anything else.
A byte that is written stays pending for a number of reads.
-/
namespace Floppy.Bench

structure Levers where
  lines : Status := { phase := 0, motor := true, drive := .external, wanted := false, pending := false }
  /-- Reads for which a byte stays pending after it was written. -/
  latency : Nat := 0
  /-- Reads for which the present byte still stays pending. -/
  wait : Nat := 0
  hint : Option Position := none
  script : List UInt8 := []
  /-- Timer ticks that pass with each read. -/
  tick : Nat := 0
  written : Array UInt8 := #[]

namespace Levers

def settle (l : Levers) : Levers :=
  if !l.lines.pending then l
  else if l.wait = 0 then { l with lines := { l.lines with pending := false } }
  else { l with wait := l.wait - 1 }

def poll (l : Levers) : Poll Levers :=
  match l.script with
  | b :: script => { status := .ofByte b, registers := { l with script }, ticks := l.tick }
  | [] => { status := l.settle.lines, registers := l.settle, ticks := l.tick }

def write (l : Levers) (byte : UInt8) : Levers :=
  { l with
    written := l.written.push byte
    lines := { l.lines with pending := true }
    wait := l.latency }

instance : Registers Levers where
  poll := poll
  write l byte := (l.write byte, [])
  hint := Levers.hint

end Levers
end Floppy.Bench
