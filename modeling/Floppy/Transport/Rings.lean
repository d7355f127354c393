import Floppy.Transport.Basic

/-!
# Rings

Two bounded queues between the tasks and the interrupt: one for bytes received, one for bytes to transmit.
-/
namespace Floppy

structure Rings where
  capacity : Nat
  received : List UInt8 := []
  pending : List UInt8 := []
  connected : Bool := false
  /-- Received bytes that did not fit and were dropped. -/
  overruns : Nat := 0
deriving DecidableEq, Repr

namespace Rings

def receiveRoom (r : Rings) : Nat := r.capacity - r.received.length

def sendRoom (r : Rings) : Nat := r.capacity - r.pending.length

def read (r : Rings) (limit : Nat) : List UInt8 × Rings :=
  (r.received.take limit, { r with received := r.received.drop limit })

/-- The tasks queue bytes; what does not fit is left out. -/
def send (r : Rings) (bytes : List UInt8) : Rings :=
  { r with pending := r.pending ++ bytes.take r.sendRoom }

/-- The same, with the number of bytes that were queued. -/
def writeStr (r : Rings) (bytes : List UInt8) : Nat × Rings := (min bytes.length r.sendRoom, r.send bytes)

def writeChar (r : Rings) (byte : UInt8) : Bool × Rings := (0 < r.sendRoom, r.send [byte])

/-- The interrupt delivers bytes; what does not fit is dropped and counted. -/
def receive (r : Rings) (bytes : List UInt8) : Rings :=
  { r with
    received := r.received ++ bytes.take r.receiveRoom
    overruns := r.overruns + (bytes.length - r.receiveRoom) }

/-- The interrupt takes bytes that wait to be transmitted. -/
def transmit (r : Rings) (limit : Nat) : List UInt8 × Rings :=
  (r.pending.take limit, { r with pending := r.pending.drop limit })

instance : Transport Rings where
  connected := Rings.connected
  room := sendRoom
  read := read
  send := send

end Rings
end Floppy
