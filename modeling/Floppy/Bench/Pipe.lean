import Floppy.Transport.Basic

/-!
# An unbounded transport

Takes whatever is sent; the room that it reports and the connection are set from outside.
-/
namespace Floppy.Bench

structure Pipe where
  received : List UInt8 := []
  sent : List UInt8 := []
  room : Nat := 64
  online : Bool := true

namespace Pipe

def push (pipe : Pipe) (bytes : List UInt8) : Pipe := { pipe with received := pipe.received ++ bytes }

instance : Transport Pipe where
  connected := online
  room := room
  read p limit := (p.received.take limit, { p with received := p.received.drop limit })
  send p bytes := { p with sent := p.sent ++ bytes }

end Pipe
end Floppy.Bench
