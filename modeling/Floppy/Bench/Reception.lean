import Floppy.Bench.Pipe
import Floppy.Fetch.Client

/-!
# A fetch client at a pipe

The client with its transport, the track lines and the volume of the external drive. The outcomes and the log
of its operations are collected.
-/
namespace Floppy.Bench
open Fetch

structure Reception where
  client : Client
  volume : UInt8
  pipe : Pipe := {}
  cache : TrackCache := .empty
  outcomes : Array Outcome := #[]
  log : Array LogEntry := #[]

namespace Reception

def update (r : Reception) (desk : Desk) (pipe : Pipe) : Reception :=
  { r with
    client := desk.client
    volume := desk.volume
    pipe
    cache := { r.cache with external := desk.line }
    log := r.log ++ desk.log }

def service (r : Reception) : Reception :=
  let (desk, pipe) := r.client.service r.pipe r.cache.external r.volume
  { r.update desk pipe with outcomes := r.outcomes.push desk.outcome }

def drain : (fuel : Nat) → Reception → Reception
  | 0, r => r
  | fuel + 1, r => if r.pipe.received = [] || !r.pipe.online then r else drain fuel r.service

def receive (r : Reception) (bytes : List UInt8) : Reception :=
  let r := { r with pipe := r.pipe.push bytes }
  r.drain r.pipe.received.length

def request (r : Reception) (volume : UInt8) (request : Request) : Bool × Reception :=
  let (sent, desk, pipe) := r.client.request r.pipe r.cache.external volume request
  (sent, r.update { desk with volume := r.volume } pipe)

end Reception
end Floppy.Bench
