import Floppy.Transport.Rings

/-!
# The loopback link

Carries the bytes of the rings to a peer and back as messages over two unbounded queues.
-/
namespace Floppy

structure Link where
  /-- The part of a message that did not fit into the ring yet. -/
  backlog : List UInt8 := []
  /-- Messages of the peer, oldest first. -/
  inbox : List (List UInt8) := []
  /-- Messages for the peer, oldest first. -/
  outbox : List (List UInt8) := []
  peerAlive : Bool := true
deriving DecidableEq, Repr

namespace Link

def chunkSize : Nat := 64

def chunks : List UInt8 → List (List UInt8)
  | [] => []
  | b :: rest => (b :: rest).take chunkSize :: chunks ((b :: rest).drop chunkSize)
termination_by bytes => bytes.length
decreasing_by simp only [List.length_drop, List.length_cons, chunkSize]; omega

/-- Sends all that waits, in chunks. Without a peer the first chunk is lost and the rest stays. -/
def sendPending (link : Link) (rings : Rings) : Bool × Link × Rings :=
  match rings.pending with
  | [] => (true, link, rings)
  | b :: rest =>
    if link.peerAlive then
      (true, { link with outbox := link.outbox ++ chunks (b :: rest) },
        { rings with pending := [] })
    else (false, link, (rings.transmit chunkSize).2)

/-- Fills the receive ring from the backlog and then from the messages, for as long as it has room.
Fails if more is wanted of a peer that is gone. -/
def fill (link : Link) (backlog : List UInt8) (messages : List (List UInt8)) (rings : Rings) :
    Bool × Link × Rings :=
  let next := rings.receive (backlog.take rings.receiveRoom)
  if next.receiveRoom = 0 then
    (true, { link with backlog := backlog.drop rings.receiveRoom, inbox := messages }, next)
  else
    match messages with
    | [] => (link.peerAlive, { link with backlog := [], inbox := [] }, next)
    | message :: rest => link.fill message rest next

/-- Exchanges bytes with the peer. A failure leaves the transport disconnected. -/
def pump (link : Link) (rings : Rings) : Bool × Link × Rings :=
  let rings := { rings with connected := true }
  match link.sendPending rings with
  | (false, link, rings) => (false, link, { rings with connected := false })
  | (true, link, rings) =>
    match link.fill link.backlog link.inbox rings with
    | (true, link, rings) => (true, link, rings)
    | (false, link, rings) => (false, link, { rings with connected := false })

def deliver (link : Link) (message : List UInt8) : Link := { link with inbox := link.inbox ++ [message] }

def collect (link : Link) : Option (List UInt8) × Link :=
  match link.outbox with
  | [] => (none, link)
  | message :: rest => (some message, { link with outbox := rest })

def collectAll (link : Link) : List (List UInt8) × Link := (link.outbox, { link with outbox := [] })

def hangUp (link : Link) : Link := { link with peerAlive := false, outbox := [] }

def name : String := "loopback"

def hungUp : String := "Link peer hung up"

end Link
end Floppy
