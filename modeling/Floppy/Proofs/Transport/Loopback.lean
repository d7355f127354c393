import Floppy.Proofs.Byte
import Floppy.Transport.Link

/-!
# The loopback link keeps every byte

Between the tasks and the peer a byte waits in a message, in the backlog of the link or in a ring. Whatever the two
sides and the link do, and in whatever order, no byte is lost, repeated or overtaken on its way.
-/
namespace Floppy

namespace Rings
variable (rings : Rings) (bytes : List UInt8)

theorem pending_writeStr :
    (rings.writeStr bytes).2.pending = rings.pending ++ bytes.take (rings.writeStr bytes).1 := by
  simp [writeStr, send, List.take_eq_take_min, Nat.min_comm]

theorem pending_writeChar (byte : UInt8) :
    (rings.writeChar byte).2.pending = rings.pending ++ if (rings.writeChar byte).1 then [byte] else [] := by
  cases room : rings.sendRoom <;> simp [writeChar, send, room]

theorem receive_take :
    rings.receive (bytes.take rings.receiveRoom) =
      { rings with received := rings.received ++ bytes.take rings.receiveRoom } := by
  simp [receive]

theorem receive_take_of_room {rings : Rings} {bytes : List UInt8}
    (room : (rings.receive (bytes.take rings.receiveRoom)).receiveRoom ≠ 0) :
    rings.receive (bytes.take rings.receiveRoom) = { rings with received := rings.received ++ bytes } ∧
      (rings.received ++ bytes).length < rings.capacity := by
  rw [receive_take] at room ⊢
  simp only [receiveRoom, List.length_append, List.length_take] at room ⊢
  constructor
  · rw [List.take_of_length_le (by omega)]
  · omega

end Rings

namespace Link

theorem flatten_chunks (bytes : List UInt8) : (chunks bytes).flatten = bytes := by
  fun_induction chunks bytes with
  | case1 => rfl
  | case2 b rest ih => rw [List.flatten_cons, ih, List.take_append_drop]

variable {link : Link} {rings : Rings}

theorem sendPending_eq (alive : link.peerAlive = true) :
    link.sendPending rings =
      (true, { link with outbox := link.outbox ++ chunks rings.pending }, { rings with pending := [] }) := by
  rcases rings with ⟨capacity, received, _ | ⟨b, rest⟩, connected, overruns⟩
  · simp [sendPending, chunks]
  · simp [sendPending, alive]

/-- Filling goes on until the ring is full or nothing is left to fill in, and passes the bytes on in their order. -/
theorem fill_eq (alive : link.peerAlive = true) (bounded : rings.received.length ≤ rings.capacity)
    (backlog : List UInt8) (messages : List (List UInt8)) :
    ∃ received rest unread,
      link.fill backlog messages rings =
        (true, { link with backlog := rest, inbox := unread }, { rings with received }) ∧
      received ++ rest ++ unread.flatten = rings.received ++ backlog ++ messages.flatten ∧
      received.length ≤ rings.capacity ∧ (received.length = rings.capacity ∨ rest = [] ∧ unread = []) := by
  fun_induction fill link backlog messages rings with
  | case1 messages backlog rings next full =>
    rw [show next = _ from rings.receive_take backlog] at full ⊢
    refine ⟨_, _, _, rfl, ?_, ?_, ?_⟩
    · simp
    all_goals
      simp only [Rings.receiveRoom, List.length_append, List.length_take] at full ⊢
      omega
  | case2 backlog rings next room =>
    obtain ⟨all, below⟩ := Rings.receive_take_of_room room
    refine ⟨_, [], [], ?_, ?_, below.le, .inr ⟨rfl, rfl⟩⟩
    · rw [alive, show next = _ from all]
    · simp
  | case3 backlog rings next room message messages ih =>
    obtain ⟨all, below⟩ := Rings.receive_take_of_room room
    rw [show next = _ from all] at ih ⊢
    simpa using ih below.le

theorem pump_eq (alive : link.peerAlive = true) (bounded : rings.received.length ≤ rings.capacity) :
    ∃ received rest unread,
      link.pump rings =
        (true, { link with backlog := rest, inbox := unread, outbox := link.outbox ++ chunks rings.pending },
          { rings with received, pending := [], connected := true }) ∧
      received ++ rest ++ unread.flatten = rings.received ++ link.backlog ++ link.inbox.flatten ∧
      received.length ≤ rings.capacity ∧ (received.length = rings.capacity ∨ rest = [] ∧ unread = []) := by
  obtain ⟨received, rest, unread, filled, same, still, done⟩ :=
    @fill_eq { link with outbox := link.outbox ++ chunks rings.pending }
      { rings with pending := [], connected := true } alive bounded link.backlog link.inbox
  refine ⟨received, rest, unread, ?_, same, still, done⟩
  rw [pump, sendPending_eq alive]
  dsimp only
  rw [filled]

end Link

/-- The rings and the link, with what either side has got and given so far. -/
structure Loopback where
  rings : Rings
  link : Link := {}
  /-- What the tasks have read. -/
  read : List UInt8 := []
  /-- What the tasks have written, as far as they were told that it was accepted. -/
  accepted : List UInt8 := []
  /-- What the peer has sent. -/
  sent : List UInt8 := []
  /-- What the peer has collected. -/
  collected : List UInt8 := []

namespace Loopback
variable {loop : Loopback} {capacity : ℕ}

/-- What the tasks, the link and the peer can do, each at any time. -/
inductive Move where
  | read (limit : ℕ)
  | writeStr (bytes : List UInt8)
  | writeChar (byte : UInt8)
  | pump
  | deliver (message : List UInt8)
  | collect

def step (loop : Loopback) : Move → Loopback
  | .read limit =>
    let (bytes, rings) := loop.rings.read limit
    { loop with rings, read := loop.read ++ bytes }
  | .writeStr bytes =>
    let (count, rings) := loop.rings.writeStr bytes
    { loop with rings, accepted := loop.accepted ++ bytes.take count }
  | .writeChar byte =>
    let (fits, rings) := loop.rings.writeChar byte
    { loop with rings, accepted := loop.accepted ++ if fits then [byte] else [] }
  | .pump =>
    let (_, link, rings) := loop.link.pump loop.rings
    { loop with link, rings }
  | .deliver message => { loop with link := loop.link.deliver message, sent := loop.sent ++ message }
  | .collect =>
    let (message, link) := loop.link.collect
    { loop with link, collected := loop.collected ++ message.getD [] }

def run (loop : Loopback) (moves : List Move) : Loopback := moves.foldl step loop

/-- Nothing was lost, repeated or overtaken so far. -/
structure Intact (capacity : ℕ) (loop : Loopback) : Prop where
  size : loop.rings.capacity = capacity
  inward : loop.read ++ loop.rings.received ++ loop.link.backlog ++ loop.link.inbox.flatten = loop.sent
  outward : loop.collected ++ loop.link.outbox.flatten ++ loop.rings.pending = loop.accepted
  bounded : loop.rings.received.length ≤ loop.rings.capacity
  overruns : loop.rings.overruns = 0
  alive : loop.link.peerAlive = true

theorem Intact.step (h : loop.Intact capacity) (move : Move) : (loop.step move).Intact capacity := by
  obtain ⟨size, inward, outward, bounded, overruns, alive⟩ := h
  cases move with
  | read limit =>
    refine ⟨size, ?_, outward, (List.drop_sublist ..).length_le.trans bounded, overruns, alive⟩
    simp [Loopback.step, Rings.read, ← inward]
  | writeStr bytes =>
    refine ⟨size, inward, ?_, bounded, overruns, alive⟩
    simp [Loopback.step, Rings.pending_writeStr, ← outward]
  | writeChar byte =>
    refine ⟨size, inward, ?_, bounded, overruns, alive⟩
    simp [Loopback.step, Rings.pending_writeChar, ← outward]
  | pump =>
    obtain ⟨received, rest, unread, pumped, same, still, -⟩ := Link.pump_eq alive bounded
    rw [Loopback.step, pumped]
    refine ⟨size, ?_, ?_, still, overruns, alive⟩
    · simpa [← inward] using same
    · simp [Link.flatten_chunks, ← outward]
  | deliver message =>
    refine ⟨size, ?_, outward, bounded, overruns, alive⟩
    simp [Loopback.step, Link.deliver, ← inward]
  | collect =>
    simp only [Loopback.step, Link.collect]
    split
    case h_1 none => exact ⟨size, inward, by simpa using outward, bounded, overruns, alive⟩
    case h_2 message rest more =>
      refine ⟨size, inward, ?_, bounded, overruns, alive⟩
      simpa [more] using outward

theorem Intact.run (h : loop.Intact capacity) (moves : List Move) : (loop.run moves).Intact capacity :=
  List.foldlRecOn moves Loopback.step (motive := Intact capacity) h fun _ intact move _ => intact.step move

/-- Whatever the tasks, the link and the peer have done so far, at rings of any size: all that the peer has sent is on
its way to the tasks, all that the tasks have written is on its way to the peer, each in its order, and nothing was
dropped. From there the link sends all that waits, and brings in all it has unless the ring gets full. -/
theorem bytes_conserved (capacity : ℕ) (moves : List Move) :
    let loop := Loopback.run { rings := { capacity } } moves
    loop.read ++ loop.rings.received ++ loop.link.backlog ++ loop.link.inbox.flatten = loop.sent ∧
    loop.collected ++ loop.link.outbox.flatten ++ loop.rings.pending = loop.accepted ∧
    loop.rings.overruns = 0 ∧
    let (ok, link, rings) := loop.link.pump loop.rings
    ok = true ∧ rings.pending = [] ∧
      (rings.received.length = capacity ∨ link.backlog = [] ∧ link.inbox = []) := by
  intro loop
  have start : Intact capacity { rings := { capacity } } := ⟨rfl, rfl, rfl, Nat.zero_le _, rfl, rfl⟩
  have intact : loop.Intact capacity := start.run moves
  obtain ⟨received, rest, unread, pumped, -, -, done⟩ := Link.pump_eq intact.alive intact.bounded
  refine ⟨intact.inward, intact.outward, intact.overruns, ?_⟩
  rw [intact.size] at done
  rw [pumped]
  exact ⟨rfl, rfl, done⟩

end Loopback
end Floppy
