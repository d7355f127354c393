import Floppy.Bench.Pipe
import Floppy.Proofs.Controller.FirstFrame
import Floppy.Proofs.ImageSource
import Floppy.Proofs.System.Passes

/-!
# A disk system and the source of its disk

The two exchange bytes over a channel. The passes of the system and the moves of the source come in any order,
and the channel delivers in bursts of any size. What is ahead of the client is what it has received and not
read, what is on the channel, and the answers to what the source has not read.
-/
namespace Floppy
open Fetch Bench Controller Gcr

/-- The lines of a poll that selects the external drive and energizes no phase. -/
structure Bench.Lines where
  motor : Bool
  wanted : Bool
  pending : Bool

def Bench.Lines.status (lines : Lines) : Status :=
  { phase := 0, motor := lines.motor, drive := .external, wanted := lines.wanted, pending := lines.pending }

theorem Bench.Lines.ofByte_status (lines : Lines) :
    (Status.ofByte lines.status.toByte).drive = .external ∧
      (Status.ofByte lines.status.toByte).phase = 0 := by
  rcases lines with ⟨_ | _, _ | _, _ | _⟩ <;> decide

/-- What the registers show in one drive pass. -/
structure Bench.Show where
  lines : Lines
  latency : ℕ
  wait : ℕ
  tick : ℕ
  script : List Lines

/-- The registers as they are shown; the bytes that were written and the hint stay. -/
def Bench.Show.on (shown : Show) (l : Levers) : Levers :=
  { l with
    lines := shown.lines.status
    latency := shown.latency
    wait := shown.wait
    tick := shown.tick
    script := shown.script.map (·.status.toByte) }

theorem Bench.Show.still (shown : Show) (l : Levers) : (shown.on l).Still := by
  refine ⟨rfl, rfl, ?_⟩
  intro b mem
  obtain ⟨lines, -, rfl⟩ := List.mem_map.mp mem
  exact lines.ofByte_status

/-- The first read finds a byte wanted and none pending. -/
def Bench.Show.asks (shown : Show) : Bool :=
  match shown.script with
  | first :: _ => first.wanted && !first.pending
  | [] => shown.lines.wanted && !(shown.lines.pending && shown.wait ≠ 0)

theorem Bench.Lines.ofByte_toByte (lines : Lines) :
    (Status.ofByte lines.status.toByte).wanted = lines.wanted ∧
      (Status.ofByte lines.status.toByte).pending = lines.pending := by
  rcases lines with ⟨_ | _, _ | _, _ | _⟩ <;> decide

theorem Bench.Show.poll_of_asks {shown : Show} (free : shown.asks = true) (l : Levers) :
    (Registers.poll (shown.on l)).status.wanted = true ∧ (Registers.poll (shown.on l)).status.pending = false := by
  rcases shown with ⟨lines, latency, wait, tick, _ | ⟨first, script⟩⟩
  · change (Levers.poll _).status.wanted = true ∧ (Levers.poll _).status.pending = false
    rcases lines with ⟨motor, wanted, _ | _⟩ <;>
      simp_all [Show.asks, on, Levers.poll, Levers.settle, Lines.status]
  · obtain ⟨wanted, pending⟩ := first.ofByte_toByte
    simp only [Show.asks, Bool.and_eq_true, Bool.not_eq_true'] at free
    exact ⟨wanted.trans free.1, pending.trans free.2⟩

/-- A disk system and a source with a channel between them. -/
structure FillLoop (δ : Type) where
  system : DiskSystem Levers Pipe δ
  source : ImageSource
  /-- How many of the bytes that the system has sent were read by the source. -/
  read : ℕ := 0
  /-- What the source has answered and was not delivered yet. -/
  channel : List UInt8 := []
  /-- Fetch passes in a row in which an answer was awaited and nothing came. -/
  idle : ℕ := 0

namespace FillLoop
variable {δ : Type}

/-- What happens next: a drive pass with six or more bytes of transmit room, a fetch pass, the source reading
at most so many bytes, or the channel delivering at most so many. -/
inductive Move where
  | drive (shown : Show) (spare : ℕ)
  | fetch
  | answer (count : ℕ)
  | deliver (count : ℕ)

/-- A drive pass in which a byte is wanted and none is pending. -/
def Move.demands : Move → Bool
  | .drive shown _ => shown.asks
  | _ => false

/-- The bytes of all that is answered to a text. -/
def replies (source : ImageSource) (text : List UInt8) : List UInt8 :=
  (source.feed text).1.flatten.flatMap Message.encode

def facing (loop : FillLoop δ) (shown : Show) (spare : ℕ) : DiskSystem Levers Pipe δ :=
  { loop.system with
    registers := shown.on loop.system.registers
    transport := { loop.system.transport with room := 6 + spare } }

/-- What the source has to read. -/
def unread (loop : FillLoop δ) : List UInt8 := loop.system.transport.sent.drop loop.read

def step (loop : FillLoop δ) : Move → FillLoop δ
  | .drive shown spare => { loop with system := (loop.facing shown spare).drivePass.2.context }
  | .fetch =>
    { loop with
      system := loop.system.fetchPass.2.context
      idle := if loop.system.client.state = .reading ∧ loop.system.transport.received = [] then loop.idle + 1
        else 0 }
  | .answer count =>
    { loop with
      source := (loop.source.feed (loop.unread.take count)).2.1
      read := loop.read + (loop.unread.take count).length
      channel := loop.channel ++ replies loop.source (loop.unread.take count) }
  | .deliver count =>
    { loop with
      system := { loop.system with transport := loop.system.transport.push (loop.channel.take count) }
      channel := loop.channel.drop count }

def run (loop : FillLoop δ) (moves : List Move) : FillLoop δ := moves.foldl step loop

/-- All that was sent. -/
def wire (loop : FillLoop δ) : List UInt8 := loop.system.transport.sent

/-- All bytes that the controller has written. -/
def written (loop : FillLoop δ) : List UInt8 := loop.system.registers.written.toList

/-- A disk was just inserted, nothing of the track under the arm is cached, and no byte was wanted yet. -/
structure Fresh (volume : UInt8) (position : Position) (loop : FillLoop δ) : Prop where
  online : loop.system.transport.online = true
  inserted : loop.system.client.state = .inserted
  disk : loop.system.controller.drives.external.volume = volume
  arm : 0 ≤ loop.system.controller.drives.external.halfTrack ∧
    loop.system.controller.drives.external.halfTrack ≤ maxHalfTrack
  track : loop.system.controller.drives.external.track = position.track
  hint : loop.system.registers.hint = some position
  sector : position.sector < 16
  uncached : ∀ sector, loop.system.cache.external.sector? position.track volume sector = none
  elsewhere : loop.system.controller.head.slot ≠ some .external
  unwritten : loop.system.registers.written = #[]
  unsent : loop.wire = []
  unread : loop.read = 0
  source : loop.source.line = []
  /-- What may still come of the announcement of the disk means nothing. -/
  blank : loop.system.client.tokenizer.feed (loop.system.transport.received ++ loop.channel) = ({}, [])

/-- No more fetch passes in a row find nothing than the client puts up with. -/
def Patient (loop : FillLoop δ) (moves : List Move) : Prop :=
  ∀ before, before <+: moves → (loop.run before).idle ≤ loop.system.client.retryLimit.toNat

/-- Something was asked for, and the answer has come in full. -/
structure Answered (loop : FillLoop δ) : Prop where
  asked : loop.wire ≠ []
  read : loop.read = loop.wire.length
  channel : loop.channel = []
  received : loop.system.transport.received = []

/-- Some fillers and then a frame, as far as it has come; behind the frame anything. -/
def Opens (fillers : ℕ) (frame written : List UInt8) : Prop :=
  written <+: List.replicate fillers syncByte ++ frame ∨ List.replicate fillers syncByte ++ frame <+: written

/-- What is ahead of the client. -/
def ahead (loop : FillLoop δ) : List UInt8 :=
  loop.system.transport.received ++ loop.channel ++ replies loop.source loop.unread

theorem ahead_answer (loop : FillLoop δ) (count : ℕ) : (loop.step (.answer count)).ahead = loop.ahead := by
  have rest : (loop.step (.answer count)).unread = loop.unread.drop count := by
    simp only [unread, step, List.length_take, List.length_drop, List.drop_drop]
    rcases Nat.le_total count (loop.system.transport.sent.length - loop.read) with fits | past
    · rw [Nat.min_eq_left fits]
    · rw [Nat.min_eq_right past, List.drop_eq_nil_of_le (by omega), List.drop_eq_nil_of_le (by omega)]
  have split : replies loop.source loop.unread =
      replies loop.source (loop.unread.take count) ++
        replies (loop.source.feed (loop.unread.take count)).2.1 (loop.unread.drop count) := by
    have both := (loop.source.feed_append (loop.unread.take count) (loop.unread.drop count)).1
    rw [List.take_append_drop] at both
    rw [replies, both, List.flatten_append, List.flatMap_append]
    rfl
  rw [ahead, ahead, rest, split]
  simp [step]

theorem ahead_deliver (loop : FillLoop δ) (count : ℕ) : (loop.step (.deliver count)).ahead = loop.ahead := by
  have kept : (loop.step (.deliver count)).unread = loop.unread := rfl
  rw [ahead, ahead, kept]
  simp [step, Pipe.push]

def poll (loop : FillLoop δ) (shown : Show) (spare : ℕ) : Run Levers :=
  (loop.facing shown spare).controller.pollOnce (loop.facing shown spare).registers
    (loop.facing shown spare).cache

theorem controller_drive (loop : FillLoop δ) (shown : Show) (spare : ℕ) :
    (loop.step (.drive shown spare)).system.controller = (loop.poll shown spare).controller :=
  (loop.facing shown spare).controller_drivePass.1

theorem registers_drive (loop : FillLoop δ) (shown : Show) (spare : ℕ) :
    (loop.step (.drive shown spare)).system.registers = (loop.poll shown spare).registers :=
  (loop.facing shown spare).controller_drivePass.2

theorem wire_drive (loop : FillLoop δ) (shown : Show) (spare : ℕ) :
    loop.wire <+: (loop.step (.drive shown spare)).wire := by
  obtain ⟨loader, same⟩ := (loop.facing shown spare).drivePass_eq
    ((loop.poll shown spare).fills.foldl FillQueue.request .empty) rfl
  change loop.wire <+: (loop.facing shown spare).drivePass.2.context.transport.sent
  rw [same]
  cases ((loop.poll shown spare).fills.foldl FillQueue.request .empty).external with
  | none => exact List.prefix_refl _
  | some target =>
    have sent := DiskSystem.transport_requestExternal (loop.facing shown spare).polled target
    rw [sent]
    split
    case isTrue => exact List.prefix_append _ _
    case isFalse => exact List.prefix_refl _

theorem written_drive (loop : FillLoop δ) (shown : Show) (spare : ℕ) :
    loop.written <+: (loop.step (.drive shown spare)).written := by
  rw [written, written, registers_drive]
  exact (loop.facing shown spare).controller.written_pollOnce (loop.facing shown spare).registers
    (loop.facing shown spare).cache

theorem length_written_drive (loop : FillLoop δ) {shown : Show} (asks : shown.asks = true) (spare : ℕ) :
    loop.written.length < (loop.step (.drive shown spare)).written.length := by
  obtain ⟨wanted, free⟩ := shown.poll_of_asks asks loop.system.registers
  rw [written, written, registers_drive]
  exact length_written_pollOnce (loop.facing shown spare).cache wanted free

def burst (loop : FillLoop δ) : List UInt8 := loop.system.transport.received.take Client.burstSize

theorem burst_append (loop : FillLoop δ) :
    loop.burst ++ loop.system.transport.received.drop Client.burstSize = loop.system.transport.received :=
  List.take_append_drop _ _

theorem transport_served {loop : FillLoop δ} (online : loop.system.transport.online = true) :
    loop.system.served.2 =
      { loop.system.transport with received := loop.system.transport.received.drop Client.burstSize } :=
  Client.transport_service _ _ _ _ online

theorem core_served {loop : FillLoop δ} (online : loop.system.transport.online = true)
    (awake : loop.system.client.state ≠ .disconnected) :
    loop.system.served.1.core =
      if loop.system.transport.received = [] then loop.system.core.wait
      else loop.system.core.take loop.burst := by
  have woken : loop.system.core.wake = loop.system.core := Core.wake_of_ne awake
  split
  case isTrue nothing =>
    have none : (Transport.read loop.system.transport Client.burstSize).1 = [] := by
      change loop.system.transport.received.take _ = []
      rw [nothing, List.take_nil]
    rw [DiskSystem.core_served_nil online none, woken]
  case isFalse something =>
    have some : (Transport.read loop.system.transport Client.burstSize).1 ≠ [] := by
      change loop.system.transport.received.take _ ≠ []
      simp [Client.burstSize, something]
    rw [DiskSystem.core_served_cons online some, woken]
    rfl

theorem wire_fetch (loop : FillLoop δ) : (loop.step .fetch).wire = loop.wire := by
  change (loop.system.served.2).sent = loop.wire
  rcases online : loop.system.transport.online with _ | _
  · exact congrArg Pipe.sent (Client.transport_service_offline _ _ _ _ online)
  · rw [transport_served online]
    rfl

theorem run_append (loop : FillLoop δ) (before after : List Move) :
    loop.run (before ++ after) = (loop.run before).run after := List.foldl_append

/-- What was written stays, and a move that wants a byte writes one. -/
theorem written_step (loop : FillLoop δ) (move : Move) :
    loop.written <+: (loop.step move).written ∧
      (move.demands = true → loop.written.length < (loop.step move).written.length) := by
  cases move with
  | drive shown spare => exact ⟨loop.written_drive shown spare, fun asks => loop.length_written_drive asks spare⟩
  | fetch | answer | deliver => exact ⟨List.prefix_refl _, fun demands => absurd demands (by simp [Move.demands])⟩

theorem written_run (loop : FillLoop δ) (moves : List Move) :
    loop.written <+: (loop.run moves).written ∧
      loop.written.length + moves.countP Move.demands ≤ (loop.run moves).written.length := by
  induction moves generalizing loop with
  | nil => exact ⟨List.prefix_refl _, le_rfl⟩
  | cons move rest ih =>
    obtain ⟨first, grown⟩ := loop.written_step move
    obtain ⟨kept, more⟩ := ih (loop.step move)
    refine ⟨first.trans kept, ?_⟩
    rw [List.countP_cons]
    split
    case isTrue demands =>
      have longer := grown demands
      exact le_trans (by omega) more
    case isFalse => exact (Nat.add_le_add_right first.length_le _).trans more

theorem transport_fetch {loop : FillLoop δ} (online : loop.system.transport.online = true) :
    (loop.step .fetch).system.transport =
      { loop.system.transport with received := loop.system.transport.received.drop Client.burstSize } :=
  transport_served online

theorem transport_fetches {loop : FillLoop δ} (online : loop.system.transport.online = true) (fetches : ℕ) :
    (loop.run (List.replicate fetches .fetch)).system.transport =
        { loop.system.transport with
          received := loop.system.transport.received.drop (fetches * Client.burstSize) } ∧
      (loop.run (List.replicate fetches .fetch)).channel = loop.channel ∧
      (loop.run (List.replicate fetches .fetch)).read = loop.read := by
  induction fetches generalizing loop with
  | zero => simp [run]
  | succ fetches ih =>
    have first := transport_fetch online
    obtain ⟨transport, channel, read⟩ := @ih (loop.step .fetch) (by rw [first, online])
    refine ⟨transport.trans ?_, channel, read⟩
    rw [first, List.drop_drop, Nat.succ_mul, Nat.add_comm]

/-- The source reads all that was asked for, the channel delivers all that was answered, and the fetch passes take it:
so the answer comes in full. -/
theorem answered_of_moves {loop : FillLoop δ} (online : loop.system.transport.online = true) (asked : loop.wire ≠ [])
    (read : loop.read ≤ loop.wire.length) {reads size fetches : ℕ} (heard : loop.unread.length ≤ reads)
    (delivered : loop.ahead.length ≤ size) (taken : loop.ahead.length ≤ fetches * Client.burstSize) :
    (loop.run (.answer reads :: .deliver size :: List.replicate fetches .fetch)).Answered := by
  let next := (loop.step (.answer reads)).step (.deliver size)
  have all : loop.unread.take reads = loop.unread := List.take_of_length_le heard
  have unread : loop.unread.length = loop.wire.length - loop.read := List.length_drop
  have ahead : loop.ahead = loop.system.transport.received ++ (loop.step (.answer reads)).channel := by
    simp only [FillLoop.ahead, step, all, List.append_assoc]
  rw [ahead, List.length_append] at delivered taken
  have whole : (loop.step (.answer reads)).channel.take size = (loop.step (.answer reads)).channel :=
    List.take_of_length_le ((Nat.le_add_left _ _).trans delivered)
  have received : next.system.transport.received =
      loop.system.transport.received ++ (loop.step (.answer reads)).channel :=
    congrArg (loop.system.transport.received ++ ·) whole
  obtain ⟨transport, channel, position⟩ := @transport_fetches _ next online fetches
  have sent : (next.run (List.replicate fetches .fetch)).wire = loop.wire :=
    (congrArg Pipe.sent transport).trans rfl
  refine ⟨sent ▸ asked, ?_, ?_, ?_⟩
  · change (next.run (List.replicate fetches .fetch)).read = (next.run (List.replicate fetches .fetch)).wire.length
    rw [position, sent]
    change loop.read + (loop.unread.take reads).length = loop.wire.length
    rw [all]
    omega
  · refine channel.trans (List.drop_eq_nil_of_le ((Nat.le_add_left _ _).trans delivered))
  · refine (congrArg Pipe.received transport).trans (List.drop_eq_nil_of_le ?_)
    rw [received, List.length_append]
    exact taken

theorem run_induction {P : FillLoop δ → Prop} {limit : ℕ} {loop : FillLoop δ}
    (step : ∀ loop move, P loop → (loop.step move).idle ≤ limit → P (loop.step move)) (start : P loop)
    (moves : List Move) (patient : ∀ before, before <+: moves → (loop.run before).idle ≤ limit) :
    P (loop.run moves) := by
  induction moves generalizing loop with
  | nil => exact start
  | cons move rest ih =>
    refine ih (step loop move start (patient [move] (by simp))) fun before short => ?_
    exact patient (move :: before) (List.cons_prefix_cons.mpr ⟨rfl, short⟩)

theorem idle_run_le (loop : FillLoop δ) (moves : List Move) :
    (loop.run moves).idle ≤ loop.idle + moves.length := by
  induction moves generalizing loop with
  | nil => exact le_rfl
  | cons move rest ih =>
    have once : (loop.step move).idle ≤ loop.idle + 1 := by
      cases move with
      | fetch =>
        simp only [step]
        split <;> omega
      | drive shown spare => exact Nat.le_succ _
      | answer count => exact Nat.le_succ _
      | deliver count => exact Nat.le_succ _
    have more := ih (loop.step move)
    rw [List.length_cons]
    exact more.trans (by omega)

theorem patient_of_length {loop : FillLoop δ} {moves : List Move} (start : loop.idle = 0)
    (short : moves.length ≤ loop.system.client.retryLimit.toNat) : loop.Patient moves := by
  intro before early
  have some := loop.idle_run_le before
  have fewer := early.length_le
  omega

end FillLoop
end Floppy
