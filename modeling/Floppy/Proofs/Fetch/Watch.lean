import Floppy.Bench.Pipe
import Floppy.Proofs.Fetch.Core

/-!
# A client with its history

A client is serviced, asked and restarted in any order, and all that it hears is written down with the tag of
the line after each event. What can be read can so be compared with what was announced.
-/
namespace Floppy.Fetch

/-- Something that happened to a client, with the tag of the line right after it: an event of the stream, or
the end of a call. -/
structure Moment where
  event : Option StreamEvent
  tag : Option UInt8 × UInt8

namespace Moment

def payload? (moment : Moment) : Option UInt8 :=
  match moment.event with
  | some (.payload byte) => some byte
  | _ => none

/-- Here a sector begins or ends. -/
def isBoundary (moment : Moment) : Bool :=
  match moment.event with
  | some (.sectorStart ..) | some (.sectorEnd _) | some .transferEnd => true
  | _ => false

end Moment

def payloads (history : List Moment) : List UInt8 := history.filterMap Moment.payload?

theorem payloads_append (a b : List Moment) : payloads (a ++ b) = payloads a ++ payloads b :=
  List.filterMap_append

/-- The sector was announced in the stream with these bytes, and the line has kept its tag since then. -/
def Announced (history : List Moment) (track volume sector : UInt8) (bytes : Sector) : Prop :=
  ∃ before payload after,
    history = before ++ ⟨some (.sectorStart track (sector &&& 0x0F)), (some track, volume)⟩ :: payload ++
      ⟨some (.sectorEnd (Gcr.checksum bytes.toList)), (some track, volume)⟩ :: after ∧
    (payloads payload).take sectorSize = bytes.toList ∧ (∀ m ∈ payload, m.isBoundary = false) ∧
    ∀ m ∈ payload ++ after, m.tag = (some track, volume)

/-- The events of a burst, each with the tag of the line after it. -/
def Desk.moments (desk : Desk) : List StreamEvent → List Moment
  | [] => []
  | event :: rest => ⟨some event, (desk.apply event).line.tag⟩ :: (desk.apply event).moments rest

/-- A call of the client, with the transport as it is at the time. -/
inductive Call where
  | service (pipe : Bench.Pipe)
  | request (pipe : Bench.Pipe) (request : Request) (volume : UInt8)
  | restart

/-- A client with the line and the volume of the external drive, and all that has happened. -/
structure Watch where
  client : Client
  line : TrackLine := {}
  volume : UInt8
  history : List Moment := []

namespace Watch

def start (retryLimit : UInt32) (wholeTrack : Bool) (trace : Trace) (volume : UInt8) : Watch where
  client := { retryLimit, wholeTrack, trace }
  volume

/-- What a service pass hears. -/
def heard (w : Watch) (pipe : Bench.Pipe) : List Moment :=
  if pipe.online then
    let (tokenizer, events) := w.client.tokenizer.feed (pipe.received.take Client.burstSize)
    let desk := w.client.desk w.line w.volume
    let desk := if w.client.state = .disconnected then desk.setState .noDisk else desk
    { desk with client.tokenizer := tokenizer, client.retries := 0 }.moments events
  else []

def step (w : Watch) : Call → Watch
  | .service pipe =>
    let desk := (w.client.service pipe w.line w.volume).1
    { client := desk.client
      line := desk.line
      volume := desk.volume
      history := w.history ++ w.heard pipe ++ [⟨none, desk.line.tag⟩] }
  | .request pipe request volume =>
    let desk := (w.client.request pipe w.line volume request).2.1
    { w with client := desk.client, line := desk.line, history := w.history ++ [⟨none, desk.line.tag⟩] }
  | .restart => { w with client := w.client.restart.1, history := w.history ++ [⟨none, w.line.tag⟩] }

def run (w : Watch) (calls : List Call) : Watch := calls.foldl step w

/-- All that can be read was announced. -/
def Traced (w : Watch) : Prop :=
  ∀ track volume sector bytes, w.line.sector? track volume sector = some bytes →
    Announced w.history track volume sector bytes

/-- A request that finds no room and turns the line to another tag, while a sector for the old one is in
reception. -/
def Uproots (w : Watch) : Call → Prop
  | .request pipe request volume =>
    w.client.state = .inserted ∧ pipe.room < Client.neededRoom request ∧
      w.line.isTagged request.track volume = false ∧
      ∃ a, w.client.assembly = some a ∧ a.discard = false
  | _ => False

end Watch

end Floppy.Fetch
