import Floppy.Cache
import Floppy.Fetch.Message
import Floppy.Fetch.Request
import Floppy.History
import Floppy.Trace
import Floppy.Transport.Basic

/-!
# The fetch client

Asks the source of the external disk for sectors and puts what it answers into the track line of the
external drive. A sector can be read from the line only after its checksum was found right.
-/
namespace Floppy.Fetch

inductive DiskState where
  | disconnected
  | noDisk
  /-- A disk is present and no transfer is under way. -/
  | inserted
  | seeking
  | reading
  | writing
deriving DecidableEq, Repr

def DiskState.name : DiskState → String
  | disconnected => "Disconnected"
  | noDisk => "NoDisk"
  | inserted => "Inserted"
  | seeking => "Seeking"
  | reading => "Reading"
  | writing => "Writing"

structure FetchStats where
  requests : Nat := 0
  bytesReceived : Nat := 0
  sectorsCommitted : Nat := 0
  sectorsDiscarded : Nat := 0
  checksumFailures : Nat := 0
  framingErrors : Nat := 0
  timeouts : Nat := 0
  crcMismatches : Nat := 0
  tracksValidated : Nat := 0
deriving DecidableEq, Repr

def FetchStats.text (s : FetchStats) : String :=
  "req:" ++ toString s.requests ++ " rx:" ++ toString s.bytesReceived ++ " ok:" ++
    toString s.sectorsCommitted ++ " drop:" ++ toString s.sectorsDiscarded ++ " cs:" ++
    toString s.checksumFailures ++ " fr:" ++ toString s.framingErrors ++ " to:" ++ toString s.timeouts ++
    " crc:" ++ toString s.crcMismatches ++ " val:" ++ toString s.tracksValidated

/-- A sector that is being received. -/
structure Assembly where
  track : UInt8
  sector : UInt8
  /-- At most a sector's worth of bytes. -/
  bytes : Array UInt8 := #[]
  /-- The line holds another track by now; the sector is read and dropped. -/
  discard : Bool

/-- What the rest of the system has to know after bytes were received. -/
structure Outcome where
  /-- A disk was inserted, so the head has to start over. -/
  inserted : Bool := false
  validatedTrack : Option UInt8 := none
deriving DecidableEq, Repr

structure Client where
  state : DiskState := .disconnected
  tokenizer : Tokenizer := {}
  assembly : Option Assembly := none
  /-- Passes in a row without an answer. -/
  retries : UInt32 := 0
  retryLimit : UInt32 := 1000
  wholeTrack : Bool := false
  stats : FetchStats := {}
  events : History String := { capacity := 32 }
  trace : Trace := {}

/-- The client with all that an event of the stream can change. -/
structure Desk where
  client : Client
  /-- The track line of the external drive. -/
  line : TrackLine
  /-- The volume of the external drive. -/
  volume : UInt8
  outcome : Outcome := {}
  log : Log := []

namespace Desk

def say (desk : Desk) (level : Level) (text : String) : Desk :=
  { desk with log := desk.log ++ [⟨level, text⟩] }

def note (desk : Desk) (text : String) : Desk :=
  let desk := desk.say .trace ("Fetch: " ++ text)
  { desk with client.events := desk.client.events.push text }

def setState (desk : Desk) (state : DiskState) : Desk :=
  if desk.client.state = state then desk
  else
    let desk := desk.say .debug ("External disk: " ++ desk.client.state.name ++ " -> " ++ state.name)
    { desk with client.state := state }

def dropTransfer (desk : Desk) : Desk :=
  { desk with client.assembly := none, client.tokenizer := {}, client.retries := 0 }

def count (stats : FetchStats) : FetchError → FetchStats
  | .sectorChecksum .. => { stats with checksumFailures := stats.checksumFailures + 1 }
  | .trackCrc .. => { stats with crcMismatches := stats.crcMismatches + 1 }
  | .timeout _ => { stats with timeouts := stats.timeouts + 1 }
  | _ => { stats with framingErrors := stats.framingErrors + 1 }

def fault (desk : Desk) (error : FetchError) : Desk :=
  let desk := { desk with client.stats := count desk.client.stats error }
  (desk.say .warn ("Fetch: " ++ error.message)).note error.message

def sectorStart (desk : Desk) (track sector : UInt8) : Desk :=
  let desk := match desk.client.assembly with
    | some a =>
      if a.discard then desk
      else desk.say .debug ("Fetch: sector [t:" ++ toString a.track.toNat ++ " s:" ++
        toString a.sector.toNat ++ "] abandoned after " ++ toString a.bytes.size ++ " bytes")
    | none => desk
  let discard := desk.line.track != some track
  let desk := if discard then
      let stats := desk.client.stats
      { desk with client.stats := { stats with sectorsDiscarded := stats.sectorsDiscarded + 1 } }.note
        ("discard #" ++ Text.hexLower 2 track.toNat ++ Text.hexLower 1 sector.toNat)
    else desk
  { desk with client.assembly := some { track, sector, discard } }

def payload (desk : Desk) (byte : UInt8) : Desk :=
  match desk.client.assembly with
  | none => desk.fault .orphan
  | some a =>
    if a.bytes.size < sectorSize then
      { desk with client.assembly := some { a with bytes := a.bytes.push byte } }
    else desk.fault .overflow

/-- A sector is taken over if it is whole and its checksum is right. -/
def sectorEnd (desk : Desk) (checksum : UInt8) : Desk :=
  match desk.client.assembly with
  | none => desk.fault .orphan
  | some a =>
    let desk := { desk with client.assembly := none }
    if a.discard then desk
    else if h : a.bytes.size = sectorSize then
      let actual := Gcr.checksum a.bytes.toList
      if actual = checksum then
        let stats := desk.client.stats
        let desk := { desk with
          line := desk.line.commit a.sector ⟨a.bytes, h⟩
          client.stats := { stats with sectorsCommitted := stats.sectorsCommitted + 1 } }
        if desk.line.isComplete then desk.note ("track " ++ toString a.track.toNat ++ " cached") else desk
      else
        (desk.say .trace ("Fetch: rejected sector starts " ++
          Ascii.text (Hex.dump (a.bytes.toList.take 16)))).fault
          (.sectorChecksum a.track a.sector checksum actual)
    else desk.fault (.shortSector a.track a.sector a.bytes.size)

def transferEnd (desk : Desk) : Desk :=
  let desk := { desk with client.assembly := none, client.retries := 0 }
  if desk.client.state = .reading then desk.setState .inserted else desk

/-- The CRC of a complete line is compared with the one of the source. -/
def trackCrc (desk : Desk) (crc : UInt32) : Desk :=
  let desk := { desk with line := desk.line.setLastCrc crc }
  if desk.line.isComplete then
    let actual := desk.line.crc
    let track := desk.line.track.getD 0
    if actual = crc then
      let stats := desk.client.stats
      let desk := { desk with
        line := desk.line.validate crc
        client.stats := { stats with tracksValidated := stats.tracksValidated + 1 } }.note
          ("track " ++ toString track.toNat ++ " validated " ++ Text.hexLower 8 crc.toNat)
      { desk with outcome.validatedTrack := some track }
    else desk.fault (.trackCrc track crc actual)
  else desk

/-- A volume that is announced outside a transfer means that a disk was inserted. -/
def announce (desk : Desk) (volume : UInt8) : Desk :=
  let desk := { desk with volume }
  if desk.client.state = .reading then desk
  else
    let desk := (desk.note ("inserted volume " ++ toString volume.toNat)).say .info
      ("External disk inserted, volume " ++ toString volume.toNat)
    let desk := { desk with line := desk.line.flush }.dropTransfer.setState .inserted
    { desk with outcome.inserted := true }

def apply (desk : Desk) : StreamEvent → Desk
  | .sectorStart track sector => desk.sectorStart track sector
  | .payload byte => desk.payload byte
  | .sectorEnd checksum => desk.sectorEnd checksum
  | .transferEnd => desk.transferEnd
  | .trackCrc crc => desk.trackCrc crc
  | .volume volume => desk.announce volume
  | .error cause => desk.fault cause

/-- A burst is cut into tokens as a whole before the first event is applied. -/
def take (desk : Desk) (burst : List UInt8) : Desk :=
  let stats := desk.client.stats
  let (tokenizer, events) := desk.client.tokenizer.feed burst
  let desk := { desk with
    client.retries := 0
    client.stats := { stats with bytesReceived := stats.bytesReceived + burst.length }
    client.trace := desk.client.trace.bytes "< " burst
    client.tokenizer := tokenizer }
  events.foldl apply desk

/-- A pass in which nothing came. During a transfer there may only be so many in a row. -/
def wait (desk : Desk) : Desk :=
  if desk.client.state = .reading then
    let desk := { desk with client.retries := desk.client.retries + 1 }
    if desk.client.retryLimit < desk.client.retries then
      (desk.fault (.timeout desk.client.retries.toNat)).dropTransfer.setState .inserted
    else desk
  else desk

def disconnect (desk : Desk) : Desk :=
  if desk.client.state = .disconnected then desk
  else
    let desk := (desk.note "disconnected").dropTransfer
    { desk with line := desk.line.flush }.setState .disconnected

end Desk

namespace Client

/-- At most this many bytes are taken in one pass. -/
def burstSize : Nat := 256

/-- One pass: takes what has come and applies it. -/
def service {τ : Type} [Transport τ] (client : Client) (transport : τ) (line : TrackLine)
    (volume : UInt8) : Desk × τ :=
  let desk : Desk := { client, line, volume }
  if !Transport.connected transport then (desk.disconnect, transport)
  else
    let desk := if client.state = .disconnected then desk.setState .noDisk else desk
    match Transport.read transport burstSize with
    | ([], transport) => (desk.wait, transport)
    | (burst, transport) => (desk.take burst, transport)

/-- The transmit room that a request has to find: its bytes and one more. -/
def neededRoom (request : Request) : Nat := request.encode.length + 1

/-- Whether a request for a sector goes out for it alone or for its track. -/
def requestFor (client : Client) (track sector : UInt8) : Request :=
  ⟨track, if client.wholeTrack then none else some sector⟩

/-- Asks the source, unless a transfer is under way or there is no room; the line is pointed at the
track all the same when there is no room. The flag says whether the request went out. -/
def request {τ : Type} [Transport τ] (client : Client) (transport : τ) (line : TrackLine)
    (volume : UInt8) (request : Request) : Bool × Desk × τ :=
  let desk : Desk := { client, line, volume }
  if client.state ≠ .inserted then (false, desk, transport)
  else
    let desk := { desk with
      line := line.retag request.track volume
      log := line.retagLog .external request.track volume }
    if Transport.room transport < neededRoom request then (false, desk, transport)
    else
      let transport := Transport.send transport request.encode
      let desk := { desk with client.trace := desk.client.trace.bytes "> " request.encode }.note
        ("request " ++ Ascii.text request.encode.dropLast)
      let stats := desk.client.stats
      let desk := { desk with
        client.stats := { stats with requests := stats.requests + 1 }
        client.assembly := none
        client.retries := 0 }
      (true, desk.setState .reading, transport)

/-- Abandons a transfer, as after a reboot. A disk stays inserted, as the source announces it only once. -/
def restart (client : Client) : Client × Log :=
  let desk : Desk := { client, line := {}, volume := 0 }
  let desk := desk.dropTransfer
  let desk := match desk.client.state with
    | .seeking | .reading | .writing => desk.setState .inserted
    | _ => desk
  (desk.client, desk.log)

end Client
end Floppy.Fetch
