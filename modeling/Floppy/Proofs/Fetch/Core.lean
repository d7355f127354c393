import Floppy.Fetch.Client
import Floppy.Proofs.Cache

/-!
# The core of a fetch client

What a client does to the track line depends on a small part of it. The counters, the event history, the
trace and the log are records: an operation writes them and none reads them. `Core` is the rest, and each
operation on a desk acts on its core alone.
-/
namespace Floppy.Fetch

/-- A desk without its records. -/
structure Core where
  state : DiskState
  tokenizer : Tokenizer
  assembly : Option Assembly
  retries : UInt32
  retryLimit : UInt32
  wholeTrack : Bool
  line : TrackLine
  volume : UInt8
  /-- A disk was inserted in this pass. -/
  inserted : Bool

namespace Desk

def core (desk : Desk) : Core where
  state := desk.client.state
  tokenizer := desk.client.tokenizer
  assembly := desk.client.assembly
  retries := desk.client.retries
  retryLimit := desk.client.retryLimit
  wholeTrack := desk.client.wholeTrack
  line := desk.line
  volume := desk.volume
  inserted := desk.outcome.inserted

@[simp] theorem core_fault (desk : Desk) (error : FetchError) : (desk.fault error).core = desk.core := rfl

@[simp] theorem core_setState (desk : Desk) (state : DiskState) :
    (desk.setState state).core = { desk.core with state } := by
  unfold setState
  split
  case isTrue h => subst h; rfl
  case isFalse => rfl

theorem core_inserted (desk : Desk) (inserted : Bool) :
    ({ desk with outcome.inserted := inserted } : Desk).core = { desk.core with inserted } := rfl

end Desk

namespace Core

def dropTransfer (core : Core) : Core := { core with assembly := none, tokenizer := {}, retries := 0 }

def sectorStart (core : Core) (track sector : UInt8) : Core :=
  { core with assembly := some { track, sector, discard := core.line.track != some track } }

def payload (core : Core) (byte : UInt8) : Core :=
  match core.assembly with
  | none => core
  | some a =>
    if a.bytes.size < sectorSize then { core with assembly := some { a with bytes := a.bytes.push byte } }
    else core

def sectorEnd (core : Core) (checksum : UInt8) : Core :=
  match core.assembly with
  | none => core
  | some a =>
    if a.discard then { core with assembly := none }
    else if h : a.bytes.size = sectorSize then
      if Gcr.checksum a.bytes.toList = checksum then
        { core with assembly := none, line := core.line.commit a.sector ⟨a.bytes, h⟩ }
      else { core with assembly := none }
    else { core with assembly := none }

def transferEnd (core : Core) : Core :=
  { core with
    assembly := none
    retries := 0
    state := if core.state = .reading then .inserted else core.state }

def trackCrc (core : Core) (crc : UInt32) : Core :=
  let line := core.line.setLastCrc crc
  { core with line := if line.isComplete ∧ line.crc = crc then line.validate crc else line }

theorem line_trackCrc (core : Core) (crc : UInt32) :
    (core.trackCrc crc).line =
      if core.line.isComplete = true ∧ core.line.crc = crc then core.line.validate crc
      else core.line.setLastCrc crc := rfl

theorem tag_trackCrc (core : Core) (crc : UInt32) : (core.trackCrc crc).line.tag = core.line.tag := by
  rw [line_trackCrc]
  split <;> rfl

theorem sector?_trackCrc (core : Core) (crc : UInt32) (track volume sector : UInt8) :
    (core.trackCrc crc).line.sector? track volume sector = core.line.sector? track volume sector := by
  rw [line_trackCrc]
  split <;> rfl

theorem crc_trackCrc (core : Core) (crc : UInt32) : (core.trackCrc crc).line.crc = core.line.crc := by
  rw [line_trackCrc]
  split <;> rfl

def announce (core : Core) (volume : UInt8) : Core :=
  if core.state = .reading then { core with volume }
  else { core.dropTransfer with line := core.line.flush, volume, state := .inserted, inserted := true }

def apply (core : Core) : StreamEvent → Core
  | .sectorStart track sector => core.sectorStart track sector
  | .payload byte => core.payload byte
  | .sectorEnd checksum => core.sectorEnd checksum
  | .transferEnd => core.transferEnd
  | .trackCrc crc => core.trackCrc crc
  | .volume volume => core.announce volume
  | .error _ => core

/-- What an event can do to a core. Only a CRC and the announcement of a disk go beyond the sector in reception
and the state. -/
inductive Effect (core : Core) : StreamEvent → Core → Prop
  | assembly {event : StreamEvent} (other : ∀ crc, event ≠ .trackCrc crc) (assembly : Option Assembly) :
      Effect core event { core with assembly }
  | commit (checksum sector : UInt8) (bytes : Sector) :
      Effect core (.sectorEnd checksum)
        { core with assembly := none, line := core.line.commit sector bytes }
  | transferEnd : Effect core .transferEnd core.transferEnd
  | trackCrc (crc : UInt32) : Effect core (.trackCrc crc) (core.trackCrc crc)
  | announce (volume : UInt8) : Effect core (.volume volume) (core.announce volume)

theorem effect (core : Core) (event : StreamEvent) : core.Effect event (core.apply event) := by
  cases event with
  | sectorStart track sector => exact .assembly (by simp) _
  | payload byte =>
    rw [apply, payload]
    cases core.assembly with
    | none => exact .assembly (by simp) core.assembly
    | some a =>
      by_cases room : a.bytes.size < sectorSize
      · simp only [room, if_true]
        exact .assembly (by simp) _
      · simp only [room, if_false]
        exact .assembly (by simp) core.assembly
  | sectorEnd checksum =>
    have given : core.Effect (.sectorEnd checksum) { core with assembly := none } := .assembly (by simp) none
    rw [apply, sectorEnd]
    cases core.assembly with
    | none => exact .assembly (by simp) core.assembly
    | some a =>
      by_cases dropped : a.discard = true
      · simpa [dropped] using given
      by_cases size : a.bytes.size = sectorSize
      · by_cases right : Gcr.checksum a.bytes.toList = checksum
        · simp only [dropped, size, right, dif_pos, if_true]
          exact .commit checksum a.sector ⟨a.bytes, size⟩
        · simpa [dropped, size, right] using given
      · simpa [dropped, size] using given
  | transferEnd => exact .transferEnd
  | trackCrc crc => exact .trackCrc crc
  | volume volume => exact .announce volume
  | error cause => exact .assembly (by simp) core.assembly

def take (core : Core) (burst : List UInt8) : Core :=
  (core.tokenizer.feed burst).2.foldl apply
    { core with tokenizer := (core.tokenizer.feed burst).1, retries := 0 }

theorem take_eq {core : Core} {burst : List UInt8} {tokenizer : Tokenizer} {events : List StreamEvent}
    (h : core.tokenizer.feed burst = (tokenizer, events)) :
    core.take burst = events.foldl apply { core with tokenizer, retries := 0 } := by
  rw [take, h]

theorem count_within {retries limit : UInt32} (within : retries.toNat + 1 ≤ limit.toNat) :
    (retries + 1).toNat = retries.toNat + 1 ∧ ¬ limit < retries + 1 := by
  have more : (retries + 1).toNat = retries.toNat + 1 := by
    rw [UInt32.toNat_add]
    exact Nat.mod_eq_of_lt (within.trans_lt limit.toNat_lt)
  refine ⟨more, ?_⟩
  rw [UInt32.lt_iff_toNat_lt, more]
  exact Nat.not_lt.mpr within

/-- A pass in which nothing came. -/
def wait (core : Core) : Core :=
  if core.state = .reading then
    if core.retryLimit < core.retries + 1 then { core.dropTransfer with state := .inserted }
    else { core with retries := core.retries + 1 }
  else core

def disconnect (core : Core) : Core :=
  if core.state = .disconnected then core
  else { core.dropTransfer with line := core.line.flush, state := .disconnected }

def wake (core : Core) : Core := if core.state = .disconnected then { core with state := .noDisk } else core

@[simp] theorem wake_line (core : Core) : core.wake.line = core.line := by
  unfold wake
  split <;> rfl

@[simp] theorem wake_assembly (core : Core) : core.wake.assembly = core.assembly := by
  unfold wake
  split <;> rfl

@[simp] theorem wake_tokenizer (core : Core) : core.wake.tokenizer = core.tokenizer := by
  unfold wake
  split <;> rfl

theorem wake_of_ne {core : Core} (h : core.state ≠ .disconnected) : core.wake = core := if_neg h

theorem wait_line (core : Core) : core.wait.line = core.line := by
  unfold wait
  split
  · split <;> rfl
  · rfl

/-- A request, for which there is room or not. -/
def request (core : Core) (track volume : UInt8) (fits : Bool) : Core :=
  if core.state ≠ .inserted then core
  else if fits then
    { core with line := core.line.retag track volume, assembly := none, retries := 0, state := .reading }
  else { core with line := core.line.retag track volume }

def restart (core : Core) : Core :=
  { core.dropTransfer with
    state := match core.state with
      | .seeking | .reading | .writing => .inserted
      | state => state }

end Core

namespace Desk

@[simp] theorem core_dropTransfer (desk : Desk) : desk.dropTransfer.core = desk.core.dropTransfer := rfl

theorem core_sectorStart (desk : Desk) (track sector : UInt8) :
    (desk.sectorStart track sector).core = desk.core.sectorStart track sector := by
  unfold sectorStart
  dsimp only
  split <;> split <;> (try split) <;> simp_all [core, Core.sectorStart, note, say]

theorem core_payload (desk : Desk) (byte : UInt8) : (desk.payload byte).core = desk.core.payload byte := by
  unfold payload Core.payload
  cases h : desk.client.assembly with
  | none => simp [core, h, fault, note, say]
  | some a =>
    by_cases full : a.bytes.size < sectorSize
    · simp [core, h, full]
    · simp [core, h, full, fault, note, say]

theorem core_sectorEnd (desk : Desk) (checksum : UInt8) :
    (desk.sectorEnd checksum).core = desk.core.sectorEnd checksum := by
  unfold sectorEnd Core.sectorEnd
  cases h : desk.client.assembly with
  | none => simp [core, h, fault, note, say]
  | some a =>
    simp only [core, h]
    split
    case isTrue => rfl
    case isFalse =>
      split
      case isTrue =>
        split
        case isTrue => split <;> rfl
        case isFalse => rfl
      case isFalse => rfl

theorem core_transferEnd (desk : Desk) : desk.transferEnd.core = desk.core.transferEnd := by
  unfold transferEnd Core.transferEnd
  dsimp only
  by_cases reading : desk.client.state = .reading
  · rw [if_pos reading, if_pos (by exact reading), core_setState]
    rfl
  · rw [if_neg reading, if_neg (by exact reading)]
    rfl

theorem core_trackCrc (desk : Desk) (crc : UInt32) : (desk.trackCrc crc).core = desk.core.trackCrc crc := by
  unfold trackCrc Core.trackCrc
  dsimp only [core]
  by_cases complete : (desk.line.setLastCrc crc).isComplete
  · by_cases same : (desk.line.setLastCrc crc).crc = crc
    · simp only [complete, same, if_true, and_self]
      rfl
    · simp only [complete, same, if_true, and_false, if_false]
      rfl
  · simp [complete]

theorem core_announce (desk : Desk) (volume : UInt8) :
    (desk.announce volume).core = desk.core.announce volume := by
  unfold announce Core.announce
  dsimp only
  by_cases reading : desk.client.state = .reading
  · rw [if_pos reading, if_pos (by exact reading)]
    rfl
  · rw [if_neg reading, if_neg (by exact reading), core_inserted, core_setState]
    rfl

theorem core_apply (desk : Desk) (event : StreamEvent) : (desk.apply event).core = desk.core.apply event := by
  cases event with
  | sectorStart track sector => exact desk.core_sectorStart track sector
  | payload byte => exact desk.core_payload byte
  | sectorEnd checksum => exact desk.core_sectorEnd checksum
  | transferEnd => exact desk.core_transferEnd
  | trackCrc crc => exact desk.core_trackCrc crc
  | volume volume => exact desk.core_announce volume
  | error cause => exact desk.core_fault cause

theorem core_foldl (events : List StreamEvent) (desk : Desk) :
    (events.foldl apply desk).core = events.foldl Core.apply desk.core := by
  induction events generalizing desk with
  | nil => rfl
  | cons event events ih => rw [List.foldl_cons, List.foldl_cons, ih, core_apply]

theorem core_take (desk : Desk) (burst : List UInt8) : (desk.take burst).core = desk.core.take burst := by
  unfold take Core.take
  rw [core_foldl]
  rfl

theorem core_wait (desk : Desk) : desk.wait.core = desk.core.wait := by
  unfold wait Core.wait
  dsimp only
  by_cases reading : desk.client.state = .reading
  · have reading' : desk.core.state = .reading := reading
    rw [if_pos reading, if_pos reading']
    by_cases late : desk.client.retryLimit < desk.client.retries + 1
    · have late' : desk.core.retryLimit < desk.core.retries + 1 := late
      rw [if_pos late, if_pos late', core_setState, core_dropTransfer, core_fault]
      rfl
    · have late' : ¬ desk.core.retryLimit < desk.core.retries + 1 := late
      rw [if_neg late, if_neg late']
      rfl
  · have reading' : desk.core.state ≠ .reading := reading
    rw [if_neg reading, if_neg reading']

theorem core_wake (desk : Desk) :
    (if desk.client.state = .disconnected then desk.setState .noDisk else desk).core = desk.core.wake := by
  unfold Core.wake
  by_cases off : desk.client.state = .disconnected
  · rw [if_pos off, if_pos (by exact off), core_setState]
  · rw [if_neg off, if_neg (by exact off)]

theorem core_disconnect (desk : Desk) : desk.disconnect.core = desk.core.disconnect := by
  unfold disconnect Core.disconnect
  by_cases off : desk.client.state = .disconnected
  · rw [if_pos off, if_pos (by exact off)]
  · rw [if_neg off, if_neg (by exact off), core_setState]
    rfl

end Desk

namespace Client
variable {τ : Type} [Transport τ]

def desk (client : Client) (line : TrackLine) (volume : UInt8) : Desk := { client, line, volume }

def core (client : Client) (line : TrackLine) (volume : UInt8) : Core := (client.desk line volume).core

theorem core_service_offline (client : Client) (transport : τ) (line : TrackLine) (volume : UInt8)
    (offline : Transport.connected transport = false) :
    (client.service transport line volume).1.core = (client.core line volume).disconnect := by
  simp only [service, offline, Bool.not_false, if_true]
  exact Desk.core_disconnect _

theorem core_service_nil (client : Client) (transport : τ) (line : TrackLine) (volume : UInt8)
    (online : Transport.connected transport = true)
    (nothing : (Transport.read transport burstSize).1 = []) :
    (client.service transport line volume).1.core = (client.core line volume).wake.wait := by
  unfold service
  rw [if_neg (by simp [online])]
  rcases found : Transport.read transport burstSize with ⟨burst, rest⟩
  rw [found] at nothing
  cases nothing
  exact (Desk.core_wait _).trans (congrArg Core.wait (client.desk line volume).core_wake)

theorem core_service_cons (client : Client) (transport : τ) (line : TrackLine) (volume : UInt8)
    (online : Transport.connected transport = true)
    (something : (Transport.read transport burstSize).1 ≠ []) :
    (client.service transport line volume).1.core =
      (client.core line volume).wake.take (Transport.read transport burstSize).1 := by
  unfold service
  rw [if_neg (by simp [online])]
  rcases found : Transport.read transport burstSize with ⟨burst, rest⟩
  rw [found] at something
  cases burst with
  | nil => exact absurd rfl something
  | cons byte burst =>
    exact (Desk.core_take _ _).trans
      (congrArg (Core.take · (byte :: burst)) (client.desk line volume).core_wake)

theorem core_request (client : Client) (transport : τ) (line : TrackLine) (volume : UInt8)
    (request : Request) :
    (client.request transport line volume request).2.1.core =
      (client.core line volume).request request.track volume
        (decide (neededRoom request ≤ Transport.room transport)) := by
  unfold Client.request Core.request
  dsimp only
  by_cases ready : client.state = .inserted
  · have ready' : ¬ (client.core line volume).state ≠ .inserted := not_not.mpr ready
    rw [if_neg (not_not.mpr ready), if_neg ready']
    by_cases room : Transport.room transport < neededRoom request
    · rw [if_pos room, if_neg (by simpa using room)]
      rfl
    · rw [if_neg room, if_pos (by simpa using room)]
      exact (Desk.core_setState _ _).trans rfl
  · have ready' : (client.core line volume).state ≠ .inserted := ready
    rw [if_pos ready, if_pos ready']
    rfl

theorem neededRoom_le (request : Request) : neededRoom request ≤ 6 := by
  rcases request with ⟨track, _ | sector⟩ <;> simp [neededRoom, Request.encode, Hex.pair]

theorem core_restart (client : Client) (line : TrackLine) (volume : UInt8) :
    client.restart.1.core line volume = (client.core line volume).restart := by
  unfold restart Core.restart
  dsimp only
  cases h : client.state <;>
    simp [Desk.dropTransfer, Core.dropTransfer, Desk.setState, Desk.say, core, desk, Desk.core, h]

end Client
end Floppy.Fetch
