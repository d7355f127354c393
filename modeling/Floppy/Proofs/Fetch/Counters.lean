import Floppy.Proofs.Fetch.Transfer

/-!
# What the events leave in the counters

Each event of the stream moves at most one counter, by one. Which one depends on the core alone, so the counters
after a run of events are those before with the entries of the run, one after the other.
-/
namespace Floppy.Fetch

/-- What an event leaves in the counters. -/
inductive Entry where
  | discarded
  | committed
  | validated (track : UInt8)
  | fault (error : FetchError)

namespace FetchStats

def enter (stats : FetchStats) : Entry → FetchStats
  | .discarded => { stats with sectorsDiscarded := stats.sectorsDiscarded + 1 }
  | .committed => { stats with sectorsCommitted := stats.sectorsCommitted + 1 }
  | .validated _ => { stats with tracksValidated := stats.tracksValidated + 1 }
  | .fault error => Desk.count stats error

def receive (stats : FetchStats) (count : ℕ) : FetchStats :=
  { stats with bytesReceived := stats.bytesReceived + count }

theorem enter_receive (stats : FetchStats) (count : ℕ) (entry : Entry) :
    (stats.receive count).enter entry = (stats.enter entry).receive count := by
  cases entry with
  | discarded => rfl
  | committed => rfl
  | validated track => rfl
  | fault error => cases error <;> rfl

theorem foldl_enter_receive (entries : List Entry) (stats : FetchStats) (count : ℕ) :
    entries.foldl enter (stats.receive count) = (entries.foldl enter stats).receive count := by
  induction entries generalizing stats with
  | nil => rfl
  | cons entry entries ih => rw [List.foldl_cons, List.foldl_cons, enter_receive, ih]

theorem receive_receive (stats : FetchStats) (a b : ℕ) :
    (stats.receive a).receive b = stats.receive (a + b) := by
  simp [receive, Nat.add_assoc]

end FetchStats

def Entry.track? : Entry → Option UInt8
  | .validated track => some track
  | _ => none

def validatedTrack (entries : List Entry) : Option UInt8 := (entries.filterMap Entry.track?).getLast?

theorem validatedTrack_append (a b : List Entry) :
    validatedTrack (a ++ b) = (validatedTrack b).or (validatedTrack a) := by
  simp [validatedTrack, List.getLast?_append]

namespace Core

/-- A core without what no event looks at: the tokenizer, the count of empty passes, and whether a disk was
inserted before. -/
def bare (core : Core) : Core := { core.strip with inserted := false }

theorem bare_apply (core : Core) (event : StreamEvent) :
    (core.apply event).bare = (core.bare.apply event).bare := by
  rcases core with ⟨state, tokenizer, assembly, retries, retryLimit, wholeTrack, line, volume, inserted⟩
  cases event with
  | sectorStart track sector => rfl
  | payload byte =>
    cases assembly with
    | none => rfl
    | some a => by_cases room : a.bytes.size < sectorSize <;> simp [apply, payload, bare, strip, room]
  | sectorEnd checksum =>
    cases assembly with
    | none => rfl
    | some a =>
      by_cases dropped : a.discard
      · simp [apply, sectorEnd, bare, strip, dropped]
      · by_cases size : a.bytes.size = sectorSize
        · by_cases right : Gcr.checksum a.bytes.toList = checksum <;>
            simp [apply, sectorEnd, bare, strip, dropped, size, right]
        · simp [apply, sectorEnd, bare, strip, dropped, size]
  | transferEnd => rfl
  | trackCrc crc => rfl
  | volume volume =>
    by_cases reading : state = .reading <;> simp [apply, announce, bare, strip, dropTransfer, reading]
  | error cause => rfl

theorem bare_foldl {core next : Core} (same : next.bare = core.bare) (events : List StreamEvent) :
    (events.foldl apply next).bare = (events.foldl apply core).bare := by
  induction events generalizing core next with
  | nil => exact same
  | cons event events ih =>
    refine ih ?_
    rw [bare_apply, same, ← bare_apply]

def entryOf? (core : Core) : StreamEvent → Option Entry
  | .sectorStart track _ => if core.line.track != some track then some .discarded else none
  | .payload _ =>
    match core.assembly with
    | none => some (.fault .orphan)
    | some a => if a.bytes.size < sectorSize then none else some (.fault .overflow)
  | .sectorEnd checksum =>
    match core.assembly with
    | none => some (.fault .orphan)
    | some a =>
      if a.discard then none
      else if a.bytes.size = sectorSize then
        let actual := Gcr.checksum a.bytes.toList
        if actual = checksum then some .committed
        else some (.fault (.sectorChecksum a.track a.sector checksum actual))
      else some (.fault (.shortSector a.track a.sector a.bytes.size))
  | .transferEnd => none
  | .trackCrc crc =>
    if core.line.isComplete then
      let track := core.line.track.getD 0
      if core.line.crc = crc then some (.validated track)
      else some (.fault (.trackCrc track crc core.line.crc))
    else none
  | .volume _ => none
  | .error cause => some (.fault cause)

def entries (core : Core) : List StreamEvent → List Entry
  | [] => []
  | event :: rest => (core.entryOf? event).toList ++ (core.apply event).entries rest

theorem entries_append (core : Core) (a b : List StreamEvent) :
    core.entries (a ++ b) = core.entries a ++ (a.foldl apply core).entries b := by
  induction a generalizing core with
  | nil => rfl
  | cons event a ih => simp [entries, ih]

theorem entryOf?_bare (core : Core) (event : StreamEvent) : core.bare.entryOf? event = core.entryOf? event := by
  cases event <;> rfl

theorem entries_eq_of_bare {core next : Core} (same : next.bare = core.bare) (events : List StreamEvent) :
    next.entries events = core.entries events := by
  induction events generalizing core next with
  | nil => rfl
  | cons event events ih =>
    have later : (next.apply event).bare = (core.apply event).bare := by
      rw [bare_apply, same, ← bare_apply]
    rw [entries, entries, ← entryOf?_bare, same, entryOf?_bare, ih later]

end Core

/-- The counters and the report after an entry, if there is one. -/
structure Desk.Enters (desk next : Desk) (entry : Option Entry) : Prop where
  stats : next.client.stats = entry.toList.foldl FetchStats.enter desk.client.stats
  outcome : next.outcome.validatedTrack =
    (validatedTrack entry.toList).or desk.outcome.validatedTrack

namespace Desk
variable (desk : Desk)

theorem enters_setState (state : DiskState) : desk.Enters (desk.setState state) none := by
  unfold setState
  split <;> exact ⟨rfl, rfl⟩

theorem enters_fault (error : FetchError) : desk.Enters (desk.fault error) (some (.fault error)) := ⟨rfl, rfl⟩

/-- A sector that is given up for another one is only reported. -/
theorem enters_sectorStart (track sector : UInt8) :
    desk.Enters (desk.sectorStart track sector) (desk.core.entryOf? (.sectorStart track sector)) := by
  have line : desk.core.line = desk.line := rfl
  simp only [sectorStart, Core.entryOf?, line]
  by_cases elsewhere : (desk.line.track != some track) = true
  · cases desk.client.assembly with
    | none =>
      simp only [elsewhere, if_true]
      exact ⟨rfl, rfl⟩
    | some a =>
      cases kept : a.discard <;>
        simp only [kept, say, elsewhere, if_true, Bool.false_eq_true, if_false] <;> exact ⟨rfl, rfl⟩
  · cases desk.client.assembly with
    | none =>
      simp only [elsewhere, Bool.false_eq_true, if_false]
      exact ⟨rfl, rfl⟩
    | some a =>
      cases kept : a.discard <;>
        simp only [kept, say, elsewhere, if_true, Bool.false_eq_true, if_false] <;> exact ⟨rfl, rfl⟩

theorem enters_payload (byte : UInt8) :
    desk.Enters (desk.payload byte) (desk.core.entryOf? (.payload byte)) := by
  have same : desk.core.assembly = desk.client.assembly := rfl
  simp only [payload, Core.entryOf?, same]
  cases desk.client.assembly with
  | none => exact desk.enters_fault .orphan
  | some a =>
    by_cases room : a.bytes.size < sectorSize
    · simp only [room, if_true]
      exact ⟨rfl, rfl⟩
    · simp only [room, if_false]
      exact desk.enters_fault .overflow

theorem enters_sectorEnd (checksum : UInt8) :
    desk.Enters (desk.sectorEnd checksum) (desk.core.entryOf? (.sectorEnd checksum)) := by
  have same : desk.core.assembly = desk.client.assembly := rfl
  simp only [sectorEnd, Core.entryOf?, same]
  cases desk.client.assembly with
  | none => exact desk.enters_fault .orphan
  | some a =>
    cases dropped : a.discard with
    | true =>
      simp only [dropped, if_true]
      exact ⟨rfl, rfl⟩
    | false =>
      by_cases size : a.bytes.size = sectorSize
      · by_cases right : Gcr.checksum a.bytes.toList = checksum
        · simp only [dropped, size, right, dif_pos, if_true, Bool.false_eq_true, if_false]
          split <;> exact ⟨rfl, rfl⟩
        · simp only [dropped, size, right, dif_pos, if_true, Bool.false_eq_true, if_false]
          exact ⟨rfl, rfl⟩
      · simp only [dropped, size, dif_neg, not_false_eq_true, Bool.false_eq_true, if_false]
        exact ⟨rfl, rfl⟩

theorem enters_transferEnd : desk.Enters desk.transferEnd none := by
  unfold transferEnd
  dsimp only
  split
  case isTrue =>
    obtain ⟨stats, outcome⟩ := enters_setState
      { desk with client.assembly := none, client.retries := 0 } .inserted
    exact ⟨stats, outcome⟩
  case isFalse => exact ⟨rfl, rfl⟩

theorem enters_trackCrc (crc : UInt32) :
    desk.Enters (desk.trackCrc crc) (desk.core.entryOf? (.trackCrc crc)) := by
  have complete : (desk.line.setLastCrc crc).isComplete = desk.core.line.isComplete := rfl
  have actual : (desk.line.setLastCrc crc).crc = desk.core.line.crc := rfl
  simp only [trackCrc, Core.entryOf?, complete, actual]
  by_cases whole : desk.core.line.isComplete
  · by_cases right : desk.core.line.crc = crc
    · simp only [whole, right, if_true]
      exact ⟨rfl, rfl⟩
    · simp only [whole, right, if_true, if_false]
      exact ⟨rfl, rfl⟩
  · simp only [whole, Bool.false_eq_true, if_false]
    exact ⟨rfl, rfl⟩

theorem enters_announce (volume : UInt8) : desk.Enters (desk.announce volume) none := by
  unfold announce
  dsimp only
  split
  case isTrue => exact ⟨rfl, rfl⟩
  case isFalse => exact ⟨(enters_setState _ .inserted).stats, (enters_setState _ .inserted).outcome⟩

theorem enters_apply (event : StreamEvent) : desk.Enters (desk.apply event) (desk.core.entryOf? event) := by
  cases event with
  | sectorStart track sector => exact desk.enters_sectorStart track sector
  | payload byte => exact desk.enters_payload byte
  | sectorEnd checksum => exact desk.enters_sectorEnd checksum
  | transferEnd => exact desk.enters_transferEnd
  | trackCrc crc => exact desk.enters_trackCrc crc
  | volume volume => exact desk.enters_announce volume
  | error cause => exact desk.enters_fault cause

theorem enters_foldl (events : List StreamEvent) :
    (events.foldl apply desk).client.stats =
        (desk.core.entries events).foldl FetchStats.enter desk.client.stats ∧
      (events.foldl apply desk).outcome.validatedTrack =
        (validatedTrack (desk.core.entries events)).or desk.outcome.validatedTrack := by
  induction events generalizing desk with
  | nil => exact ⟨rfl, rfl⟩
  | cons event events ih =>
    obtain ⟨stats, outcome⟩ := ih (desk.apply event)
    obtain ⟨first, report⟩ := desk.enters_apply event
    rw [List.foldl_cons, stats, outcome, first, report, core_apply, Core.entries, List.foldl_append,
      validatedTrack_append, Option.or_assoc]
    exact ⟨rfl, rfl⟩

theorem enters_take (burst : List UInt8) :
    let entries := desk.core.entries (desk.core.tokenizer.feed burst).2
    (desk.take burst).client.stats = entries.foldl FetchStats.enter (desk.client.stats.receive burst.length) ∧
      (desk.take burst).outcome.validatedTrack = (validatedTrack entries).or desk.outcome.validatedTrack := by
  let opened : Desk := { desk with
    client.retries := 0
    client.stats := desk.client.stats.receive burst.length
    client.trace := desk.client.trace.bytes "< " burst
    client.tokenizer := (desk.client.tokenizer.feed burst).1 }
  have bare : opened.core.bare = desk.core.bare := rfl
  have same : opened.core.entries = desk.core.entries := funext (Core.entries_eq_of_bare bare)
  obtain ⟨stats, outcome⟩ := opened.enters_foldl (desk.client.tokenizer.feed burst).2
  rw [same] at stats outcome
  exact ⟨stats, outcome⟩

theorem enters_wait (patient : desk.client.state = .reading → desk.client.retries.toNat + 1 ≤ desk.client.retryLimit.toNat) :
    desk.Enters desk.wait none := by
  unfold wait
  by_cases reading : desk.client.state = .reading
  · have few : ¬ desk.client.retryLimit < desk.client.retries + 1 := (Core.count_within (patient reading)).2
    simp only [reading, few, if_true, if_false]
    exact ⟨rfl, rfl⟩
  · rw [if_neg reading]
    exact ⟨rfl, rfl⟩

end Desk

namespace Client
variable {τ : Type} [Transport τ]

/-- The desk of a client that a connected transport has woken. -/
def woken (client : Client) (line : TrackLine) (volume : UInt8) : Desk :=
  if client.state = .disconnected then (client.desk line volume).setState .noDisk
  else client.desk line volume

theorem core_woken (client : Client) (line : TrackLine) (volume : UInt8) :
    (client.woken line volume).core = (client.core line volume).wake :=
  (client.desk line volume).core_wake

theorem enters_woken (client : Client) (line : TrackLine) (volume : UInt8) :
    (client.woken line volume).client.stats = client.stats ∧
      (client.woken line volume).outcome.validatedTrack = none := by
  by_cases off : client.state = .disconnected
  · obtain ⟨stats, outcome⟩ := (client.desk line volume).enters_setState .noDisk
    rw [woken, if_pos off]
    exact ⟨stats, outcome⟩
  · rw [woken, if_neg off]
    exact ⟨rfl, rfl⟩

theorem enters_service (client : Client) (transport : τ) (line : TrackLine) (volume : UInt8)
    (online : Transport.connected transport = true)
    (something : (Transport.read transport burstSize).1 ≠ []) :
    let burst := (Transport.read transport burstSize).1
    let entries := (client.core line volume).wake.entries (client.tokenizer.feed burst).2
    (client.service transport line volume).1.client.stats =
        entries.foldl FetchStats.enter (client.stats.receive burst.length) ∧
      (client.service transport line volume).1.outcome.validatedTrack = validatedTrack entries := by
  unfold service
  rw [if_neg (by simp [online])]
  rcases found : Transport.read transport burstSize with ⟨burst, rest⟩
  rw [found] at something
  cases burst with
  | nil => exact absurd rfl something
  | cons byte burst =>
    obtain ⟨stats, outcome⟩ := (client.woken line volume).enters_take (byte :: burst)
    obtain ⟨same, unreported⟩ := client.enters_woken line volume
    rw [core_woken, Core.wake_tokenizer, same] at stats
    rw [core_woken, Core.wake_tokenizer, unreported, Option.or_none] at outcome
    exact ⟨stats, outcome⟩

/-- The counters rest in a pass in which nothing came, unless it is one too many. -/
theorem enters_service_nil (client : Client) (transport : τ) (line : TrackLine) (volume : UInt8)
    (online : Transport.connected transport = true)
    (nothing : (Transport.read transport burstSize).1 = [])
    (patient : client.state = .reading → client.retries.toNat + 1 ≤ client.retryLimit.toNat) :
    (client.service transport line volume).1.client.stats = client.stats ∧
      (client.service transport line volume).1.outcome.validatedTrack = none := by
  unfold service
  rw [if_neg (by simp [online])]
  rcases found : Transport.read transport burstSize with ⟨burst, rest⟩
  rw [found] at nothing
  cases nothing
  have patient : (client.woken line volume).client.state = .reading →
      (client.woken line volume).client.retries.toNat + 1 ≤ (client.woken line volume).client.retryLimit.toNat := by
    by_cases off : client.state = .disconnected
    · have state := congrArg Core.state (client.core_woken line volume)
      intro reading
      simp [Core.wake, core, desk, Desk.core, off] at state
      simp [state] at reading
    · rw [woken, if_neg off]
      exact patient
  obtain ⟨stats, outcome⟩ := (client.woken line volume).enters_wait patient
  obtain ⟨same, unreported⟩ := client.enters_woken line volume
  exact ⟨stats.trans same, outcome.trans unreported⟩

end Client
end Floppy.Fetch
