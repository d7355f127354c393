import Floppy.Proofs.Cache
import Floppy.Proofs.Fetch.Core
import Floppy.Proofs.Fetch.Stream

/-!
# The answer to a request, event by event

From the request to the end of the answer a client goes on reading, and stops no earlier than the sector that
it asked for can be read. What it then reads are the bytes that were sent.
-/
namespace Floppy.Fetch

namespace Core

/-- A core without the tokenizer and the count of empty passes, which no event looks at. -/
def strip (core : Core) : Core := { core with tokenizer := {}, retries := 0 }

theorem strip_apply (core : Core) (event : StreamEvent) :
    (core.apply event).strip = (core.strip.apply event).strip := by
  cases event with
  | sectorStart track sector => rfl
  | payload byte =>
    unfold apply payload
    rw [show core.strip.assembly = core.assembly from rfl]
    dsimp only
    split
    case h_1 => rfl
    case h_2 => split <;> rfl
  | sectorEnd checksum =>
    unfold apply sectorEnd
    rw [show core.strip.assembly = core.assembly from rfl]
    dsimp only
    split
    case h_1 => rfl
    case h_2 =>
      split
      case isTrue => rfl
      case isFalse =>
        split
        case isTrue => split <;> rfl
        case isFalse => rfl
  | transferEnd => rfl
  | trackCrc crc => rfl
  | volume volume =>
    unfold apply announce
    rw [show core.strip.state = core.state from rfl]
    dsimp only
    split <;> rfl
  | error cause => rfl

theorem strip_foldl (events : List StreamEvent) (core : Core) :
    (events.foldl apply core).strip = (events.foldl apply core.strip).strip := by
  induction events generalizing core with
  | nil => rfl
  | cons event rest ih =>
    rw [List.foldl_cons, List.foldl_cons, ih (core.apply event), strip_apply, ← ih (core.strip.apply event)]

end Core

/-- Something that is so before the first event and after each. -/
def Along (P : Core → Prop) : Core → List StreamEvent → Prop
  | core, [] => P core
  | core, event :: rest => P core ∧ Along P (core.apply event) rest

namespace Along
variable {P : Core → Prop} {core : Core}

theorem first {events : List StreamEvent} (h : Along P core events) : P core := by
  cases events with
  | nil => exact h
  | cons event rest => exact h.1

theorem last {events : List StreamEvent} (h : Along P core events) : P (events.foldl Core.apply core) := by
  induction events generalizing core with
  | nil => exact h
  | cons event rest ih => exact ih h.2

theorem append_iff {a b : List StreamEvent} :
    Along P core (a ++ b) ↔ Along P core a ∧ Along P (a.foldl Core.apply core) b := by
  induction a generalizing core with
  | nil => exact ⟨fun h => ⟨h.first, h⟩, And.right⟩
  | cons event a ih => rw [List.cons_append, Along, Along, ih, List.foldl_cons, and_assoc]

end Along

/-- What is so from a request to the end of the answer: the line keeps its tag, nobody changes the disk, and
the client reads until the sector can be read, with the right bytes. -/
structure Steady (track volume sector : UInt8) (bytes : Sector) (core : Core) : Prop where
  tag : core.line.tag = (some track, volume)
  disk : core.volume = volume
  undisturbed : core.inserted = false
  state : core.state = .reading ∨
    core.state = .inserted ∧ core.line.sector? track volume sector = some bytes
  right : ∀ found, core.line.sector? track volume sector = some found → found = bytes

namespace Steady
variable {track volume sector : UInt8} {bytes : Sector} {core next : Core}

theorem congr (h : Steady track volume sector bytes core) (line : next.line = core.line)
    (state : next.state = core.state) (disk : next.volume = core.volume)
    (inserted : next.inserted = core.inserted) :
    Steady track volume sector bytes next where
  tag := line ▸ h.tag
  disk := disk.trans h.disk
  undisturbed := inserted.trans h.undisturbed
  state := by rw [line, state]; exact h.state
  right := line ▸ h.right

theorem of_strip (h : Steady track volume sector bytes core) (same : next.strip = core.strip) :
    Steady track volume sector bytes next := by
  have line : next.strip.line = core.strip.line := congrArg Core.line same
  have state : next.strip.state = core.strip.state := congrArg Core.state same
  have disk : next.strip.volume = core.strip.volume := congrArg Core.volume same
  have inserted : next.strip.inserted = core.strip.inserted := congrArg Core.inserted same
  exact h.congr line state disk inserted

theorem payload (h : Steady track volume sector bytes core) (byte : UInt8) :
    Steady track volume sector bytes (core.payload byte) := by
  unfold Core.payload
  split
  case h_1 => exact h
  case h_2 =>
    split
    case isTrue => exact h.congr rfl rfl rfl rfl
    case isFalse => exact h

theorem trackCrc (h : Steady track volume sector bytes core) (crc : UInt32) :
    Steady track volume sector bytes (core.trackCrc crc) where
  tag := (core.tag_trackCrc crc).trans h.tag
  disk := h.disk
  undisturbed := h.undisturbed
  state := by
    rw [core.sector?_trackCrc]
    exact h.state
  right := by
    rw [core.sector?_trackCrc]
    exact h.right

theorem commit (h : Steady track volume sector bytes core) (reading : core.state = .reading) (number : UInt8)
    (content : Sector) (right : sectorIndex sector = sectorIndex number → content = bytes) :
    Steady track volume sector bytes
      { core with assembly := none, line := core.line.commit number content } := by
  refine ⟨h.tag, h.disk, h.undisturbed, .inl reading, fun found readable => ?_⟩
  rw [TrackLine.sector?_commit] at readable
  split at readable
  case isTrue same =>
    split at readable
    case isTrue => exact (Option.some.inj readable).symm.trans (right same)
    case isFalse => cases readable
  case isFalse => exact h.right found readable

end Steady

namespace Core

theorem foldl_payload (payload : List UInt8) {core : Core} {a : Assembly} (here : core.assembly = some a)
    (room : a.bytes.size + payload.length ≤ sectorSize) :
    (payload.map .payload).foldl apply core =
      { core with assembly := some { a with bytes := a.bytes ++ payload } } := by
  induction payload generalizing core a with
  | nil =>
    rcases core with ⟨⟩
    simp_all
  | cons byte rest ih =>
    have taken : core.apply (.payload byte) =
        { core with assembly := some { a with bytes := a.bytes.push byte } } := by
      have space : a.bytes.size < sectorSize := by simp at room; omega
      simp [apply, Core.payload, here, space]
    rw [List.map_cons, List.foldl_cons, taken, ih rfl (by simp at room ⊢; omega)]
    simp

theorem foldl_sector {core : Core} {track : UInt8} (here : core.line.track = some track) (number : UInt8)
    (content : Sector) :
    (Message.sector track number content).events.foldl apply core =
      { core with assembly := none, line := core.line.commit (number &&& 0x0F) content } := by
  have start : core.apply (.sectorStart track (number &&& 0x0F)) =
      { core with assembly := some { track, sector := number &&& 0x0F, discard := false } } := by
    simp [apply, sectorStart, here]
  have payload := @foldl_payload content.toList
    { core with assembly := some { track, sector := number &&& 0x0F, discard := false } } _ rfl (by simp)
  rw [Message.events, List.cons_append, List.foldl_cons, start, List.foldl_append, payload]
  simp [apply, sectorEnd]
  rfl

end Core

namespace Steady
variable {track volume sector : UInt8} {bytes : Sector} {core : Core}

theorem along_payload (payload : List UInt8) {core : Core} (h : Steady track volume sector bytes core) :
    Along (Steady track volume sector bytes) core (payload.map .payload) := by
  induction payload generalizing core with
  | nil => exact h
  | cons byte rest ih => exact ⟨h, ih (h.payload byte)⟩

theorem along_sector (h : Steady track volume sector bytes core) (reading : core.state = .reading)
    (number : UInt8)
    (content : Sector) (right : sectorIndex sector = sectorIndex number → content = bytes) :
    Along (Steady track volume sector bytes) core (Message.sector track number content).events := by
  have here : core.line.track = some track := congrArg Prod.fst h.tag
  have start : Steady track volume sector bytes (core.apply (.sectorStart track (number &&& 0x0F))) :=
    h.congr rfl rfl rfl rfl
  have taken : Steady track volume sector bytes
      ((Message.sector track number content).events.foldl Core.apply core) := by
    rw [Core.foldl_sector here]
    exact h.commit reading _ content fun same => right (same.trans (sectorIndex_low number))
  rw [Message.events, List.cons_append, List.foldl_cons, List.foldl_append] at taken
  have payload := start.along_payload content.toList
  exact ⟨h, Along.append_iff.mpr ⟨payload, payload.last, taken⟩⟩

/-- Sectors of the track, one after the other. If the one that was asked for is among them, it can be read in
the end. -/
theorem along_sectors (numbers : List UInt8) (content : UInt8 → Sector)
    (right : ∀ number ∈ numbers, sectorIndex sector = sectorIndex number → content number = bytes)
    {core : Core}
    (h : Steady track volume sector bytes core) (reading : core.state = .reading) :
    let events := numbers.flatMap fun number => (Message.sector track number (content number)).events
    Along (Steady track volume sector bytes) core events ∧ (events.foldl Core.apply core).state = .reading ∧
      ((∃ number ∈ numbers, sectorIndex sector = sectorIndex number) ∨
          core.line.sector? track volume sector = some bytes →
        (events.foldl Core.apply core).line.sector? track volume sector = some bytes) := by
  induction numbers generalizing core with
  | nil => exact ⟨h, reading, by simp⟩
  | cons number rest ih =>
    have here : core.line.track = some track := congrArg Prod.fst h.tag
    have first := h.along_sector reading number (content number) (right number (by simp))
    have taken := Core.foldl_sector here number (content number)
    have state :
        ((Message.sector track number (content number)).events.foldl Core.apply core).state = .reading := by
      rw [taken]
      exact reading
    obtain ⟨along, ends, readable⟩ := ih (fun n mem => right n (List.mem_cons_of_mem _ mem)) first.last state
    simp only [List.flatMap_cons, List.foldl_append]
    refine ⟨Along.append_iff.mpr ⟨first, along⟩, ends, fun found => readable ?_⟩
    by_cases same : sectorIndex sector = sectorIndex number
    · have tagged := (core.line.isTagged_iff track volume).mpr h.tag
      right
      rw [taken, TrackLine.sector?_commit, sectorIndex_low, if_pos same, if_pos tagged,
        right number (by simp) same]
    · rcases found with ⟨n, mem, place⟩ | before
      · rcases List.mem_cons.mp mem with rfl | later
        · exact absurd place same
        · exact .inl ⟨n, later, place⟩
      · right
        rw [taken, TrackLine.sector?_commit, sectorIndex_low, if_neg same, before]

end Steady

namespace Core

/-- An event leaves alone what belongs to the passes: the count of empty ones, which an end may set back, and
the tokenizer, unless a disk is announced. -/
theorem apply_passes (core : Core) (event : StreamEvent) :
    (core.apply event).retryLimit = core.retryLimit ∧ (core.apply event).retries.toNat ≤ core.retries.toNat ∧
      ((core.apply event).inserted = false → (core.apply event).tokenizer = core.tokenizer) := by
  have effect := core.effect event
  generalize core.apply event = next at effect ⊢
  cases effect with
  | assembly => exact ⟨rfl, le_rfl, fun _ => rfl⟩
  | commit => exact ⟨rfl, le_rfl, fun _ => rfl⟩
  | transferEnd => exact ⟨rfl, Nat.zero_le _, fun _ => rfl⟩
  | trackCrc => exact ⟨rfl, le_rfl, fun _ => rfl⟩
  | announce volume =>
    by_cases reading : core.state = .reading
    · rw [announce, if_pos reading]
      exact ⟨rfl, le_rfl, fun _ => rfl⟩
    · rw [announce, if_neg reading]
      exact ⟨rfl, Nat.zero_le _, nofun⟩

end Core

theorem Along.passes {track volume sector : UInt8} {bytes : Sector} {events : List StreamEvent} {core : Core}
    (h : Along (Steady track volume sector bytes) core events) :
    (events.foldl Core.apply core).retryLimit = core.retryLimit ∧
      (events.foldl Core.apply core).retries.toNat ≤ core.retries.toNat ∧
      (events.foldl Core.apply core).tokenizer = core.tokenizer := by
  induction events generalizing core with
  | nil => exact ⟨rfl, le_rfl, rfl⟩
  | cons event rest ih =>
    obtain ⟨limit, retries, tokenizer⟩ := core.apply_passes event
    obtain ⟨limits, fewer, tokenizers⟩ := ih h.2
    exact ⟨limits.trans limit, fewer.trans retries, tokenizers.trans (tokenizer h.2.first.undisturbed)⟩

theorem Along.congr {track volume sector : UInt8} {bytes : Sector} {events : List StreamEvent}
    {core next : Core}
    (h : Along (Steady track volume sector bytes) core events) (same : next.strip = core.strip) :
    Along (Steady track volume sector bytes) next events := by
  induction events generalizing core next with
  | nil => exact Steady.of_strip h same
  | cons event rest ih =>
    refine ⟨h.1.of_strip same, ih h.2 ?_⟩
    rw [Core.strip_apply, same, ← Core.strip_apply]

/-- The rest of an answer: all goes well until its end, and then the client has stopped reading. -/
structure Brings (track volume sector : UInt8) (bytes : Sector) (core : Core) (events : List StreamEvent) :
    Prop where
  along : Along (Steady track volume sector bytes) core events
  ends : (events.foldl Core.apply core).state = .inserted

namespace Brings
variable {track volume sector : UInt8} {bytes : Sector} {core : Core}

theorem rest {a b : List StreamEvent} (h : Brings track volume sector bytes core (a ++ b)) :
    Brings track volume sector bytes (a.foldl Core.apply core) b :=
  ⟨(Along.append_iff.mp h.along).2, by rw [← List.foldl_append]; exact h.ends⟩

theorem congr {events : List StreamEvent} (h : Brings track volume sector bytes core events) {next : Core}
    (same : next.strip = core.strip) : Brings track volume sector bytes next events := by
  refine ⟨h.along.congr same, ?_⟩
  have ends : (events.foldl Core.apply next).strip = (events.foldl Core.apply core).strip := by
    rw [Core.strip_foldl, same, ← Core.strip_foldl]
  exact (congrArg Core.state ends).trans h.ends

/-- What comes for a request brings the sector. -/
theorem answer (h : Steady track volume sector bytes core) (reading : core.state = .reading)
    (numbers : List UInt8)
    (content : UInt8 → Sector)
    (right : ∀ number ∈ numbers, sectorIndex sector = sectorIndex number → content number = bytes)
    (asked : ∃ number ∈ numbers, sectorIndex sector = sectorIndex number) (crc : Option UInt32) :
    Brings track volume sector bytes core
      ((numbers.map (fun number => Message.sector track number (content number)) ++
        [Message.transferEnd crc]).flatMap Message.events) := by
  obtain ⟨along, still, readable⟩ := h.along_sectors numbers content right reading
  have there := readable (.inl asked)
  have closed : Steady track volume sector bytes
      (((numbers.flatMap fun number => (Message.sector track number (content number)).events).foldl
        Core.apply core).apply .transferEnd) := by
    have last := along.last
    refine ⟨last.tag, last.disk, last.undisturbed, .inr ⟨?_, there⟩, last.right⟩
    exact if_pos still
  have split : (numbers.map (fun number => Message.sector track number (content number)) ++
      [Message.transferEnd crc]).flatMap Message.events =
      (numbers.flatMap fun number => (Message.sector track number (content number)).events) ++
        .transferEnd :: crc.toList.map .trackCrc := by
    simp [List.flatMap_map, Message.events]
  rw [split]
  have ended : (((numbers.flatMap fun number => (Message.sector track number (content number)).events).foldl
      Core.apply core).apply .transferEnd).state = .inserted := if_pos still
  cases crc with
  | none => exact ⟨Along.append_iff.mpr ⟨along, along.last, closed⟩, by rw [List.foldl_append]; exact ended⟩
  | some crc =>
    exact ⟨Along.append_iff.mpr ⟨along, along.last, closed, closed.trackCrc crc⟩,
      by rw [List.foldl_append]; exact ended⟩

theorem wait {events : List StreamEvent} (h : Brings track volume sector bytes core events)
    (patient : core.state = .reading → core.retries.toNat + 1 ≤ core.retryLimit.toNat) :
    Brings track volume sector bytes core.wait events ∧ core.wait.tokenizer = core.tokenizer ∧
      core.wait.retryLimit = core.retryLimit ∧ core.wait.state = core.state ∧
      core.wait.retries.toNat ≤ core.retries.toNat + 1 := by
  unfold Core.wait
  split
  case isTrue reading =>
    obtain ⟨more, few⟩ := Core.count_within (patient reading)
    rw [if_neg few]
    exact ⟨h.congr rfl, rfl, rfl, rfl, more.le⟩
  case isFalse => exact ⟨h, rfl, rfl, rfl, Nat.le_succ _⟩

theorem take {events : List StreamEvent} (h : Brings track volume sector bytes core events)
    (burst more : List UInt8)
    (whole : core.tokenizer.feed (burst ++ more) = ({}, events)) :
    ∃ rest, (core.take burst).tokenizer.feed more = ({}, rest) ∧
      Brings track volume sector bytes (core.take burst) rest ∧ (events = [] → rest = []) ∧
      (core.take burst).retries = 0 ∧ (core.take burst).retryLimit = core.retryLimit := by
  rw [Tokenizer.feed_append] at whole
  obtain ⟨same, rfl⟩ := Prod.mk.inj whole
  have started : Brings track volume sector bytes
      { core with tokenizer := (core.tokenizer.feed burst).1, retries := 0 } _ := h.congr rfl
  obtain ⟨limit, retries, kept⟩ := (Along.append_iff.mp started.along).1.passes
  refine ⟨((core.tokenizer.feed burst).1.feed more).2, ?_, started.rest, fun none => ?_, ?_, ?_⟩
  · rw [Core.take, kept, ← same]
  · exact (List.append_eq_nil_iff.mp none).2
  · exact UInt32.toNat_inj.mp (Nat.le_zero.mp retries)
  · exact limit

end Brings
end Floppy.Fetch
