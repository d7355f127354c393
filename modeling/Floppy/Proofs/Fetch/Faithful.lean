import Floppy.Proofs.Fetch.Stream
import Floppy.Proofs.Fetch.Watch

/-!
# What can be read was announced

Every event of the stream and every call keep the invariant: what can be read was announced for its track and
volume, and so was the sector in reception. The one exception is a request that points the line elsewhere
beneath that sector and then finds no room.
-/
namespace Floppy.Fetch

theorem Announced.append {history : List Moment} {track volume sector : UInt8} {bytes : Sector}
    (h : Announced history track volume sector bytes) {more : List Moment}
    (kept : ∀ m ∈ more, m.tag = (some track, volume)) :
    Announced (history ++ more) track volume sector bytes := by
  obtain ⟨before, payload, after, rfl, content, inner, tags⟩ := h
  refine ⟨before, payload, after ++ more, by simp, content, inner, fun m hm => ?_⟩
  rw [← List.append_assoc] at hm
  rcases List.mem_append.mp hm with old | new
  · exact tags m old
  · exact kept m new

/-- The announcement of the sector in reception, with what has come of it. -/
structure Pending (history : List Moment) (tag : Option UInt8 × UInt8) (a : Assembly) : Prop where
  track : tag.1 = some a.track
  low : a.sector &&& 0x0F = a.sector
  content : ∃ before payload, history = before ++ ⟨some (.sectorStart a.track a.sector), tag⟩ :: payload ∧
    (payloads payload).take sectorSize = a.bytes.toList ∧ (∀ m ∈ payload, m.isBoundary = false) ∧
    ∀ m ∈ payload, m.tag = tag

namespace Pending
variable {history : List Moment} {tag : Option UInt8 × UInt8} {a : Assembly}

theorem append (h : Pending history tag a) {moment : Moment} (silent : moment.payload? = none)
    (inner : moment.isBoundary = false) (kept : moment.tag = tag) : Pending (history ++ [moment]) tag a := by
  obtain ⟨before, payload, rfl, content, inners, tags⟩ := h.content
  refine ⟨h.track, h.low, before, payload ++ [moment], by simp, ?_, ?_, ?_⟩
  · simpa [payloads, silent] using content
  · exact List.forall_mem_append.mpr ⟨inners, List.forall_mem_singleton.mpr inner⟩
  · exact List.forall_mem_append.mpr ⟨tags, List.forall_mem_singleton.mpr kept⟩

theorem size_le (h : Pending history tag a) : a.bytes.size ≤ sectorSize := by
  obtain ⟨_, _, _, content, _, _⟩ := h.content
  have := congrArg List.length content
  simp only [List.length_take, Array.length_toList] at this
  omega

theorem push (h : Pending history tag a) (byte : UInt8) (room : a.bytes.size < sectorSize) :
    Pending (history ++ [⟨some (.payload byte), tag⟩]) tag { a with bytes := a.bytes.push byte } := by
  obtain ⟨before, payload, rfl, content, inners, tags⟩ := h.content
  have short : (payloads payload).length < sectorSize := by
    have := congrArg List.length content
    simp only [List.length_take, Array.length_toList] at this
    omega
  have whole : payloads payload = a.bytes.toList := by rwa [List.take_of_length_le short.le] at content
  refine ⟨h.track, h.low, before, payload ++ [⟨some (.payload byte), tag⟩], by simp, ?_, ?_, ?_⟩
  · have next : payloads [⟨some (.payload byte), tag⟩] = [byte] := rfl
    rw [payloads_append, whole, next, Array.toList_push]
    exact List.take_of_length_le (by simpa using room)
  · exact List.forall_mem_append.mpr ⟨inners, List.forall_mem_singleton.mpr rfl⟩
  · exact List.forall_mem_append.mpr ⟨tags, List.forall_mem_singleton.mpr rfl⟩

theorem overflow (h : Pending history tag a) (byte : UInt8) (full : ¬ a.bytes.size < sectorSize) :
    Pending (history ++ [⟨some (.payload byte), tag⟩]) tag a := by
  obtain ⟨before, payload, rfl, content, inners, tags⟩ := h.content
  have long : sectorSize ≤ (payloads payload).length := by
    have := congrArg List.length content
    simp only [List.length_take, Array.length_toList] at this
    omega
  refine ⟨h.track, h.low, before, payload ++ [⟨some (.payload byte), tag⟩], by simp, ?_, ?_, ?_⟩
  · rwa [payloads_append, List.take_append_of_le_length long]
  · exact List.forall_mem_append.mpr ⟨inners, List.forall_mem_singleton.mpr rfl⟩
  · exact List.forall_mem_append.mpr ⟨tags, List.forall_mem_singleton.mpr rfl⟩

theorem announced (h : Pending history tag a) (size : a.bytes.size = sectorSize) {volume sector : UInt8}
    (volume_eq : tag.2 = volume) (same : sector &&& 0x0F = a.sector) :
    Announced (history ++ [⟨some (.sectorEnd (Gcr.checksum a.bytes.toList)), tag⟩]) a.track volume sector
      ⟨a.bytes, size⟩ := by
  obtain ⟨before, payload, rfl, content, inners, tags⟩ := h.content
  have tag_eq : tag = (some a.track, volume) := Prod.ext h.track volume_eq
  refine ⟨before, payload, [], by simp [same, tag_eq], content, inners, ?_⟩
  simpa [tag_eq] using tags

end Pending

/-- All that can be read was announced, and so was the sector in reception, unless it is to be dropped. -/
structure Faithful (history : List Moment) (core : Core) : Prop where
  cached : ∀ track volume sector bytes, core.line.sector? track volume sector = some bytes →
    Announced history track volume sector bytes
  pending : ∀ a, core.assembly = some a → a.discard = false → Pending history core.line.tag a

namespace Faithful
variable {history : List Moment} {core next : Core}

theorem cached_append (h : Faithful history core) {moment : Moment} (kept : moment.tag = core.line.tag)
    {track volume sector : UInt8} {bytes : Sector}
    (readable : core.line.sector? track volume sector = some bytes) :
    Announced (history ++ [moment]) track volume sector bytes := by
  have tagged := ((core.line.sector?_eq_some_iff ..).mp readable).1
  exact (h.cached _ _ _ _ readable).append (by simp [kept, tagged])

theorem drop (h : Faithful history core) (event : Option StreamEvent) (line : next.line = core.line)
    (assembly : next.assembly = none) : Faithful (history ++ [⟨event, next.line.tag⟩]) next where
  cached track volume sector bytes readable := by
    rw [line] at readable ⊢
    exact h.cached_append rfl readable
  pending a here := by simp [assembly] at here

theorem of_unreadable (unreadable : ∀ track volume sector, next.line.sector? track volume sector = none)
    (assembly : next.assembly = none) : Faithful history next where
  cached track volume sector bytes readable := by simp [unreadable] at readable
  pending a here := by simp [assembly] at here

theorem keep (h : Faithful history core) {moment : Moment} (silent : moment.payload? = none)
    (inner : moment.isBoundary = false) (kept : moment.tag = core.line.tag)
    (tag : next.line.tag = core.line.tag)
    (same : ∀ track volume sector,
      next.line.sector? track volume sector = core.line.sector? track volume sector)
    (assembly : next.assembly = core.assembly) : Faithful (history ++ [moment]) next where
  cached track volume sector bytes readable := by
    rw [same] at readable
    exact h.cached_append kept readable
  pending a here taken := by
    rw [tag]
    exact (h.pending a (assembly ▸ here) taken).append silent inner kept

theorem sectorStart (h : Faithful history core) {track sector : UInt8} (low : sector &&& 0x0F = sector) :
    Faithful (history ++ [⟨some (.sectorStart track sector), core.line.tag⟩])
      (core.sectorStart track sector) where
  cached _ _ _ _ readable := h.cached_append rfl readable
  pending a here taken := by
    simp only [Core.sectorStart, Option.some.injEq] at here
    subst here
    refine ⟨?_, low, history, [], rfl, rfl, by simp, by simp⟩
    have held : core.line.track = some track := by simpa using taken
    exact held

theorem payload (h : Faithful history core) (byte : UInt8) :
    Faithful (history ++ [⟨some (.payload byte), (core.payload byte).line.tag⟩]) (core.payload byte) := by
  unfold Core.payload
  cases here : core.assembly with
  | none =>
    exact ⟨fun _ _ _ _ readable => h.cached_append rfl readable, fun a none => by simp [here] at none⟩
  | some a =>
    dsimp only
    split
    case isTrue room =>
      refine ⟨fun _ _ _ _ readable => h.cached_append rfl readable, fun b grown taken => ?_⟩
      cases grown
      exact (h.pending a here taken).push byte room
    case isFalse full =>
      refine ⟨fun _ _ _ _ readable => h.cached_append rfl readable, fun b same taken => ?_⟩
      rw [here] at same
      cases same
      exact (h.pending a here taken).overflow byte full

/-- The one place where a sector becomes readable. -/
theorem commit (h : Faithful history core) {a : Assembly} (here : core.assembly = some a)
    (taken : a.discard = false) (size : a.bytes.size = sectorSize) (track volume sector : UInt8)
    (bytes : Sector)
    (readable : (core.line.commit a.sector ⟨a.bytes, size⟩).sector? track volume sector = some bytes) :
    Announced (history ++ [⟨some (.sectorEnd (Gcr.checksum a.bytes.toList)), core.line.tag⟩])
      track volume sector
      bytes := by
  have pending := h.pending a here taken
  rw [TrackLine.sector?_commit] at readable
  split at readable
  case isTrue same =>
    split at readable
    case isTrue tagged =>
      cases readable
      have tag := (core.line.isTagged_iff track volume).mp tagged
      have track_eq : a.track = track := Option.some.inj (pending.track.symm.trans (congrArg Prod.fst tag))
      subst track_eq
      refine pending.announced size (congrArg Prod.snd tag) ?_
      rw [(sectorIndex_eq_iff _ _).mp same, pending.low]
    case isFalse => cases readable
  case isFalse => exact h.cached_append rfl readable

theorem sectorEnd (h : Faithful history core) (checksum : UInt8) :
    Faithful (history ++ [⟨some (.sectorEnd checksum), (core.sectorEnd checksum).line.tag⟩])
      (core.sectorEnd checksum) := by
  unfold Core.sectorEnd
  cases here : core.assembly with
  | none =>
    exact ⟨fun _ _ _ _ readable => h.cached_append rfl readable, fun a none => by simp [here] at none⟩
  | some a =>
    dsimp only
    split
    case isTrue => exact h.drop _ rfl rfl
    case isFalse taken =>
      split
      case isTrue size =>
        split
        case isTrue right =>
          subst right
          refine ⟨fun track volume sector bytes readable => ?_, fun a none => by cases none⟩
          exact h.commit here (by simpa using taken) size track volume sector bytes readable
        case isFalse => exact h.drop _ rfl rfl
      case isFalse => exact h.drop _ rfl rfl

theorem trackCrc (h : Faithful history core) (crc : UInt32) :
    Faithful (history ++ [⟨some (.trackCrc crc), (core.trackCrc crc).line.tag⟩]) (core.trackCrc crc) := by
  exact h.keep rfl rfl (core.tag_trackCrc crc) (core.tag_trackCrc crc) (core.sector?_trackCrc crc) rfl

theorem announce (h : Faithful history core) (volume : UInt8) :
    Faithful (history ++ [⟨some (.volume volume), (core.announce volume).line.tag⟩])
      (core.announce volume) := by
  unfold Core.announce
  split
  case isTrue => exact h.keep rfl rfl rfl rfl (fun _ _ _ => rfl) rfl
  case isFalse => exact of_unreadable (core.line.sector?_flush) rfl

theorem apply (h : Faithful history core) (event : StreamEvent)
    (low : ∀ track sector, event = .sectorStart track sector → sector &&& 0x0F = sector) :
    Faithful (history ++ [⟨some event, (core.apply event).line.tag⟩]) (core.apply event) := by
  cases event with
  | sectorStart track sector => exact h.sectorStart (low track sector rfl)
  | payload byte => exact h.payload byte
  | sectorEnd checksum => exact h.sectorEnd checksum
  | transferEnd => exact h.drop _ rfl rfl
  | trackCrc crc => exact h.trackCrc crc
  | volume volume => exact h.announce volume
  | error cause => exact h.keep rfl rfl rfl rfl (fun _ _ _ => rfl) rfl

theorem congr (h : Faithful history core) (line : next.line = core.line)
    (assembly : next.assembly = core.assembly) :
    Faithful history next where
  cached := line ▸ h.cached
  pending := line ▸ assembly ▸ h.pending

theorem wait (h : Faithful history core) : Faithful history core.wait := by
  unfold Core.wait
  split
  case isTrue =>
    split
    case isTrue => exact ⟨h.cached, fun a none => by cases none⟩
    case isFalse => exact h.congr rfl rfl
  case isFalse => exact h

theorem pause (h : Faithful history core) : Faithful (history ++ [⟨none, core.line.tag⟩]) core :=
  h.keep rfl rfl rfl rfl (fun _ _ _ => rfl) rfl

theorem moments (events : List StreamEvent) {desk : Desk} (h : Faithful history desk.core)
    (low : ∀ track sector, .sectorStart track sector ∈ events → sector &&& 0x0F = sector) :
    Faithful (history ++ desk.moments events) (events.foldl Core.apply desk.core) := by
  induction events generalizing history desk with
  | nil => simpa [Desk.moments] using h
  | cons event rest ih =>
    have first := h.apply event fun track sector same => low track sector (by simp [same])
    rw [← desk.core_apply event] at first
    have later := ih first fun track sector mem => low track sector (List.mem_cons_of_mem _ mem)
    rw [List.append_assoc] at later
    rw [List.foldl_cons, ← desk.core_apply event]
    exact later

/-- A request keeps the invariant if it goes out, if it leaves the tag, or if nothing is in reception. -/
theorem request (h : Faithful history core) (track volume : UInt8) (fits : Bool)
    (rooted : core.state = .inserted → fits = false → core.line.isTagged track volume = false →
      ∀ a, core.assembly = some a → a.discard = true) :
    Faithful (history ++ [⟨none, (core.request track volume fits).line.tag⟩])
      (core.request track volume fits) := by
  unfold Core.request
  split
  case isTrue => exact h.pause
  case isFalse ready =>
    cases tagged : core.line.isTagged track volume with
    | true =>
      rw [TrackLine.retag_of_tagged tagged]
      split
      case isTrue => exact h.drop none rfl rfl
      case isFalse => exact h.pause
    | false =>
      have unreadable := TrackLine.sector?_retag_of_ne tagged
      split
      case isTrue => exact .of_unreadable unreadable rfl
      case isFalse refused =>
        refine ⟨fun t v s bytes readable => by simp [unreadable] at readable, fun a here taken => ?_⟩
        have dropped := rooted (not_not.mp ready) (by simpa using refused) tagged a here
        simp [dropped] at taken

end Faithful

namespace Watch
variable {w : Watch}

def core (w : Watch) : Core := w.client.core w.line w.volume

theorem faithful_start (retryLimit : UInt32) (wholeTrack : Bool) (trace : Trace) (volume : UInt8) :
    Faithful (start retryLimit wholeTrack trace volume).history
      (start retryLimit wholeTrack trace volume).core :=
  .of_unreadable (TrackLine.sector?_of_invalid rfl) rfl

theorem Faithful.traced (h : Faithful w.history w.core) : w.Traced := h.cached

def opening (w : Watch) (burst : List UInt8) : Desk :=
  let desk := w.client.desk w.line w.volume
  let desk := if w.client.state = .disconnected then desk.setState .noDisk else desk
  { desk with client.tokenizer := (w.client.tokenizer.feed burst).1, client.retries := 0 }

theorem heard_online {pipe : Bench.Pipe} (online : pipe.online = true) :
    w.heard pipe = (w.opening (pipe.received.take Client.burstSize)).moments
      (w.client.tokenizer.feed (pipe.received.take Client.burstSize)).2 := by
  rw [heard, if_pos online]
  rfl

theorem core_opening (burst : List UInt8) :
    (w.opening burst).core =
      { w.core.wake with tokenizer := (w.core.tokenizer.feed burst).1, retries := 0 } := by
  have wake := (w.client.desk w.line w.volume).core_wake
  exact congrArg
    (fun core : Core => { core with tokenizer := (w.core.tokenizer.feed burst).1, retries := 0 }) wake

theorem faithful_service (h : Faithful w.history w.core) (pipe : Bench.Pipe) :
    Faithful (w.step (.service pipe)).history (w.step (.service pipe)).core := by
  have finish {core : Core} (same : (w.client.service pipe w.line w.volume).1.core = core)
      (reached : Faithful (w.history ++ w.heard pipe) core) :
      Faithful (w.step (.service pipe)).history (w.step (.service pipe)).core := by
    rw [← same] at reached
    exact reached.pause.congr rfl rfl
  cases online : pipe.online with
  | false =>
    have heard : w.heard pipe = [] := by simp [Watch.heard, online]
    refine finish (w.client.core_service_offline pipe w.line w.volume online) ?_
    rw [heard, List.append_nil]
    unfold Core.disconnect
    split
    case isTrue => exact h
    case isFalse => exact .of_unreadable (TrackLine.sector?_flush _) rfl
  | true =>
    by_cases nothing : pipe.received.take Client.burstSize = []
    · have heard : w.heard pipe = [] := by
        rw [heard_online online, nothing]
        rfl
      refine finish (w.client.core_service_nil pipe w.line w.volume online nothing) ?_
      rw [heard, List.append_nil]
      exact (h.congr (Core.wake_line _) (Core.wake_assembly _)).wait
    · refine finish (w.client.core_service_cons pipe w.line w.volume online nothing) ?_
      have opened : Faithful w.history (w.opening (pipe.received.take Client.burstSize)).core := by
        rw [core_opening]
        exact h.congr (Core.wake_line _) (Core.wake_assembly _)
      have heard := opened.moments (w.client.tokenizer.feed (pipe.received.take Client.burstSize)).2
        fun track sector mem => Tokenizer.low_of_mem_feed mem
      rw [core_opening] at heard
      rw [heard_online online, Core.take, Core.wake_tokenizer]
      exact heard

theorem faithful_request (h : Faithful w.history w.core) (pipe : Bench.Pipe) (request : Request)
    (volume : UInt8)
    (rooted : ¬ w.Uproots (.request pipe request volume)) :
    Faithful (w.step (.request pipe request volume)).history
      (w.step (.request pipe request volume)).core := by
  have same := w.client.core_request pipe w.line volume request
  have asked : Faithful w.history (w.client.core w.line volume) := h.congr rfl rfl
  have reached :=
    asked.request request.track volume (decide (Client.neededRoom request ≤ Transport.room pipe))
    fun ready refused tagged a here => by
      by_contra taken
      have room : Transport.room pipe < Client.neededRoom request := by simpa using refused
      exact rooted ⟨ready, room, tagged, a, here, by simpa using taken⟩
  rw [← same] at reached
  exact reached.congr rfl rfl

theorem faithful_restart (h : Faithful w.history w.core) :
    Faithful (w.step .restart).history (w.step .restart).core := by
  have restart := w.client.core_restart w.line w.volume
  have line : (w.step .restart).core.line = w.core.line := rfl
  have assembly : (w.step .restart).core.assembly = none := congrArg Core.assembly restart
  exact h.drop none line assembly

theorem faithful_step (h : Faithful w.history w.core) (call : Call) (rooted : ¬ w.Uproots call) :
    Faithful (w.step call).history (w.step call).core := by
  cases call with
  | service pipe => exact faithful_service h pipe
  | request pipe request volume => exact faithful_request h pipe request volume rooted
  | restart => exact faithful_restart h

theorem faithful_run (calls : List Call) (h : Faithful w.history w.core)
    (rooted : ∀ before call after, calls = before ++ call :: after → ¬ (w.run before).Uproots call) :
    Faithful (w.run calls).history (w.run calls).core := by
  induction calls generalizing w with
  | nil => exact h
  | cons call calls ih =>
    refine ih (faithful_step h call (rooted [] call calls rfl)) fun before next after split => ?_
    exact rooted (call :: before) next after (by rw [split, List.cons_append])

theorem run_append (first second : List Call) : w.run (first ++ second) = (w.run first).run second :=
  List.foldl_append

end Watch
end Floppy.Fetch
