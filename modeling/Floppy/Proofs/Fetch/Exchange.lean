import Floppy.Proofs.Fetch.Bursts
import Floppy.Proofs.ImageSource

/-!
# A request and its answer

A client asks, and the source of an image answers. However the answer is cut and delivered, with passes in
between in which nothing comes, the client ends up with the sectors it asked for. `request_answered` also gives
the counters after the exchange.
-/
namespace Floppy.Fetch

namespace Core
variable {core : Core} {track : UInt8}

theorem entries_payload (payload : List UInt8) {core : Core} {a : Assembly} (here : core.assembly = some a)
    (room : a.bytes.size + payload.length ≤ sectorSize) : core.entries (payload.map .payload) = [] := by
  induction payload generalizing core a with
  | nil => rfl
  | cons byte rest ih =>
    have space : a.bytes.size < sectorSize := by simp at room; omega
    have taken : core.apply (.payload byte) =
        { core with assembly := some { a with bytes := a.bytes.push byte } } := by
      simp [apply, Core.payload, here, space]
    have later : (core.apply (.payload byte)).entries (rest.map .payload) = [] := by
      rw [taken]
      exact ih rfl (by simp at room ⊢; omega)
    simp [entries, entryOf?, here, space, later]

/-- A sector that is announced for the track of the line is entered once, as taken over. -/
theorem entries_sector (here : core.line.track = some track) (number : UInt8) (content : Sector) :
    core.entries (Message.sector track number content).events = [.committed] := by
  let begun : Core := { core with
    assembly := some { track, sector := number &&& 0x0F, discard := false } }
  have start : core.apply (.sectorStart track (number &&& 0x0F)) = begun := by
    simp [apply, sectorStart, here, begun]
  have payload : begun.entries (content.toList.map .payload) = [] := entries_payload _ rfl (by simp)
  have filled : (content.toList.map .payload).foldl apply begun = { begun with
      assembly := some { track, sector := number &&& 0x0F, bytes := content.toArray, discard := false } } := by
    rw [foldl_payload content.toList rfl (by simp)]
    simp [begun]
    rfl
  rw [Message.events, List.cons_append, entries, start, entries_append, payload, filled]
  simp [entries, entryOf?, here]
  rfl

/-- Sectors that are announced for the track of the line are taken over, one after the other. -/
theorem foldl_sectors (here : core.line.track = some track) (free : core.assembly = none) {numbers : List UInt8}
    (low : ∀ number ∈ numbers, number &&& 0x0F = number) (content : UInt8 → Sector) :
    let events := numbers.flatMap fun number => (Message.sector track number (content number)).events
    events.foldl apply core = { core with line := core.line.commitAll numbers content } ∧
      core.entries events = .replicate numbers.length .committed := by
  induction numbers generalizing core with
  | nil => exact ⟨rfl, rfl⟩
  | cons number rest ih =>
    have first := foldl_sector here number (content number)
    rw [low number (by simp)] at first
    have same : { core with assembly := none, line := core.line.commit number (content number) } =
        { core with line := core.line.commit number (content number) } := by rw [← free]
    rw [same] at first
    obtain ⟨taken, entered⟩ := @ih { core with line := core.line.commit number (content number) }
      here free fun n mem => low n (List.mem_cons_of_mem _ mem)
    simp only [List.flatMap_cons, List.foldl_append, entries_append, first, taken, entered,
      entries_sector here]
    exact ⟨rfl, rfl⟩

/-- What an answer comes to ahead of its CRC: the sectors are taken over, and the client has stopped reading. -/
theorem foldl_answer (here : core.line.track = some track) (free : core.assembly = none)
    (reading : core.state = .reading) {numbers : List UInt8}
    (low : ∀ number ∈ numbers, number &&& 0x0F = number) (content : UInt8 → Sector) (crc : Option UInt32) :
    let events := (numbers.map (fun number => Message.sector track number (content number)) ++
      [Message.transferEnd crc]).flatMap Message.events
    let done : Core := { core with line := core.line.commitAll numbers content, retries := 0, state := .inserted }
    events.foldl apply core = (crc.toList.map .trackCrc).foldl apply done ∧
      core.entries events =
        .replicate numbers.length .committed ++ done.entries (crc.toList.map .trackCrc) := by
  intro events done
  obtain ⟨taken, entered⟩ := foldl_sectors here free low content
  have split : events =
      (numbers.flatMap fun number => (Message.sector track number (content number)).events) ++
        .transferEnd :: crc.toList.map .trackCrc := by
    simp [events, List.flatMap_map, Message.events]
  have ended : ({ core with line := core.line.commitAll numbers content } : Core).apply .transferEnd = done := by
    simp [apply, transferEnd, reading, free, done]
  rw [split, List.foldl_append, List.foldl_cons, entries_append, entries, taken, entered, ended]
  exact ⟨rfl, rfl⟩

end Core

theorem Core.apply_trackCrc {core : Core} {track : UInt8} (here : core.line.track = some track)
    (complete : core.line.isComplete = true) :
    core.entries [.trackCrc core.line.crc] = [.validated track] ∧
      (core.apply (.trackCrc core.line.crc)).line = core.line.validate core.line.crc := by
  constructor
  · simp [entries, entryOf?, here, complete]
  · rw [apply, line_trackCrc, if_pos ⟨complete, rfl⟩]

theorem FetchStats.foldl_committed (count : ℕ) (stats : FetchStats) :
    (List.replicate count Entry.committed).foldl enter stats =
      { stats with sectorsCommitted := stats.sectorsCommitted + count } := by
  induction count generalizing stats with
  | zero => rfl
  | succ count ih =>
    rw [List.replicate_succ, List.foldl_cons, ih, Nat.add_comm count]
    simp [enter, Nat.add_assoc]

def Request.entries (request : Request) : List Entry :=
  .replicate request.sectors.length .committed ++
    if request.sector = none then [.validated request.track] else []

theorem Request.track?_entries (request : Request) :
    request.entries.filterMap Entry.track? = if request.sector = none then [request.track] else [] := by
  have committed (count : ℕ) : (List.replicate count Entry.committed).filterMap Entry.track? = [] := by
    induction count with
    | zero => rfl
    | succ count ih => exact ih
  rw [entries, List.filterMap_append, committed]
  by_cases whole : request.sector = none
  · rw [if_pos whole, if_pos whole]
    rfl
  · rw [if_neg whole, if_neg whole]
    rfl

theorem Request.enter_entries (request : Request) (stats : FetchStats) :
    request.entries.foldl FetchStats.enter stats = { stats with
      sectorsCommitted := stats.sectorsCommitted + request.sectors.length
      tracksValidated := stats.tracksValidated + if request.sector = none then 1 else 0 } := by
  rw [entries, List.foldl_append, FetchStats.foldl_committed]
  by_cases whole : request.sector = none
  · simp only [whole, if_true]
    rfl
  · simp only [whole, if_false]
    rfl

/-- What comes at the end of an answer. If that is the CRC of the track, the line is found right; what can be
read stays in any case. -/
theorem Core.foldl_closing {core : Core} (source : ImageSource) {request : Request}
    (here : core.line.track = some request.track)
    (right : request.sector = none → core.line.isComplete = true ∧
      core.line.crc = Crc32.ofArray (source.image.trackBytes request.track)) :
    let events := (source.closingCrc request).toList.map StreamEvent.trackCrc
    let final := events.foldl Core.apply core
    final.state = core.state ∧
      (∀ track volume sector, final.line.sector? track volume sector = core.line.sector? track volume sector) ∧
      core.entries events = (if request.sector = none then [.validated request.track] else []) ∧
      (request.sector = none → final.line.validated = true ∧ final.line.crc = core.line.crc) := by
  cases whole : request.sector with
  | some sector =>
    have none : source.closingCrc request = none := by rw [ImageSource.closingCrc, whole]
    rw [none]
    exact ⟨rfl, fun _ _ _ => rfl, by simp [Core.entries], by simp⟩
  | none =>
    obtain ⟨complete, crc⟩ := right whole
    obtain ⟨entry, validated⟩ := Core.apply_trackCrc here complete
    have sent : source.closingCrc request = some core.line.crc := by
      rw [ImageSource.closingCrc, whole, crc]
    rw [sent]
    have line : ([.trackCrc core.line.crc].foldl Core.apply core).line = core.line.validate core.line.crc := validated
    refine ⟨rfl, fun track volume sector => core.sector?_trackCrc _ track volume sector, entry, ?_⟩
    have data := congrArg TrackLine.crc line
    exact fun _ => ⟨congrArg TrackLine.validated line, data⟩

/-- What an answer of the source comes to, for a client that reads and has turned its line to the track. -/
theorem Core.foldl_reply {core : Core} (source : ImageSource) {request : Request} {volume : UInt8}
    (tag : core.line.tag = (some request.track, volume)) (free : core.assembly = none)
    (reading : core.state = .reading) (onDisk : request.track.toNat < trackCount) :
    let events := (source.reply request).flatMap Message.events
    let final := events.foldl Core.apply core
    final.state = .inserted ∧
      (∀ number ∈ request.sectors, ∃ bytes, source.image.sector? request.track number = some bytes ∧
        final.line.sector? request.track volume number = some bytes) ∧
      core.entries events = request.entries ∧
      (request.sector = none → final.line.validated = true ∧
        final.line.crc = Crc32.ofArray (source.image.trackBytes request.track)) := by
  intro events final
  have here : core.line.track = some request.track := congrArg Prod.fst tag
  let content (number : UInt8) : Sector := (source.image.sector? request.track number).getD .zero
  let stopped : Core :=
    { core with line := core.line.commitAll request.sectors content, retries := 0, state := .inserted }
  obtain ⟨done, entered⟩ : final = ((source.closingCrc request).toList.map .trackCrc).foldl Core.apply stopped ∧
      core.entries events = .replicate request.sectors.length .committed ++
        stopped.entries ((source.closingCrc request).toList.map .trackCrc) :=
    Core.foldl_answer here free reading (fun _ => Request.low_of_mem_sectors) content (source.closingCrc request)
  have named : stopped.line.track = some request.track :=
    congrArg Prod.fst ((core.line.tag_commitAll request.sectors content).trans tag)
  have right (whole : request.sector = none) : stopped.line.isComplete = true ∧
      stopped.line.crc = Crc32.ofArray (source.image.trackBytes request.track) := by
    have sectors : request.sectors = (List.range sectorsPerTrack).map UInt8.ofNat := by
      rw [Request.sectors, whole]
    simp only [stopped, sectors]
    exact core.line.crc_commitAll_image source.image onDisk
  obtain ⟨state, kept, entry, validated⟩ := Core.foldl_closing source named right
  rw [done, entered, Request.entries, entry]
  refine ⟨state, ?_, rfl, ?_⟩
  · intro number asked
    obtain ⟨bytes, found, read⟩ := core.line.sector?_commitAll_image source.image tag onDisk asked
    exact ⟨bytes, found, (kept _ _ _).trans read⟩
  · intro whole
    exact ⟨(validated whole).1, (validated whole).2.trans (right whole).2⟩

/-- Whatever the tokenizer holds, a reply is heard as it is. Ahead of it there are at most faults and a CRC. -/
theorem Tokenizer.feed_reply (t : Tokenizer) (source : ImageSource) (request : Request) :
    ∃ marks, (∀ event ∈ marks, (∃ cause, event = .error cause) ∨ ∃ crc, event = .trackCrc crc) ∧
      (t = {} → marks = []) ∧
      t.feed ((source.reply request).flatMap Message.encode) =
        ({}, marks ++ (source.reply request).flatMap Message.events) := by
  obtain ⟨marks, faults, pushed⟩ := @push_separator t 35 (by decide)
  obtain ⟨text, opens⟩ : ∃ text, (source.reply request).flatMap Message.encode = 35 :: text := by
    rcases request with ⟨track, _ | sector⟩ <;> exact ⟨_, rfl⟩
  have whole := feed_messages (source.reply request)
  rw [opens] at whole ⊢
  simp only [feed] at whole ⊢
  obtain ⟨idle, heard⟩ := Prod.mk.inj whole
  refine ⟨marks, faults, ?_, ?_⟩
  · rintro rfl
    exact List.self_eq_append_left.mp (congrArg Prod.snd pushed)
  · rw [pushed, List.append_assoc, heard, idle]

theorem volume_notMem_reply {marks : List StreamEvent}
    (faults : ∀ event ∈ marks, (∃ cause, event = .error cause) ∨ ∃ crc, event = .trackCrc crc)
    (source : ImageSource) (request : Request) (volume : UInt8) :
    .volume volume ∉ marks ++ (source.reply request).flatMap Message.events := by
  have mark : .volume volume ∉ marks := fun mem => by simpa using faults _ mem
  simp [mark, ImageSource.reply, Message.events, ImageSource.sectorMessage]

namespace Watch
variable {w : Watch}

/-- What the passes report as found right, one after the other. -/
def reports (w : Watch) : List (List UInt8) → List (Option UInt8)
  | [] => []
  | burst :: rest =>
    (w.client.service ({ received := burst } : Bench.Pipe) w.line w.volume).1.outcome.validatedTrack ::
      (w.step (burstCall burst)).reports rest

/-- Passes in which nothing comes, and no more of them in a row than the client puts up with. -/
def Patient (limit : ℕ) (bursts : List (List UInt8)) : Prop :=
  ∀ count, List.replicate count [] <:+: bursts → count ≤ limit

/-- The same after some passes in which nothing came, counted with those that follow at once. -/
structure Endures (limit retries : ℕ) (bursts : List (List UInt8)) : Prop where
  begun : ∀ count, List.replicate count [] <+: bursts → retries + count ≤ limit
  patient : Patient limit bursts

section
variable {limit retries : ℕ} {burst : List UInt8} {bursts : List (List UInt8)}

theorem Patient.endures (h : Patient limit bursts) : Endures limit 0 bursts where
  begun count front := by
    rw [Nat.zero_add]
    exact h count front.isInfix
  patient := h

theorem Endures.ready (h : Endures limit retries (burst :: bursts)) (nothing : burst = []) :
    retries + 1 ≤ limit :=
  h.begun 1 (by simp [nothing])

theorem Endures.rest (h : Endures limit retries (burst :: bursts)) {next : ℕ}
    (few : next ≤ if burst = [] then retries + 1 else 0) : Endures limit next bursts where
  begun count front := by
    by_cases nothing : burst = []
    · have more : List.replicate (count + 1) [] <+: burst :: bursts := by
        rw [List.replicate_succ, nothing]
        simpa using front
      have within := h.begun (count + 1) more
      rw [if_pos nothing] at few
      omega
    · have within := h.patient count (front.isInfix.trans (List.suffix_cons burst bursts).isInfix)
      rw [if_neg nothing] at few
      omega
  patient count inside := h.patient count (inside.trans (List.suffix_cons burst bursts).isInfix)

end

theorem Took.retryLimit {next : Watch} {text : List UInt8} (h : Took w next text) :
    next.client.retryLimit = w.client.retryLimit := by
  have same := congrArg Core.retryLimit h.core
  exact same.trans ((Core.retryLimit_foldl _ _).trans w.core.wake_retryLimit)

theorem wake_eq (awake : w.client.state ≠ .disconnected) : w.core.wake = w.core := Core.wake_of_ne awake

/-- A pass in which nothing comes, one of no more than the client puts up with. -/
theorem took_wait (awake : w.client.state ≠ .disconnected)
    (patient : w.client.retries.toNat + 1 ≤ w.client.retryLimit.toNat) :
    Took w (w.step (burstCall [])) [] ∧ (w.step (burstCall [])).client.tokenizer = w.client.tokenizer ∧
      (w.step (burstCall [])).client.retries.toNat ≤ w.client.retries.toNat + 1 := by
  have waited := w.client.core_service_nil ({} : Bench.Pipe) w.line w.volume rfl rfl
  have core : (w.step (burstCall [])).core = { w.core.wake.wait with inserted := false } :=
    congrArg (fun core : Core => { core with inserted := false }) waited
  obtain ⟨more, few⟩ : (w.core.retries + 1).toNat = w.core.retries.toNat + 1 ∧ ¬ w.core.retryLimit < w.core.retries + 1 :=
    Core.count_within patient
  have rests : w.core.wait.bare = w.core.bare ∧ w.core.wait.tokenizer = w.core.tokenizer ∧
      w.core.wait.retries.toNat ≤ w.core.retries.toNat + 1 := by
    by_cases reading : w.core.state = .reading
    · rw [Core.wait, if_pos reading, if_neg few]
      exact ⟨rfl, rfl, more.le⟩
    · rw [Core.wait, if_neg reading]
      exact ⟨rfl, rfl, Nat.le_succ _⟩
  obtain ⟨bare, tokenizer, retries⟩ := rests
  have stats := (w.client.enters_service_nil ({} : Bench.Pipe) w.line w.volume rfl rfl fun _ => patient).1
  rw [wake_eq awake] at core
  refine ⟨⟨?_, stats⟩, (congrArg Core.tokenizer core).trans tokenizer,
    (congrArg (·.retries.toNat) core).trans_le retries⟩
  rw [core, wake_eq awake]
  exact bare

theorem report_pass (awake : w.client.state ≠ .disconnected) {burst : List UInt8}
    (short : burst.length ≤ Client.burstSize)
    (patient : burst = [] → w.client.retries.toNat + 1 ≤ w.client.retryLimit.toNat) :
    (w.client.service ({ received := burst } : Bench.Pipe) w.line w.volume).1.outcome.validatedTrack =
      validatedTrack (w.core.entries (w.client.tokenizer.feed burst).2) := by
  have read : (Transport.read ({ received := burst } : Bench.Pipe) Client.burstSize).1 = burst :=
    List.take_of_length_le short
  by_cases nothing : burst = []
  · subst nothing
    exact (w.client.enters_service_nil ({} : Bench.Pipe) w.line w.volume rfl rfl fun _ => patient rfl).2
  · have report := (w.client.enters_service ({ received := burst } : Bench.Pipe) w.line w.volume rfl
      (by rwa [read])).2
    have same : (w.client.core w.line w.volume).wake = w.core := wake_eq awake
    rwa [read, same] at report

theorem took_pass (awake : w.client.state ≠ .disconnected) {burst : List UInt8}
    (short : burst.length ≤ Client.burstSize)
    (patient : burst = [] → w.client.retries.toNat + 1 ≤ w.client.retryLimit.toNat)
    (quiet : ∀ volume, .volume volume ∉ (w.client.tokenizer.feed burst).2) :
    Took w (w.step (burstCall burst)) burst ∧
      (w.step (burstCall burst)).client.tokenizer = (w.client.tokenizer.feed burst).1 ∧
      (w.step (burstCall burst)).client.retries.toNat ≤ if burst = [] then w.client.retries.toNat + 1 else 0 := by
  by_cases nothing : burst = []
  · subst nothing
    exact took_wait awake (patient rfl)
  · have unclipped : ¬ w.Clips burst := by
      rw [clips_iff nothing short]
      rintro ⟨announced, -⟩
      obtain ⟨volume, mem⟩ := Core.mem_of_inserted_take (Core.wake_inserted w.core) announced
      rw [Core.wake_tokenizer] at mem
      exact quiet volume mem
    rw [if_neg nothing]
    exact ⟨took_burst nothing short, (tokenizer_step nothing short).mpr unclipped,
      (congrArg UInt32.toNat (retries_step nothing short)).le⟩

theorem filterMap_getLast?_cons {found : List UInt8} (few : found.length ≤ 1) (reports : List (Option UInt8)) :
    (found.getLast? :: reports).filterMap id = found ++ reports.filterMap id := by
  rcases found with _ | ⟨track, _ | ⟨_, _⟩⟩
  · rfl
  · rfl
  · simp at few

/-- A text in which no disk is announced is taken whole, however it is cut and whatever passes come in between. -/
theorem took_deliver {bursts : List (List UInt8)} (awake : w.client.state ≠ .disconnected)
    (short : ∀ burst ∈ bursts, burst.length ≤ Client.burstSize)
    (endures : Endures w.client.retryLimit.toNat w.client.retries.toNat bursts)
    (quiet : ∀ volume, .volume volume ∉ (w.client.tokenizer.feed bursts.flatten).2) :
    let entries := w.core.entries (w.client.tokenizer.feed bursts.flatten).2
    Took w (w.deliver bursts) bursts.flatten ∧
      (w.deliver bursts).client.tokenizer = (w.client.tokenizer.feed bursts.flatten).1 ∧
      ((entries.filterMap Entry.track?).length ≤ 1 →
        (w.reports bursts).filterMap id = entries.filterMap Entry.track?) := by
  induction bursts generalizing w with
  | nil =>
    refine ⟨⟨congrArg Core.bare (wake_eq awake).symm, rfl⟩, rfl, fun _ => rfl⟩
  | cons burst bursts ih =>
    let mid := w.step (burstCall burst)
    have both := w.client.tokenizer.feed_append burst bursts.flatten
    rw [← List.flatten_cons] at both
    rw [both] at quiet ⊢
    simp only [List.mem_append, not_or] at quiet
    obtain ⟨took, moved, retries⟩ := took_pass awake (short burst (by simp)) endures.ready
      fun volume => (quiet volume).1
    have later : Endures mid.client.retryLimit.toNat mid.client.retries.toNat bursts := by
      rw [took.retryLimit]
      exact endures.rest retries
    obtain ⟨rest, tokenizer, reported⟩ := @ih mid took.awake (fun b mem => short b (List.mem_cons_of_mem _ mem))
      later (by rw [moved]; exact fun volume => (quiet volume).2)
    rw [moved] at tokenizer reported
    have core : mid.core.bare = ((w.client.tokenizer.feed burst).2.foldl Core.apply w.core).bare := by
      rw [took.core, wake_eq awake]
    refine ⟨took.append moved rest, tokenizer, ?_⟩
    rw [Core.entries_append, ← Core.entries_eq_of_bare core, List.filterMap_append, reports,
      report_pass awake (short burst (by simp)) endures.ready, validatedTrack]
    intro few
    rw [List.length_append] at few
    rw [filterMap_getLast?_cons (by omega), reported (by omega)]

end Watch

theorem Client.request_accepted {τ : Type} [Transport τ] (client : Client) (transport : τ) (line : TrackLine)
    (volume : UInt8) (request : Request) (ready : client.state = .inserted)
    (room : neededRoom request ≤ Transport.room transport) :
    let result := client.request transport line volume request
    result.1 = true ∧ result.2.2 = Transport.send transport request.encode ∧
      result.2.1.client.stats = { client.stats with requests := client.stats.requests + 1 } := by
  unfold Client.request
  rw [if_neg (not_not.mpr ready), if_neg (Nat.not_lt.mpr room)]
  exact ⟨rfl, rfl, (Desk.enters_setState _ .reading).stats⟩

namespace Watch
variable {w : Watch}

theorem core_asked {pipe : Bench.Pipe} {request : Request} (volume : UInt8) (ready : w.client.state = .inserted)
    (room : 6 ≤ pipe.room) :
    (w.step (.request pipe request volume)).core =
      { w.core with
        line := w.line.retag request.track volume, assembly := none, retries := 0, state := .reading } := by
  have asked := w.client.core_request pipe w.line volume request
  have fits : Client.neededRoom request ≤ Transport.room pipe := (Client.neededRoom_le request).trans room
  have awaited : (w.client.core w.line volume).state = .inserted := ready
  rw [Core.request, if_neg (not_not.mpr awaited), if_pos (by simpa using fits)] at asked
  exact congrArg (fun core : Core => { core with volume := w.volume, inserted := false }) asked

/-- A client that has asked gets the reply. -/
theorem took_reply {asked : Watch} (source : ImageSource) {request : Request} {volume : UInt8}
    {bursts : List (List UInt8)} (tag : asked.core.line.tag = (some request.track, volume))
    (free : asked.core.assembly = none) (reading : asked.core.state = .reading) (fresh : asked.core.retries = 0)
    (onDisk : request.track.toNat < trackCount) (short : ∀ burst ∈ bursts, burst.length ≤ Client.burstSize)
    (patient : Patient asked.client.retryLimit.toNat bursts)
    (text : bursts.flatten = (source.reply request).flatMap Message.encode) :
    let served := asked.deliver bursts
    served.client.state = .inserted ∧
      (∀ number ∈ request.sectors, ∃ bytes, source.image.sector? request.track number = some bytes ∧
        served.line.sector? request.track volume number = some bytes) ∧
      (asked.client.tokenizer = {} → served.client.stats = { asked.client.stats with
            bytesReceived := asked.client.stats.bytesReceived + bursts.flatten.length
            sectorsCommitted := asked.client.stats.sectorsCommitted + request.sectors.length
            tracksValidated := asked.client.stats.tracksValidated + if request.sector = none then 1 else 0 } ∧
        (asked.reports bursts).filterMap id = (if request.sector = none then [request.track] else []) ∧
        (request.sector = none → served.line.validated = true)) := by
  intro served
  have awake : asked.client.state ≠ .disconnected := fun off => nomatch reading.symm.trans off
  obtain ⟨marks, faults, alone, heard⟩ := asked.client.tokenizer.feed_reply source request
  have endures : Endures asked.client.retryLimit.toNat asked.client.retries.toNat bursts := by
    rw [show asked.client.retries = 0 from fresh]
    exact patient.endures
  have quiet := volume_notMem_reply faults source request
  have delivered := took_deliver awake short endures (by rwa [text, heard])
  rw [text, heard] at delivered
  obtain ⟨⟨core, stats⟩, -, reported⟩ := delivered
  rw [heard, wake_eq awake] at core stats
  rw [List.foldl_append] at core
  obtain ⟨state, -, assembly, tags⟩ := Core.foldl_marks faults asked.core
  obtain ⟨stopped, readable, entered, validated⟩ := Core.foldl_reply source (tags.trans tag)
    (assembly.trans free) (state.trans reading) onDisk
  have line := congrArg Core.line core
  refine ⟨(congrArg Core.state core).trans stopped, ?_, ?_⟩
  · intro number asks
    obtain ⟨bytes, found, read⟩ := readable number asks
    exact ⟨bytes, found, (congrArg (·.sector? request.track volume number) line).trans read⟩
  · intro idle
    obtain rfl := alone idle
    rw [List.foldl_nil] at entered
    dsimp only [List.nil_append] at stats reported
    rw [entered] at stats reported
    refine ⟨?_, ?_, fun whole => (congrArg TrackLine.validated line).trans (validated whole).1⟩
    · rw [stats, ← text, Request.enter_entries]
      rfl
    · rw [Request.track?_entries] at reported
      apply reported
      split <;> simp

/-- A client that asks gets what it asked for, if the answer comes in bursts with no more empty passes in a row
than it puts up with. If nothing of another text was begun, nothing goes wrong, and a whole track is found right
in one pass. -/
theorem request_answered (w : Watch) (pipe : Bench.Pipe) (request : Request) (volume : UInt8)
    (source : ImageSource) (bursts : List (List UInt8)) (ready : w.client.state = .inserted)
    (room : 6 ≤ pipe.room) (onDisk : request.track.toNat < trackCount) (idle : source.line = [])
    (short : ∀ burst ∈ bursts, burst.length ≤ Client.burstSize) (patient : Patient w.client.retryLimit.toNat bursts)
    (answer : bursts.flatten = (source.feed request.encode).1.flatten.flatMap Message.encode) :
    let result := w.client.request pipe w.line volume request
    let asked := w.step (.request pipe request volume)
    let served := asked.deliver bursts
    (result.1 = true ∧ result.2.2.sent = pipe.sent ++ request.encode) ∧ served.client.state = .inserted ∧
      (∀ number ∈ request.sectors, ∃ bytes, source.image.sector? request.track number = some bytes ∧
        served.line.sector? request.track volume number = some bytes) ∧
      (w.client.tokenizer = {} →
        served.client.stats =
          { w.client.stats with
            requests := w.client.stats.requests + 1
            bytesReceived := w.client.stats.bytesReceived + bursts.flatten.length
            sectorsCommitted := w.client.stats.sectorsCommitted + request.sectors.length
            tracksValidated := w.client.stats.tracksValidated + if request.sector = none then 1 else 0 } ∧
        (asked.reports bursts).filterMap id = (if request.sector = none then [request.track] else []) ∧
        (request.sector = none → served.line.validated = true)) := by
  intro result asked served
  obtain ⟨accepted, sent, stats⟩ := w.client.request_accepted pipe w.line volume request ready
    ((Client.neededRoom_le request).trans room)
  have core : asked.core = _ := core_asked volume ready room
  have tag : asked.core.line.tag = (some request.track, volume) := by
    rw [core]
    exact w.line.tag_retag request.track volume
  have limit : asked.client.retryLimit = w.client.retryLimit := congrArg Core.retryLimit core
  have tokenizer : asked.client.tokenizer = w.client.tokenizer := congrArg Core.tokenizer core
  have text : bursts.flatten = (source.reply request).flatMap Message.encode := by
    rw [answer, source.feed_request idle request onDisk, List.flatten_singleton]
  obtain ⟨stopped, readable, clean⟩ := took_reply source tag (congrArg Core.assembly core)
    (congrArg Core.state core) (congrArg Core.retries core) onDisk short (by rwa [limit]) text
  refine ⟨⟨accepted, congrArg Bench.Pipe.sent sent⟩, stopped, readable, ?_⟩
  intro nothing
  have counted : asked.client.stats = { w.client.stats with requests := w.client.stats.requests + 1 } := stats
  rw [tokenizer, counted] at clean
  exact clean nothing

/-- A client that has heard of a disk, and whose transfers are of whole tracks. -/
def inserted : Watch := (start 1000 true {} 254).run [.service { received := [64, 102, 101, 10] }]

/-- Track 17 of a disk comes byte by byte, after a pass in which nothing comes. -/
theorem request_answered_bytewise :
    let source : ImageSource := { image := .pattern, volume := 254 }
    let request : Request := ⟨17, none⟩
    let text := (source.feed request.encode).1.flatten.flatMap Message.encode
    let bursts := [] :: text.map ([·])
    inserted.client.state = .inserted ∧ inserted.client.tokenizer = {} ∧ source.line = [] ∧
      (∀ burst ∈ bursts, burst.length ≤ Client.burstSize) ∧ Patient inserted.client.retryLimit.toNat bursts ∧
      bursts.flatten = text ∧
      ((inserted.step (.request {} request 254)).deliver bursts).client.state = .inserted ∧
      ((inserted.step (.request {} request 254)).deliver bursts).line.validated = true := by
  intro source request text bursts
  have ready : inserted.client.state = .inserted := by decide +kernel
  have idle : inserted.client.tokenizer = {} := by decide +kernel
  have limit : inserted.client.retryLimit.toNat = 1000 := by decide +kernel
  have short : ∀ burst ∈ bursts, burst.length ≤ Client.burstSize := by
    simp [bursts, Client.burstSize]
  have patient : Patient inserted.client.retryLimit.toNat bursts := by
    intro count inside
    have few := List.replicate_sublist_iff.mp inside.sublist
    have one : bursts.count [] = 1 := by simp [bursts, List.count_eq_zero]
    omega
  have flat : bursts.flatten = text := by
    rw [List.flatten_cons, List.nil_append, flatten_singles]
  obtain ⟨-, stopped, -, clean⟩ :=
    request_answered inserted {} request 254 source bursts ready (by decide) (by decide) rfl short patient flat
  exact ⟨ready, idle, rfl, short, patient, flat, stopped, (clean idle).2.2 rfl⟩

end Watch
end Floppy.Fetch
