import Floppy.Proofs.Fetch.Exchange

/-!
# The mark of a validated line

A line is marked as validated when the CRC of the source was compared with that of the data, and the mark goes
with the tag. What comes later can make it wrong: another CRC for the same track, or a sector that is sent again
with other bytes. `checked_iff` says that nothing else does.
-/
namespace Floppy

namespace TrackLine

/-- A line that is marked has all of its sectors, and a CRC was given for it. -/
def Marked (line : TrackLine) : Prop :=
  line.validated = true → line.isComplete = true ∧ line.lastCrc.isSome = true

/-- A mark is right: the CRC that was given last is that of the data. -/
def Checked (line : TrackLine) : Prop :=
  line.validated = true → line.isComplete = true ∧ line.lastCrc = some line.crc

variable {line next : TrackLine}

theorem Checked.of_unmarked (h : line.validated = false) : line.Checked := by simp [Checked, h]

theorem Marked.of_unmarked (h : line.validated = false) : line.Marked := by simp [Marked, h]

theorem isComplete_commit (complete : line.isComplete = true) (sector : UInt8) (bytes : Sector) :
    (line.commit sector bytes).isComplete = true := by
  apply isComplete_of_forall
  intro i
  have all : line.valid = .replicate 16 true := by simpa [isComplete] using complete
  have kept := get_set line.valid (sectorIndex sector) i true
  rw [all] at kept
  rw [commit, all, kept]
  split
  case isTrue => rfl
  case isFalse => simp [Vector.get]

theorem Checked.iff_of_kept (h : line.Checked) (validated : next.validated = line.validated)
    (lastCrc : next.lastCrc = line.lastCrc) (complete : line.isComplete = true → next.isComplete = true) :
    next.Checked ↔ (line.validated = true → next.crc = line.crc) := by
  constructor
  · intro checked marked
    have given := (h marked).2
    have after := (checked (validated.trans marked)).2
    rw [lastCrc, given] at after
    exact (Option.some.inj after).symm
  · intro same marked
    have before := validated.symm.trans marked
    obtain ⟨whole, given⟩ := h before
    exact ⟨complete whole, by rw [lastCrc, given, same before]⟩

end TrackLine

namespace Fetch

namespace Core
variable {core : Core}

/-- On a line that is marked, the event changes the CRC of the data or gives another one than that. -/
def Spoils (core : Core) (event : StreamEvent) : Prop :=
  core.line.validated = true ∧
    ((core.apply event).line.crc ≠ core.line.crc ∨ ∃ crc, event = .trackCrc crc ∧ crc ≠ core.line.crc)

def SpoiledBy (core : Core) (events : List StreamEvent) : Prop :=
  ∃ before event after, events = before ++ event :: after ∧ (before.foldl apply core).Spoils event

/-- Apart from the CRC, an event commits a sector, flushes the line or leaves it alone. -/
theorem line_apply (core : Core) (event : StreamEvent) :
    (∃ crc, event = .trackCrc crc) ∨ (∀ crc, event ≠ .trackCrc crc) ∧
      ((core.apply event).line = core.line ∨ (core.apply event).line = core.line.flush ∨
        ∃ sector bytes, (core.apply event).line = core.line.commit sector bytes) := by
  have effect := core.effect event
  generalize core.apply event = next at effect ⊢
  cases effect with
  | assembly other => exact .inr ⟨other, .inl rfl⟩
  | commit checksum sector bytes => exact .inr ⟨nofun, .inr (.inr ⟨sector, bytes, rfl⟩)⟩
  | transferEnd => exact .inr ⟨nofun, .inl rfl⟩
  | trackCrc crc => exact .inl ⟨crc, rfl⟩
  | announce volume =>
    refine .inr ⟨nofun, ?_⟩
    by_cases reading : core.state = .reading
    · rw [announce, if_pos reading]
      exact .inl rfl
    · rw [announce, if_neg reading]
      exact .inr (.inl rfl)

/-- A sector that is sent again leaves the line complete, and only a complete line is marked. -/
theorem marked_apply (h : core.line.Marked) (event : StreamEvent) : (core.apply event).line.Marked := by
  rcases core.line_apply event with ⟨crc, rfl⟩ | ⟨-, same | flushed | ⟨sector, bytes, committed⟩⟩
  · rw [apply, line_trackCrc]
    by_cases right : core.line.isComplete = true ∧ core.line.crc = crc
    · rw [if_pos right]
      exact fun _ => ⟨right.1, rfl⟩
    · rw [if_neg right]
      exact fun validated => ⟨(h validated).1, rfl⟩
  · rwa [same]
  · rw [flushed]
    exact .of_unmarked rfl
  · intro validated
    rw [committed] at validated ⊢
    obtain ⟨complete, given⟩ := h validated
    exact ⟨TrackLine.isComplete_commit complete sector bytes, given⟩

theorem checked_trackCrc_iff (h : core.line.Checked) (crc : UInt32) :
    (core.trackCrc crc).line.Checked ↔ (core.line.validated = true → crc = core.line.crc) := by
  rw [line_trackCrc]
  by_cases right : core.line.isComplete = true ∧ core.line.crc = crc
  · rw [if_pos right]
    have found : (core.line.validate crc).Checked := fun _ => ⟨right.1, congrArg some right.2.symm⟩
    exact ⟨fun _ _ => right.2.symm, fun _ => found⟩
  · rw [if_neg right]
    constructor
    · intro checked validated
      exact Option.some.inj (checked validated).2
    · intro same validated
      exact absurd ⟨(h validated).1, (same validated).symm⟩ right

/-- A mark that is right stays so, exactly unless the event spoils it. -/
theorem checked_apply_iff (h : core.line.Checked) (event : StreamEvent) :
    (core.apply event).line.Checked ↔ ¬ core.Spoils event := by
  rcases core.line_apply event with ⟨crc, rfl⟩ | ⟨other, cases⟩
  · have spoils : core.Spoils (.trackCrc crc) ↔ core.line.validated = true ∧ crc ≠ core.line.crc := by
      simp [Spoils, apply, crc_trackCrc]
    rw [apply, checked_trackCrc_iff h, spoils, not_and, not_ne_iff]
  · have spoils : core.Spoils event ↔
        core.line.validated = true ∧ (core.apply event).line.crc ≠ core.line.crc := by
      simp [Spoils, other]
    rw [spoils, not_and, not_ne_iff]
    rcases cases with same | flushed | ⟨sector, bytes, committed⟩
    · rw [same]
      simp [h]
    · rw [flushed]
      exact ⟨fun _ _ => rfl, fun _ => .of_unmarked rfl⟩
    · rw [committed]
      exact h.iff_of_kept rfl rfl fun complete => TrackLine.isComplete_commit complete sector bytes

theorem marked_foldl (h : core.line.Marked) (events : List StreamEvent) :
    (events.foldl apply core).line.Marked :=
  List.foldlRecOn events apply (motive := fun core => core.line.Marked) h fun _ marked event _ =>
    marked_apply marked event

theorem checked_foldl (h : core.line.Checked) (events : List StreamEvent) (unspoiled : ¬ core.SpoiledBy events) :
    (events.foldl apply core).line.Checked := by
  induction events using List.reverseRecOn with
  | nil => exact h
  | append_singleton events event ih =>
    have before : ¬ core.SpoiledBy events := by
      rintro ⟨early, e, late, rfl, spoils⟩
      exact unspoiled ⟨early, e, late ++ [event], by simp, spoils⟩
    have last : ¬ (events.foldl apply core).Spoils event := fun spoils =>
      unspoiled ⟨events, event, [], rfl, spoils⟩
    rw [List.foldl_append]
    exact (checked_apply_iff (ih before) event).mpr last

theorem unchecked_of_other {core : Core} (validated : core.line.validated = true) {other : UInt32}
    (apart : core.line.crc ≠ other) :
    ¬ ((Message.transferEnd (some other)).events.foldl apply core).line.Checked := by
  have wrong : ¬ (core.transferEnd.line.isComplete = true ∧ core.transferEnd.line.crc = other) :=
    fun both => apart both.2
  show ¬ (core.transferEnd.trackCrc other).line.Checked
  rw [line_trackCrc, if_neg wrong]
  intro checked
  exact apart (Option.some.inj (checked validated).2).symm

end Core

theorem Core.line_of_quiet {events : List StreamEvent} (quiet : ∀ event ∈ events, event.isQuiet = true)
    (core : Core) : (events.foldl apply core).line = core.line := by
  apply List.foldlRecOn events apply (motive := fun next => next.line = core.line) rfl
  intro next same event mem
  have said := quiet event mem
  cases event with
  | transferEnd => exact same
  | error cause => exact same
  | _ => cases said

theorem Core.Spoils.not_quiet {core : Core} {event : StreamEvent} (h : core.Spoils event) :
    event.isQuiet = false := by
  obtain ⟨-, changed | ⟨crc, rfl, -⟩⟩ := h
  · cases event with
    | transferEnd => exact absurd rfl changed
    | error cause => exact absurd rfl changed
    | _ => rfl
  · rfl

namespace Tokenizer

theorem quiet_scan_tail (t : Tokenizer) (byte : UInt8) :
    ∀ event ∈ (t.scan byte).2.tail, event.isQuiet = true := by
  rcases t.scan_events byte with quiet | ⟨-, value, single⟩
  · exact fun event mem => quiet event (List.mem_of_mem_tail mem)
  · simp [single]

/-- A byte is heard as one event at most, apart from the end and faults, and as that first. -/
theorem quiet_push_tail (t : Tokenizer) (byte : UInt8) :
    ∀ event ∈ (t.push byte).2.tail, event.isQuiet = true := by
  rcases t with ⟨_ | ⟨kind, digits, value⟩, half⟩
  · exact quiet_scan_tail _ byte
  · cases digit : Hex.digit? byte with
    | some d =>
      simp only [push, digit]
      split <;> simp
    | none =>
      have quiet := (scan_events { half } byte).resolve_right fun loud => loud.1 digit
      simp only [push, digit]
      cases cut : kind.cut digits value byte with
      | nil => exact quiet_scan_tail _ byte
      | cons event rest =>
        have single : rest = [] := by
          cases kind <;> cases digits <;> simp_all [TokenKind.cut]
        rw [single]
        exact quiet

/-- Every event that is not quiet is the first that a byte is heard as. -/
theorem exists_byte {t : Tokenizer} {bytes : List UInt8} {before after : List StreamEvent} {event : StreamEvent}
    (heard : (t.feed bytes).2 = before ++ event :: after) (loud : event.isQuiet = false) :
    ∃ count rest, (t.feed (bytes.take count)).2 = before ∧
      (t.feed (bytes.take (count + 1))).2 = before ++ event :: rest ∧ ∀ e ∈ rest, e.isQuiet = true := by
  induction bytes generalizing t before with
  | nil => simp [feed] at heard
  | cons byte bytes ih =>
    have tail := t.quiet_push_tail byte
    have first (count : ℕ) : (t.feed ((byte :: bytes).take (count + 1))).2 =
        (t.push byte).2 ++ ((t.push byte).1.feed (bytes.take count)).2 := rfl
    have whole : (t.feed (byte :: bytes)).2 = (t.push byte).2 ++ ((t.push byte).1.feed bytes).2 := rfl
    rw [whole] at heard
    have goOn (late : List StreamEvent) (split : before = (t.push byte).2 ++ late)
        (later : ((t.push byte).1.feed bytes).2 = late ++ event :: after) :
        ∃ count rest, (t.feed ((byte :: bytes).take count)).2 = before ∧
          (t.feed ((byte :: bytes).take (count + 1))).2 = before ++ event :: rest ∧
          ∀ e ∈ rest, e.isQuiet = true := by
      obtain ⟨count, rest, ends, goes, quiet⟩ := ih later
      refine ⟨count + 1, rest, ?_, ?_, quiet⟩
      · rw [first, ends, split]
      · rw [first, goes, split, List.append_assoc]
    rcases List.append_eq_append_iff.mp heard with ⟨late, split, later⟩ | ⟨early, split, later⟩
    · exact goOn late split later
    · cases early with
      | nil => exact goOn [] (by simpa using split.symm) later.symm
      | cons e rest =>
        obtain rfl : event = e := (List.cons.inj later).1
        rw [split] at tail
        cases before with
        | nil => exact ⟨0, rest, rfl, by simp [split, feed], by simpa using tail⟩
        | cons b before =>
          have quiet := tail event (by simp)
          simp [loud] at quiet

end Tokenizer

/-- The call, with no more than the first bytes of what comes in it. -/
def Call.cut (count : ℕ) : Call → Call
  | .service pipe => .service { pipe with received := pipe.received.take count }
  | call => call

namespace Watch
variable {w : Watch}

/-- What is heard in a call. -/
def events (w : Watch) : Call → List StreamEvent
  | .service pipe =>
    if pipe.online then (w.client.tokenizer.feed (pipe.received.take Client.burstSize)).2 else []
  | _ => []

theorem events_online {pipe : Bench.Pipe} (online : pipe.online = true) :
    w.events (.service pipe) = (w.client.tokenizer.feed (pipe.received.take Client.burstSize)).2 :=
  if_pos online

theorem events_offline {pipe : Bench.Pipe} (offline : ¬ pipe.online = true) : w.events (.service pipe) = [] :=
  if_neg offline

def Spoils (w : Watch) (call : Call) : Prop := w.core.wake.SpoiledBy (w.events call)

theorem line_service {pipe : Bench.Pipe} (online : pipe.online = true) :
    (w.step (.service pipe)).line = ((w.events (.service pipe)).foldl Core.apply w.core.wake).line := by
  rw [events_online online]
  by_cases nothing : pipe.received.take Client.burstSize = []
  · have waited := w.client.core_service_nil pipe w.line w.volume online nothing
    rw [nothing]
    exact (congrArg Core.line waited).trans (Core.wait_line _)
  · have taken := w.client.core_service_cons pipe w.line w.volume online nothing
    have bare := w.core.wake.bare_take (pipe.received.take Client.burstSize)
    rw [Core.wake_tokenizer] at bare
    have applied := congrArg Core.line bare
    exact (congrArg Core.line taken).trans applied

/-- A call applies what is heard in it to the line, or it takes the mark away. -/
theorem line_step (w : Watch) (call : Call) :
    (w.step call).line = ((w.events call).foldl Core.apply w.core.wake).line ∨
      (w.step call).line.validated = false := by
  cases call with
  | service pipe =>
    by_cases online : pipe.online = true
    · exact .inl (line_service online)
    · have offline : pipe.online = false := by simpa using online
      have left := congrArg Core.line (w.client.core_service_offline pipe w.line w.volume offline)
      have woken : w.core.wake.line = w.line := w.core.wake_line
      rw [events_offline online, List.foldl_nil, woken]
      unfold Core.disconnect at left
      split at left
      case isTrue => exact .inl left
      case isFalse => exact .inr (congrArg TrackLine.validated left)
  | request pipe request volume =>
    have asked := congrArg Core.line (w.client.core_request pipe w.line volume request)
    have retagged : (w.step (.request pipe request volume)).line = w.line ∨
        (w.step (.request pipe request volume)).line = w.line.retag request.track volume := by
      unfold Core.request at asked
      split at asked
      case isTrue => exact .inl asked
      case isFalse => split at asked <;> exact .inr asked
    have silent : ((w.events (.request pipe request volume)).foldl Core.apply w.core.wake).line = w.line :=
      w.core.wake_line
    rw [silent]
    rcases retagged with same | turned
    · exact .inl same
    · rw [turned, TrackLine.retag]
      split
      case isTrue => exact .inl rfl
      case isFalse => exact .inr rfl
  | restart => exact .inl w.core.wake_line.symm

theorem marked_step (h : w.line.Marked) (call : Call) : (w.step call).line.Marked := by
  have woken : w.core.wake.line.Marked := by rwa [Core.wake_line]
  rcases w.line_step call with applied | unmarked
  · rw [applied]
    exact Core.marked_foldl woken _
  · exact .of_unmarked unmarked

theorem checked_step (h : w.line.Checked) (call : Call) (unspoiled : ¬ w.Spoils call) :
    (w.step call).line.Checked := by
  have woken : w.core.wake.line.Checked := by rwa [Core.wake_line]
  rcases w.line_step call with applied | unmarked
  · rw [applied]
    exact Core.checked_foldl woken _ unspoiled
  · exact .of_unmarked unmarked

theorem events_cut {pipe : Bench.Pipe} (online : pipe.online = true) (count : ℕ) :
    w.events ((Call.service pipe).cut count) =
      (w.client.tokenizer.feed ((pipe.received.take Client.burstSize).take count)).2 := by
  rw [List.take_take, Nat.min_comm, ← List.take_take]
  exact events_online online

theorem events_cut_prefix (w : Watch) (call : Call) (count : ℕ) : w.events (call.cut count) <+: w.events call := by
  cases call with
  | service pipe =>
    by_cases online : pipe.online = true
    · have split := w.client.tokenizer.feed_append ((pipe.received.take Client.burstSize).take count)
        ((pipe.received.take Client.burstSize).drop count)
      rw [List.take_append_drop] at split
      rw [events_cut online, events_online online, split]
      exact List.prefix_append _ _
    · have cut : ¬ ({ pipe with received := pipe.received.take count } : Bench.Pipe).online = true := online
      rw [Call.cut, events_offline cut, events_offline online]
  | request pipe request volume => exact List.prefix_rfl
  | restart => exact List.prefix_rfl

/-- What spoils a mark shows, if no more bytes come in the call than it takes. -/
theorem not_spoils_of_cut {call : Call} (checked : ∀ count, (w.step (call.cut count)).line.Checked) :
    ¬ w.Spoils call := by
  rintro ⟨before, event, after, heard, spoils⟩
  cases call with
  | service pipe =>
    by_cases online : pipe.online = true
    · have short (count : ℕ) : (w.step ((Call.service pipe).cut count)).line =
          ((w.client.tokenizer.feed ((pipe.received.take Client.burstSize).take count)).2.foldl
            Core.apply w.core.wake).line := by
        rw [← events_cut online]
        exact line_service online
      rw [events_online online] at heard
      obtain ⟨count, rest, ends, goes, quiet⟩ := Tokenizer.exists_byte heard spoils.not_quiet
      have so_far := checked count
      have past := checked (count + 1)
      rw [short, ends] at so_far
      rw [short, goes, List.foldl_append, List.foldl_cons, Core.line_of_quiet quiet] at past
      exact (Core.checked_apply_iff so_far event).mp past spoils
    · simp [events_offline online] at heard
  | request pipe request volume => simp [events] at heard
  | restart => simp [events] at heard

theorem marked_run (h : w.line.Marked) (calls : List Call) : (w.run calls).line.Marked := by
  induction calls generalizing w with
  | nil => exact h
  | cons call calls ih => exact ih (marked_step h call)

theorem checked_run (h : w.line.Checked) (calls : List Call)
    (unspoiled : ∀ before call after, calls = before ++ call :: after → ¬ (w.run before).Spoils call) :
    (w.run calls).line.Checked := by
  induction calls generalizing w with
  | nil => exact h
  | cons call calls ih =>
    refine ih (checked_step h call (unspoiled [] call calls rfl)) ?_
    intro before next after split
    exact unspoiled (call :: before) next after (by simp [split])

theorem Spoils.of_cut {call : Call} {count : ℕ} (h : w.Spoils (call.cut count)) : w.Spoils call := by
  obtain ⟨more, split⟩ := w.events_cut_prefix call count
  obtain ⟨before, event, after, heard, spoils⟩ := h
  exact ⟨before, event, after ++ more, by rw [← split, heard]; simp, spoils⟩

/-- The mark of the line is right whatever happens, and wherever the bytes of a call end: exactly as long as no
event of a call spoils it. In any case a line that is marked has all of its sectors and a CRC. -/
theorem checked_iff (retryLimit : UInt32) (wholeTrack : Bool) (trace : Trace) (volume : UInt8) (calls : List Call) :
    let w := start retryLimit wholeTrack trace volume
    (w.run calls).line.Marked ∧
      ((∀ before call after, calls = before ++ call :: after →
          ∀ count, ((w.run before).step (call.cut count)).line.Checked) ↔
        ∀ before call after, calls = before ++ call :: after → ¬ (w.run before).Spoils call) := by
  intro w
  refine ⟨marked_run (.of_unmarked rfl) calls, ?_, ?_⟩
  · intro checked before call after split
    exact not_spoils_of_cut (checked before call after split)
  · intro unspoiled before call after split count
    have so_far : (w.run before).line.Checked := by
      refine checked_run (.of_unmarked rfl) before fun early next late earlier => ?_
      exact unspoiled early next (late ++ call :: after) (by simp [split, earlier])
    exact checked_step so_far (call.cut count) fun spoils => unspoiled before call after split spoils.of_cut

/-- A track comes with the CRC of its data, and then with another: the line stays marked. -/
theorem unchecked_of_recheck {asked : Watch} (source : ImageSource) {request : Request} {volume : UInt8}
    (tag : asked.core.line.tag = (some request.track, volume)) (free : asked.core.assembly = none)
    (reading : asked.core.state = .reading) (idle : asked.client.tokenizer = {})
    (onDisk : request.track.toNat < trackCount) (whole : request.sector = none) {other : UInt32}
    (apart : Crc32.ofArray (source.image.trackBytes request.track) ≠ other) :
    let messages := source.reply request ++ [Message.transferEnd (some other)]
    ¬ (asked.deliver ((messages.flatMap Message.encode).map ([·]))).line.Checked := by
  intro messages
  have awake : asked.client.state ≠ .disconnected := fun off => nomatch reading.symm.trans off
  have text : messages.flatMap Message.encode ≠ [] := by simp [messages, Message.encode]
  have heard : (asked.client.tokenizer.feed (messages.flatMap Message.encode)).2 =
      (source.reply request).flatMap Message.events ++ (Message.transferEnd (some other)).events := by
    rw [idle, Tokenizer.feed_messages]
    simp [messages]
  have tidy : asked.core.tokenizer.Tidy := .inl (congrArg Tokenizer.token idle)
  have line := congrArg Core.line (took_bytes tidy text).1.core
  rw [heard, wake_eq awake, List.foldl_append] at line
  obtain ⟨-, -, -, right⟩ := Core.foldl_reply source tag free reading onDisk
  obtain ⟨validated, crc⟩ := right whole
  have unchecked := Core.unchecked_of_other validated (crc.trans_ne apart)
  exact fun checked => unchecked (line ▸ checked)

/-- Track 17 of a disk comes so. -/
def recheckedCalls : List Call :=
  let source : ImageSource := { image := .pattern, volume := 254 }
  let other := Crc32.ofArray (Image.pattern.trackBytes 17) + 1
  let messages := source.reply ⟨17, none⟩ ++ [Message.transferEnd (some other)]
  [.service { received := [64, 102, 101, 10] }, .request {} ⟨17, none⟩ 254] ++
    ((messages.flatMap Message.encode).map ([·])).map burstCall

theorem rechecked_unchecked : ¬ ((start 1000 true {} 254).run recheckedCalls).line.Checked := by
  let request : Request := ⟨17, none⟩
  let asked := inserted.step (.request {} request 254)
  have core : asked.core = _ := core_asked 254 (by decide +kernel) (by decide)
  have tag : asked.core.line.tag = (some request.track, 254) := by
    rw [core]
    exact inserted.line.tag_retag 17 254
  have idle : asked.client.tokenizer = {} := (congrArg Core.tokenizer core).trans (by decide +kernel)
  have apart : Crc32.ofArray (Image.pattern.trackBytes 17) ≠ Crc32.ofArray (Image.pattern.trackBytes 17) + 1 := by
    simp
  rw [recheckedCalls, run_append]
  exact unchecked_of_recheck { image := .pattern, volume := 254 } tag (congrArg Core.assembly core)
    (congrArg Core.state core) idle (by decide) rfl apart

end Watch

end Fetch
end Floppy
