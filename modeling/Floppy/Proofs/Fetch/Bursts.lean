import Floppy.Proofs.Fetch.Mistagging
import Floppy.Proofs.Fetch.Counters

/-!
# Where a text is cut into bursts

A burst is cut into tokens as a whole before its first event is applied. A disk that is announced makes the
client forget what the tokenizer holds, and that may be the beginning of a token that came after the
announcement in the same burst. Such a burst clips the text, and `deliveries_agree_iff` says that nothing else
makes a difference between two ways of cutting it.
-/
namespace Floppy.Fetch

namespace Tokenizer

variable {t : Tokenizer}

/-- The byte that completes an announcement leaves nothing behind. -/
theorem push_of_volume (h : t.Tidy) {byte volume : UInt8} (heard : .volume volume ∈ (t.push byte).2) :
    (t.push byte).1 = {} := by
  rcases t with ⟨_ | ⟨kind, digits, value⟩, half⟩
  · exact absurd heard (notMem_scan _ byte rfl nofun)
  · obtain rfl : half = none := h.resolve_left (by simp)
    cases digit : Hex.digit? byte with
    | some d =>
      by_cases complete : digits + 1 = kind.digits
      · simp only [push, digit, complete, if_true]
      · simp only [push, digit, complete, if_false] at heard
        cases heard
    | none =>
      simp only [push, digit] at heard
      rcases List.mem_append.mp heard with cut | scanned
      · cases kind <;> cases digits <;> simp [TokenKind.cut] at cut
      · exact absurd scanned (notMem_scan _ byte rfl nofun)

end Tokenizer

namespace Core

/-- Either no disk was announced, or the tokenizer was made to forget what it held. -/
def Keeps (t : Tokenizer) (core : Core) : Prop :=
  (core.inserted = false ∧ core.tokenizer = t) ∨ (core.inserted = true ∧ core.tokenizer = {})

/-- Only the announcement of a disk reaches the tokenizer, and no event changes the state but to `inserted`. -/
theorem apply_frame (core : Core) (event : StreamEvent) :
    ((core.apply event).state = core.state ∨ (core.apply event).state = .inserted) ∧
      ((∃ volume, event = .volume volume) ∨
        (core.apply event).inserted = core.inserted ∧ (core.apply event).tokenizer = core.tokenizer) := by
  have effect := core.effect event
  generalize core.apply event = next at effect ⊢
  cases effect with
  | assembly => exact ⟨.inl rfl, .inr ⟨rfl, rfl⟩⟩
  | commit => exact ⟨.inl rfl, .inr ⟨rfl, rfl⟩⟩
  | transferEnd =>
    refine ⟨?_, .inr ⟨rfl, rfl⟩⟩
    by_cases reading : core.state = .reading
    · exact .inr (if_pos reading)
    · exact .inl (if_neg reading)
  | trackCrc => exact ⟨.inl rfl, .inr ⟨rfl, rfl⟩⟩
  | announce volume =>
    refine ⟨?_, .inl ⟨volume, rfl⟩⟩
    by_cases reading : core.state = .reading
    · exact .inl (by simp [announce, reading])
    · exact .inr (by simp [announce, reading])

theorem Keeps.apply {t : Tokenizer} {core : Core} (h : core.Keeps t) (event : StreamEvent) :
    (core.apply event).Keeps t := by
  rcases (core.apply_frame event).2 with ⟨volume, rfl⟩ | ⟨inserted, tokenizer⟩
  · by_cases reading : core.state = .reading
    · rw [Core.apply, announce, if_pos reading]
      exact h
    · rw [Core.apply, announce, if_neg reading]
      exact .inr ⟨rfl, rfl⟩
  · rw [Keeps, inserted, tokenizer]
    exact h

theorem Keeps.foldl {t : Tokenizer} {core : Core} (h : core.Keeps t) (events : List StreamEvent) :
    (events.foldl Core.apply core).Keeps t :=
  List.foldlRecOn events Core.apply h fun _ kept event _ => kept.apply event

theorem awake_foldl {core : Core} (awake : core.state ≠ .disconnected) (events : List StreamEvent) :
    (events.foldl apply core).state ≠ .disconnected := by
  apply List.foldlRecOn events apply (motive := fun core => core.state ≠ .disconnected) awake
  intro core awake event _
  rcases (core.apply_frame event).1 with same | inserted
  · rwa [same]
  · simp [inserted]

theorem mem_of_inserted {core : Core} (before : core.inserted = false) {events : List StreamEvent}
    (announced : (events.foldl apply core).inserted = true) : ∃ volume, .volume volume ∈ events := by
  induction events generalizing core with
  | nil => simp [before] at announced
  | cons event events ih =>
    rcases (core.apply_frame event).2 with ⟨volume, rfl⟩ | ⟨same, -⟩
    · exact ⟨volume, by simp⟩
    · obtain ⟨volume, mem⟩ := ih (same.trans before) announced
      exact ⟨volume, List.mem_cons_of_mem _ mem⟩

theorem mem_of_inserted_take {core : Core} (before : core.inserted = false) {burst : List UInt8}
    (announced : (core.take burst).inserted = true) : ∃ volume, .volume volume ∈ (core.tokenizer.feed burst).2 := by
  have opened : ({ core with tokenizer := (core.tokenizer.feed burst).1, retries := 0 } : Core).inserted = false :=
    before
  exact mem_of_inserted opened announced

theorem retries_foldl {core : Core} (none : core.retries = 0) (events : List StreamEvent) :
    (events.foldl apply core).retries = 0 := by
  apply List.foldlRecOn events apply (motive := fun core => core.retries = 0) none
  intro core none event _
  have fewer := (core.apply_passes event).2.1
  rw [none] at fewer
  exact UInt32.toNat_inj.mp (Nat.le_zero.mp fewer)

theorem retryLimit_foldl (core : Core) (events : List StreamEvent) :
    (events.foldl apply core).retryLimit = core.retryLimit := by
  apply List.foldlRecOn events apply (motive := fun next => next.retryLimit = core.retryLimit) rfl
  intro next same event _
  exact (next.apply_passes event).1.trans same

theorem bare_take (core : Core) (burst : List UInt8) :
    (core.take burst).bare = ((core.tokenizer.feed burst).2.foldl apply core).bare := by
  have opened : ({ core with tokenizer := (core.tokenizer.feed burst).1, retries := 0 } : Core).bare =
      core.bare := rfl
  exact bare_foldl opened _

theorem tokenizer_take {core : Core} (before : core.inserted = false) (burst : List UInt8) :
    (core.take burst).tokenizer =
      if (core.take burst).inserted then {} else (core.tokenizer.feed burst).1 := by
  have kept : (core.take burst).Keeps (core.tokenizer.feed burst).1 := by
    apply Keeps.foldl
    exact .inl ⟨before, rfl⟩
  rcases kept with ⟨quiet, same⟩ | ⟨announced, forgotten⟩
  · simp [quiet, same]
  · simp [announced, forgotten]

@[simp] theorem wake_inserted (core : Core) : core.wake.inserted = core.inserted := by
  unfold wake
  split <;> rfl

@[simp] theorem wake_retryLimit (core : Core) : core.wake.retryLimit = core.retryLimit := by
  unfold wake
  split <;> rfl

theorem awake_wake (core : Core) : core.wake.state ≠ .disconnected := by
  by_cases off : core.state = .disconnected
  · simp [wake, off]
  · rwa [wake_of_ne off]

theorem ext_of_bare {a b : Core} (bare : a.bare = b.bare) (tokenizer : a.tokenizer = b.tokenizer)
    (retries : a.retries = b.retries) (inserted : a.inserted = b.inserted) : a = b := by
  rcases a with ⟨⟩
  rcases b with ⟨⟩
  simp_all [Core.bare, strip]

end Core

namespace Watch

/-- The bursts come one after the other, each in a pass of its own. -/
def deliver (w : Watch) (bursts : List (List UInt8)) : Watch := w.run (bursts.map burstCall)

def IsCut (bursts : List (List UInt8)) : Prop := ∀ burst ∈ bursts, burst ≠ [] ∧ burst.length ≤ Client.burstSize

theorem isCut_singles (bytes : List UInt8) : IsCut (bytes.map ([·])) := by
  intro burst mem
  obtain ⟨byte, -, rfl⟩ := List.mem_map.mp mem
  exact ⟨List.cons_ne_nil byte [], by simp [Client.burstSize]⟩

theorem flatten_singles (bytes : List UInt8) : (bytes.map ([·])).flatten = bytes := by
  rw [← List.flatMap_def, List.flatMap_singleton']

/-- The clients differ at most in their records. -/
structure Agrees (a b : Watch) : Prop where
  core : a.core = b.core
  stats : a.client.stats = b.client.stats

/-- In this burst a disk is announced, and at its end the tokenizer holds something. -/
def Clips (w : Watch) (burst : List UInt8) : Prop :=
  (w.client.service ({ received := burst } : Bench.Pipe) w.line w.volume).1.outcome.inserted = true ∧
    (w.client.tokenizer.feed burst).1 ≠ {}

/-- What a text does to a client, wherever it was cut: its events are applied one after the other. -/
structure Took (w next : Watch) (text : List UInt8) : Prop where
  core : next.core.bare = ((w.client.tokenizer.feed text).2.foldl Core.apply w.core.wake).bare
  stats : next.client.stats =
    (w.core.wake.entries (w.client.tokenizer.feed text).2).foldl FetchStats.enter
      (w.client.stats.receive text.length)

variable {w mid next : Watch} {burst : List UInt8}

theorem core_pass (some : burst ≠ []) (short : burst.length ≤ Client.burstSize) :
    (w.client.service ({ received := burst } : Bench.Pipe) w.line w.volume).1.core = w.core.wake.take burst := by
  have read : (Transport.read ({ received := burst } : Bench.Pipe) Client.burstSize).1 = burst :=
    List.take_of_length_le short
  have taken := w.client.core_service_cons ({ received := burst } : Bench.Pipe) w.line w.volume rfl
    (by rwa [read])
  rwa [read] at taken

theorem core_step (some : burst ≠ []) (short : burst.length ≤ Client.burstSize) :
    (w.step (burstCall burst)).core = { w.core.wake.take burst with inserted := false } :=
  congrArg (fun core : Core => { core with inserted := false }) (core_pass some short)

theorem clips_iff (some : burst ≠ []) (short : burst.length ≤ Client.burstSize) :
    w.Clips burst ↔
      (w.core.wake.take burst).inserted = true ∧ (w.core.tokenizer.feed burst).1 ≠ {} := by
  rw [Clips, ← core_pass some short]
  rfl

theorem tokenizer_step (some : burst ≠ []) (short : burst.length ≤ Client.burstSize) :
    (w.step (burstCall burst)).core.tokenizer = (w.core.tokenizer.feed burst).1 ↔ ¬ w.Clips burst := by
  have before : w.core.wake.inserted = false := Core.wake_inserted w.core
  rw [core_step some short, clips_iff some short, Core.tokenizer_take before, Core.wake_tokenizer]
  cases (w.core.wake.take burst).inserted with
  | true => simp [eq_comm]
  | false => simp

theorem took_burst (some : burst ≠ []) (short : burst.length ≤ Client.burstSize) :
    Took w (w.step (burstCall burst)) burst := by
  have read : (Transport.read ({ received := burst } : Bench.Pipe) Client.burstSize).1 = burst :=
    List.take_of_length_le short
  have stats := (w.client.enters_service ({ received := burst } : Bench.Pipe) w.line w.volume rfl
    (by rwa [read])).1
  rw [read] at stats
  have taken := w.core.wake.bare_take burst
  rw [Core.wake_tokenizer] at taken
  refine ⟨?_, stats⟩
  rw [core_step some short]
  exact taken

theorem retries_step (some : burst ≠ []) (short : burst.length ≤ Client.burstSize) :
    (w.step (burstCall burst)).core.retries = 0 := by
  rw [core_step some short]
  exact Core.retries_foldl rfl _

theorem Took.awake {text : List UInt8} (h : Took w next text) : next.core.state ≠ .disconnected := by
  have same := congrArg Core.state h.core
  exact fun off => Core.awake_foldl w.core.awake_wake _ (same.symm.trans off)

theorem Took.append {a b : List UInt8} (first : Took w mid a)
    (tokenizer : mid.core.tokenizer = (w.core.tokenizer.feed a).1) (second : Took mid next b) :
    Took w next (a ++ b) := by
  have split := w.core.tokenizer.feed_append a b
  obtain ⟨core, stats⟩ := second
  have held : mid.client.tokenizer = (w.client.tokenizer.feed a).1 := tokenizer
  rw [Core.wake_of_ne first.awake, held] at core stats
  have heard : (w.client.tokenizer.feed (a ++ b)).2 =
      (w.client.tokenizer.feed a).2 ++ ((w.client.tokenizer.feed a).1.feed b).2 := congrArg Prod.snd split
  refine ⟨?_, ?_⟩
  · rw [core, heard, List.foldl_append]
    exact Core.bare_foldl first.core _
  · rw [stats, first.stats, heard, Core.entries_append, List.foldl_append, List.length_append,
      ← FetchStats.receive_receive, Core.entries_eq_of_bare first.core]
    simp only [FetchStats.foldl_enter_receive]

theorem tidy_service (tidy : w.core.tokenizer.Tidy) (pipe : Bench.Pipe) :
    (w.step (.service pipe)).core.tokenizer.Tidy := by
  show (w.client.service pipe w.line w.volume).1.core.tokenizer.Tidy
  have idle : ({} : Tokenizer).Tidy := .inl rfl
  have woken : w.core.wake.tokenizer.Tidy := by rwa [Core.wake_tokenizer]
  by_cases online : pipe.online = true
  · by_cases nothing : pipe.received.take Client.burstSize = []
    · rw [w.client.core_service_nil pipe w.line w.volume online nothing]
      show w.core.wake.wait.tokenizer.Tidy
      unfold Core.wait
      split
      case isTrue => split <;> assumption
      case isFalse => exact woken
    · rw [w.client.core_service_cons pipe w.line w.volume online nothing]
      show (w.core.wake.take _).tokenizer.Tidy
      rw [Core.tokenizer_take (Core.wake_inserted _)]
      split
      case isTrue => exact idle
      case isFalse => exact Tokenizer.tidy_feed woken _
  · have offline : pipe.online = false := by simpa using online
    rw [w.client.core_service_offline pipe w.line w.volume offline]
    show w.core.disconnect.tokenizer.Tidy
    unfold Core.disconnect
    split <;> assumption

theorem tidy_step (tidy : w.core.tokenizer.Tidy) (call : Call) : (w.step call).core.tokenizer.Tidy := by
  cases call with
  | service pipe => exact tidy_service tidy pipe
  | request pipe request volume =>
    show (w.client.request pipe w.line volume request).2.1.core.tokenizer.Tidy
    rw [Client.core_request]
    unfold Core.request
    split
    case isTrue => exact tidy
    case isFalse => split <;> exact tidy
  | restart =>
    have restarted := congrArg Core.tokenizer (w.client.core_restart w.line w.volume)
    exact .inl (congrArg Tokenizer.token restarted)

theorem tidy_run (tidy : w.core.tokenizer.Tidy) (calls : List Call) : (w.run calls).core.tokenizer.Tidy := by
  induction calls generalizing w with
  | nil => exact tidy
  | cons call calls ih => exact ih (tidy_step tidy call)

theorem not_clips_byte (tidy : w.core.tokenizer.Tidy) (byte : UInt8) : ¬ w.Clips [byte] := by
  rw [clips_iff (by simp) (by simp [Client.burstSize])]
  rintro ⟨announced, rest⟩
  obtain ⟨volume, mem⟩ := Core.mem_of_inserted_take (Core.wake_inserted w.core) announced
  rw [Core.wake_tokenizer] at mem
  have heard : .volume volume ∈ (w.core.tokenizer.push byte).2 := by simpa [Tokenizer.feed] using mem
  exact rest (Tokenizer.push_of_volume tidy heard)

theorem tokenizer_byte (tidy : w.core.tokenizer.Tidy) (byte : UInt8) :
    (w.step (burstCall [byte])).core.tokenizer = (w.core.tokenizer.feed [byte]).1 :=
  (tokenizer_step (by simp) (by simp [Client.burstSize])).mpr (not_clips_byte tidy byte)

/-- Bytes that come one by one leave the tokenizer where the text has brought it. -/
theorem took_bytes (tidy : w.core.tokenizer.Tidy) {text : List UInt8} (some : text ≠ []) :
    Took w (w.deliver (text.map ([·]))) text ∧
      (w.deliver (text.map ([·]))).core.tokenizer = (w.core.tokenizer.feed text).1 ∧
      (w.deliver (text.map ([·]))).core.retries = 0 := by
  induction text generalizing w with
  | nil => exact absurd rfl some
  | cons byte text ih =>
    have first : Took w (w.step (burstCall [byte])) [byte] := took_burst (by simp) (by simp [Client.burstSize])
    have moved := tokenizer_byte tidy byte
    by_cases last : text = []
    · rw [last]
      exact ⟨first, moved, retries_step (by simp) (by simp [Client.burstSize])⟩
    · obtain ⟨took, reached, none⟩ := ih (tidy_step tidy (burstCall [byte])) last
      refine ⟨first.append moved took, ?_, none⟩
      rw [moved] at reached
      rw [← List.singleton_append, Tokenizer.feed_append]
      exact reached

theorem Took.agrees {a b : Watch} {text : List UInt8} (first : Took w a text) (second : Took w b text)
    (tokenizer : a.core.tokenizer = b.core.tokenizer) (retries : a.core.retries = b.core.retries) :
    a.Agrees b where
  core := Core.ext_of_bare (first.core.trans second.core.symm) tokenizer retries rfl
  stats := first.stats.trans second.stats.symm

theorem agrees_bytes_iff (tidy : w.core.tokenizer.Tidy) (some : burst ≠ [])
    (short : burst.length ≤ Client.burstSize) :
    (w.step (burstCall burst)).Agrees (w.deliver (burst.map ([·]))) ↔ ¬ w.Clips burst := by
  obtain ⟨took, reached, none⟩ := took_bytes tidy some
  rw [← tokenizer_step some short, ← reached]
  constructor
  · intro agrees
    exact congrArg Core.tokenizer agrees.core
  · intro same
    exact (took_burst some short).agrees took same ((retries_step some short).trans none.symm)

theorem Agrees.step {a b : Watch} (h : a.Agrees b) (some : burst ≠ [])
    (short : burst.length ≤ Client.burstSize) :
    (a.step (burstCall burst)).Agrees (b.step (burstCall burst)) where
  core := by rw [core_step some short, core_step some short, h.core]
  stats := by
    have tokenizer : a.client.tokenizer = b.client.tokenizer := congrArg Core.tokenizer h.core
    rw [(took_burst some short).stats, (took_burst some short).stats, h.core, h.stats, tokenizer]

theorem Agrees.trans {a b c : Watch} (first : a.Agrees b) (second : b.Agrees c) : a.Agrees c :=
  ⟨first.core.trans second.core, first.stats.trans second.stats⟩

theorem Agrees.symm {a b : Watch} (h : a.Agrees b) : b.Agrees a := ⟨h.core.symm, h.stats.symm⟩

theorem deliver_append (a b : List (List UInt8)) : w.deliver (a ++ b) = (w.deliver a).deliver b := by
  simp [deliver, run_append]

/-- If no burst clips, a delivery comes to the same as that of the bytes one by one. -/
theorem deliver_agrees (tidy : w.core.tokenizer.Tidy) {bursts : List (List UInt8)} (cut : IsCut bursts)
    (unclipped : ∀ earlier burst, earlier ++ burst <+: bursts.flatten → burst ≠ [] →
      burst.length ≤ Client.burstSize → ¬ (w.deliver (earlier.map ([·]))).Clips burst) :
    (w.deliver bursts).Agrees (w.deliver (bursts.flatten.map ([·]))) := by
  induction bursts using List.reverseRecOn with
  | nil => exact ⟨rfl, rfl⟩
  | append_singleton bursts burst ih =>
    have text : (bursts ++ [burst]).flatten = bursts.flatten ++ burst := by simp
    obtain ⟨some, short⟩ := cut burst (by simp)
    have before := ih (fun b mem => cut b (List.mem_append_left _ mem)) fun earlier burst within =>
      unclipped earlier burst (text ▸ within.trans (List.prefix_append _ _))
    have last := (agrees_bytes_iff (tidy_run tidy _) some short).mpr
      (unclipped bursts.flatten burst (text ▸ List.prefix_refl _) some short)
    rw [text, List.map_append, deliver_append, deliver_append]
    exact (before.step some short).trans last

/-- Two ways of cutting a text make no difference, nor do they for a beginning of it, exactly as long as no burst
clips it: none announces a disk and ends with a token or a byte begun. -/
theorem deliveries_agree_iff (retryLimit : UInt32) (wholeTrack : Bool) (trace : Trace) (volume : UInt8)
    (calls : List Call) (text : List UInt8) :
    let w := (start retryLimit wholeTrack trace volume).run calls
    (∀ a b, IsCut a → IsCut b → a.flatten = b.flatten → a.flatten <+: text →
        (w.deliver a).Agrees (w.deliver b)) ↔
      ∀ earlier burst, earlier ++ burst <+: text → burst ≠ [] → burst.length ≤ Client.burstSize →
        ¬ (w.deliver (earlier.map ([·]))).Clips burst := by
  intro w
  have tidy : w.core.tokenizer.Tidy := tidy_run (.inl rfl) calls
  constructor
  · intro agree earlier burst within some short
    have cut : IsCut (earlier.map ([·]) ++ [burst]) := by
      intro b mem
      rcases List.mem_append.mp mem with early | last
      · exact isCut_singles earlier b early
      · rw [List.mem_singleton.mp last]
        exact ⟨some, short⟩
    have flat : (earlier.map ([·]) ++ [burst]).flatten = earlier ++ burst := by
      simp [flatten_singles earlier]
    have same := agree _ _ cut (isCut_singles (earlier ++ burst)) (flat.trans (flatten_singles _).symm)
      (flat ▸ within)
    rw [List.map_append, deliver_append, deliver_append] at same
    exact (agrees_bytes_iff (tidy_run tidy _) some short).mp same
  · intro unclipped a b cutA cutB same within
    have first := deliver_agrees tidy cutA fun earlier burst inside =>
      unclipped earlier burst (inside.trans within)
    have second := deliver_agrees tidy cutB fun earlier burst inside =>
      unclipped earlier burst (inside.trans (same ▸ within))
    rw [← same] at second
    exact first.trans second.symm

/-- A disk and a sector are announced. If the first burst ends within the second announcement, it is lost. -/
theorem announcement_clipped :
    let w := start 1000 false {} 254
    let clipped : List (List UInt8) := [[64, 102, 101, 35, 48, 49], [53]]
    let kept : List (List UInt8) := [[64, 102, 101], [35, 48, 49, 53]]
    IsCut clipped ∧ IsCut kept ∧ clipped.flatten = kept.flatten ∧
      (w.deliver clipped).client.assembly.isSome = false ∧ (w.deliver kept).client.assembly.isSome = true ∧
      ¬ (w.deliver clipped).Agrees (w.deliver kept) := by
  intro w clipped kept
  have lost : (w.deliver clipped).client.assembly.isSome = false := by decide +kernel
  have begun : (w.deliver kept).client.assembly.isSome = true := by decide +kernel
  refine ⟨by simp [IsCut, clipped, Client.burstSize], by simp [IsCut, kept, Client.burstSize], rfl, lost, begun, ?_⟩
  intro same
  have assembly : (w.deliver clipped).client.assembly = (w.deliver kept).client.assembly :=
    congrArg Core.assembly same.core
  simp [assembly, begun] at lost

end Watch
end Floppy.Fetch
