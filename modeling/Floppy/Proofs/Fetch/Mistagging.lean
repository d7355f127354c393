import Floppy.Proofs.Fetch.Faithful

/-!
# A sector that changes its track

Once the line was pointed elsewhere beneath a sector in reception, the rest of the sector is enough to read
its bytes under the wrong tag, for which they were never announced.
-/
namespace Floppy.Fetch

namespace Watch

def burstCall (burst : List UInt8) : Call := .service { received := burst }

/-- The history goes on from an old one without an announcement. -/
def Silent (old : List Moment) (w : Watch) : Prop :=
  ∃ more, w.history = old ++ more ∧ ∀ m ∈ more, ∀ track sector, m.event ≠ some (.sectorStart track sector)

/-- A sector is in reception for a tag that the line does not have any more. Since then, none was announced. -/
structure Astray (old : List Moment) (a : Assembly) (tag : Option UInt8 × UInt8) (w : Watch) : Prop where
  state : w.client.state = .inserted
  assembly : w.client.assembly = some a
  taken : a.discard = false
  tag : w.line.tag = tag
  silent : Silent old w

end Watch

/-- Faults and the CRC of the track change neither the sector in reception nor the tag of the line. -/
theorem Core.foldl_marks {events : List StreamEvent}
    (marks : ∀ event ∈ events, (∃ cause, event = .error cause) ∨ ∃ crc, event = .trackCrc crc) (core : Core) :
    (events.foldl apply core).state = core.state ∧ (events.foldl apply core).tokenizer = core.tokenizer ∧
      (events.foldl apply core).assembly = core.assembly ∧
      (events.foldl apply core).line.tag = core.line.tag := by
  induction events generalizing core with
  | nil => exact ⟨rfl, rfl, rfl, rfl⟩
  | cons event rest ih =>
    have later := ih (fun event mem => marks event (List.mem_cons_of_mem _ mem)) (core.apply event)
    rw [List.foldl_cons]
    rcases marks event (by simp) with ⟨cause, rfl⟩ | ⟨crc, rfl⟩
    · exact later
    · have tag : (core.trackCrc crc).line.tag = core.line.tag := core.tag_trackCrc crc
      exact ⟨later.1, later.2.1, later.2.2.1, later.2.2.2.trans tag⟩

theorem Desk.event_of_mem_moments {desk : Desk} {events : List StreamEvent} {m : Moment}
    (h : m ∈ desk.moments events) : ∃ event ∈ events, m.event = some event := by
  induction events generalizing desk with
  | nil => cases h
  | cons event rest ih =>
    rcases List.mem_cons.mp h with rfl | later
    · exact ⟨event, by simp, rfl⟩
    · obtain ⟨found, mem, same⟩ := ih later
      exact ⟨found, List.mem_cons_of_mem _ mem, same⟩

namespace Watch
variable {w : Watch}

theorem core_burst {burst : List UInt8} (some : burst ≠ []) (short : burst.length ≤ Client.burstSize)
    (awake : w.client.state ≠ .disconnected) :
    (w.step (burstCall burst)).core = { w.core.take burst with inserted := false } := by
  have whole : burst.take Client.burstSize = burst := List.take_of_length_le short
  have read : (Transport.read ({ received := burst } : Bench.Pipe) Client.burstSize).1 = burst := whole
  have taken := w.client.core_service_cons ({ received := burst } : Bench.Pipe) w.line w.volume rfl
    (by rwa [read])
  have woken : w.core.wake = w.core := Core.wake_of_ne awake
  rw [read] at taken
  exact congrArg (fun core : Core => { core with inserted := false })
    (taken.trans (congrArg (Core.take · burst) woken))

theorem Silent.burst {old : List Moment} (h : Silent old w) {burst : List UInt8}
    (short : burst.length ≤ Client.burstSize)
    (events : ∀ event ∈ (w.client.tokenizer.feed burst).2, ∀ track sector,
      event ≠ .sectorStart track sector) :
    Silent old (w.step (burstCall burst)) := by
  have whole : burst.take Client.burstSize = burst := List.take_of_length_le short
  obtain ⟨more, was, silent⟩ := h
  refine ⟨more ++ (w.heard { received := burst } ++ [⟨none, (w.step (burstCall burst)).line.tag⟩]), ?_,
    fun m mem track sector => ?_⟩
  · rw [← List.append_assoc old, ← was, ← List.append_assoc]
    rfl
  · rcases List.mem_append.mp mem with earlier | now
    · exact silent m earlier track sector
    · rcases List.mem_append.mp now with heard | last
      · rw [heard_online rfl, whole] at heard
        obtain ⟨event, mem, same⟩ := Desk.event_of_mem_moments heard
        simpa [same] using events event mem track sector
      · simp [List.mem_singleton.mp last]

namespace Astray
variable {old : List Moment} {a : Assembly} {tag : Option UInt8 × UInt8}

theorem burst (h : Astray old a tag w) {burst : List UInt8} (some : burst ≠ [])
    (short : burst.length ≤ Client.burstSize) {next : Assembly}
    (events : ∀ event ∈ (w.client.tokenizer.feed burst).2, ∀ track sector, event ≠ .sectorStart track sector)
    (state : (w.core.take burst).state = .inserted) (assembly : (w.core.take burst).assembly = .some next)
    (taken : next.discard = false) (kept : (w.core.take burst).line.tag = tag) :
    Astray old next tag (w.step (burstCall burst)) := by
  have awake : w.client.state ≠ .disconnected := by simp [h.state]
  have core := core_burst some short awake
  exact ⟨(congrArg Core.state core).trans state, (congrArg Core.assembly core).trans assembly, taken,
    (congrArg (fun core : Core => core.line.tag) core).trans kept, h.silent.burst short events⟩

theorem newline (h : Astray old a tag w) :
    Astray old a tag (w.step (burstCall [10])) ∧ (w.step (burstCall [10])).client.tokenizer = {} := by
  have awake : w.client.state ≠ .disconnected := by simp [h.state]
  obtain ⟨closed, marks⟩ := w.client.tokenizer.feed_newline_of_any
  have unchanged := Core.foldl_marks marks { w.core with tokenizer := {}, retries := 0 }
  have taken : w.core.take [10] = (w.client.tokenizer.feed [10]).2.foldl Core.apply
      { w.core with tokenizer := {}, retries := 0 } := Core.take_eq (Prod.ext closed rfl)
  rw [← taken] at unchanged
  obtain ⟨state, tokenizer, assembly, kept⟩ := unchanged
  refine ⟨h.burst (by simp) (by decide) (fun event mem track sector => ?_) (state.trans h.state)
    (assembly.trans h.assembly) h.taken (kept.trans h.tag), ?_⟩
  · rcases marks event mem with ⟨cause, rfl⟩ | ⟨crc, rfl⟩ <;> simp
  · exact (congrArg Core.tokenizer (core_burst (by simp) (by decide) awake)).trans tokenizer

/-- A byte of payload goes to the sector, whatever the line is for. -/
theorem byte (h : Astray old a tag w) (idle : w.client.tokenizer = {}) (room : a.bytes.size < sectorSize)
    (byte : UInt8) :
    Astray old { a with bytes := a.bytes.push byte } tag (w.step (burstCall (Hex.pair byte))) ∧
      (w.step (burstCall (Hex.pair byte))).client.tokenizer = {} := by
  have awake : w.client.state ≠ .disconnected := by simp [h.state]
  have fed : w.client.tokenizer.feed (Hex.pair byte) = ({}, [.payload byte]) := by
    rw [idle, Tokenizer.feed_pair]
  have taken : w.core.take (Hex.pair byte) =
      { w.core with
        tokenizer := {}, retries := 0, assembly := some { a with bytes := a.bytes.push byte } } := by
    have here : w.core.assembly = some a := h.assembly
    rw [Core.take_eq fed]
    simp [Core.apply, Core.payload, here, room]
  refine ⟨h.burst (by simp [Hex.pair]) (by simp [Hex.pair, Client.burstSize]) (by simp [fed])
    ?_ ?_ h.taken ?_, ?_⟩
  · exact (congrArg Core.state taken).trans h.state
  · rw [taken]
  · exact (congrArg (fun core : Core => core.line.tag) taken).trans h.tag
  · have core :=
      @core_burst w (Hex.pair byte) (by simp [Hex.pair]) (by simp [Hex.pair, Client.burstSize]) awake
    exact (congrArg Core.tokenizer core).trans (congrArg Core.tokenizer taken)

theorem fill (missing : ℕ) (h : Astray old a tag w) (idle : w.client.tokenizer = {})
    (size : a.bytes.size + missing = sectorSize) :
    ∃ (bursts : List (List UInt8)) (whole : Assembly),
      whole.sector = a.sector ∧ whole.bytes.size = sectorSize ∧
      Astray old whole tag (w.run (bursts.map burstCall)) ∧
      (w.run (bursts.map burstCall)).client.tokenizer = {} := by
  induction missing generalizing w a with
  | zero => exact ⟨[], a, rfl, size, h, idle⟩
  | succ missing ih =>
    obtain ⟨next, idle⟩ := h.byte idle (by omega) 0
    obtain ⟨bursts, whole, sector, full, astray, idle⟩ := ih next idle (by simp; omega)
    exact ⟨Hex.pair 0 :: bursts, whole, sector, full, astray, idle⟩

theorem finish (h : Astray old a tag w) (idle : w.client.tokenizer = {}) (size : a.bytes.size = sectorSize)
    {track volume : UInt8} (tagged : tag = (some track, volume)) :
    ∃ burst, (w.step (burstCall burst)).line.sector? track volume a.sector = some ⟨a.bytes, size⟩ ∧
      Silent old (w.step (burstCall burst)) := by
  have awake : w.client.state ≠ .disconnected := by simp [h.state]
  have fed : w.client.tokenizer.feed (61 :: Hex.pair (Gcr.checksum a.bytes.toList)) =
      ({}, [.sectorEnd (Gcr.checksum a.bytes.toList)]) := by
    rw [idle, Tokenizer.feed_checksum]
  have taken : (w.core.take (61 :: Hex.pair (Gcr.checksum a.bytes.toList))).line =
      w.line.commit a.sector ⟨a.bytes, size⟩ := by
    have here : w.core.assembly = some a := h.assembly
    rw [Core.take_eq fed]
    simp [Core.apply, Core.sectorEnd, here, h.taken, size]
    rfl
  refine ⟨61 :: Hex.pair (Gcr.checksum a.bytes.toList), ?_,
    h.silent.burst (by simp [Hex.pair, Client.burstSize]) (by simp [fed])⟩
  have core := @core_burst w (61 :: Hex.pair (Gcr.checksum a.bytes.toList)) (by simp)
    (by simp [Hex.pair, Client.burstSize]) awake
  have line : (w.step (burstCall (61 :: Hex.pair (Gcr.checksum a.bytes.toList)))).line =
      w.line.commit a.sector ⟨a.bytes, size⟩ := (congrArg Core.line core).trans taken
  have current : w.line.isTagged track volume = true :=
    (w.line.isTagged_iff track volume).mpr (h.tag.trans tagged)
  rw [line, TrackLine.sector?_commit]
  simp [current]

theorem complete (h : Astray old a tag w) (size : a.bytes.size ≤ sectorSize) {track volume : UInt8}
    (tagged : tag = (some track, volume)) :
    ∃ (bursts : List (List UInt8)) (sector : UInt8) (bytes : Sector),
      (w.run (bursts.map burstCall)).line.sector? track volume sector = some bytes ∧
        Silent old (w.run (bursts.map burstCall)) := by
  obtain ⟨closed, idle⟩ := h.newline
  obtain ⟨bursts, whole, -, full, filled, idle⟩ := closed.fill (sectorSize - a.bytes.size) idle (by omega)
  obtain ⟨burst, readable, silent⟩ := filled.finish idle full tagged
  have path : w.run (([10] :: bursts ++ [burst]).map burstCall) =
      ((w.step (burstCall [10])).run (bursts.map burstCall)).step (burstCall burst) := by
    simp [run]
  exact ⟨[10] :: bursts ++ [burst], whole.sector, _, path ▸ readable, path ▸ silent⟩

end Astray

theorem last_tag {history front back : List Moment} (split : history = front ++ back) (some : back ≠ [])
    {tag : Option UInt8 × UInt8} (tags : ∀ m ∈ back, m.tag = tag) :
    history.getLast?.map Moment.tag = .some tag := by
  rw [split, List.getLast?_append_of_ne_nil _ some, List.getLast?_eq_some_getLast some, Option.map_some,
    tags _ (List.getLast_mem some)]

/-- A sector that was announced for another tag is not announced for the present one by what follows. -/
theorem Silent.not_announced {old : List Moment} (h : Silent old w) {tag : Option UInt8 × UInt8}
    {a : Assembly}
    (pending : Pending old tag a) {track volume : UInt8} (other : tag ≠ (some track, volume)) (sector : UInt8)
    (bytes : Sector) : ¬ Announced w.history track volume sector bytes := by
  rintro ⟨before, payload, after, split, -, -, tags⟩
  obtain ⟨more, was, silent⟩ := h
  obtain ⟨former, inner, began, -, -, steady⟩ := pending.content
  have last : old.getLast?.map Moment.tag = some tag := last_tag began (by simp) (by simpa using steady)
  rw [was, List.append_assoc, List.append_eq_append_iff] at split
  rcases split with ⟨gap, -, later⟩ | ⟨gap, earlier, rest⟩
  · exact silent ⟨some (.sectorStart track (sector &&& 0x0F)), (some track, volume)⟩ (by simp [later]) _ _ rfl
  · cases gap with
    | nil =>
      rw [List.nil_append] at rest
      exact silent ⟨some (.sectorStart track (sector &&& 0x0F)), (some track, volume)⟩
          (by simp [← rest]) _ _ rfl
    | cons first gap =>
      have kept : ∀ m ∈ first :: gap, m.tag = (some track, volume) := by
        intro m mem
        have inside : m ∈ (first :: gap) ++ more := List.mem_append_left _ mem
        rw [← rest] at inside
        simp only [List.cons_append, List.mem_cons, List.mem_append] at inside tags
        rcases inside with rfl | inside | rfl | inside
        · rfl
        · exact tags m (.inl inside)
        · rfl
        · exact tags m (.inr inside)
      rw [last_tag earlier (by simp) kept] at last
      exact other (Option.some.inj last).symm

end Watch
end Floppy.Fetch
