import Floppy.Proofs.System.FillStages

/-!
# What the passes do to a loop

The first byte that is wanted lets the sector under the arm be asked for. From then on each drive pass goes on
with fillers or with the frame, and each fetch pass takes over the answer as far as it has come.
-/
namespace Floppy.FillLoop
open Fetch Bench Controller
variable {δ : Type} {e : WantedSector} {loop : FillLoop δ} {fillers : ℕ} {events : List StreamEvent}

section Drive
variable {shown : Show} {spare : ℕ}

theorem Keeps.rests (h : Keeps e loop) (shown : Show) (spare : ℕ) :
    Rests e.position.track e.volume (loop.facing shown spare).controller
      (loop.facing shown spare).registers :=
  ⟨shown.still _, h.track, h.disk⟩

theorem Keeps.volume_polled (h : Keeps e loop)
    (stands : Stands e.position.track e.volume (loop.poll shown spare)) :
    (loop.facing shown spare).polled.controller.drives.external.volume =
      (loop.facing shown spare).controller.drives.external.volume :=
  stands.volume.trans h.disk.symm

theorem Keeps.polled (h : Keeps e loop) (stands : Stands e.position.track e.volume (loop.poll shown spare))
    (online : (loop.step (.drive shown spare)).system.transport.online = loop.system.transport.online)
    (limit : (loop.step (.drive shown spare)).system.core.retryLimit = loop.system.core.retryLimit) :
    Keeps e (loop.step (.drive shown spare)) where
  online := online.trans h.online
  track := (congrArg (·.drives.external.track) (loop.controller_drive shown spare)).trans stands.track
  disk := (congrArg (·.drives.external.volume) (loop.controller_drive shown spare)).trans stands.volume
  limit := limit.trans h.limit

/-- A poll in which no byte is wanted. -/
theorem Quiet.polled (h : Quiet e loop) (stands : Stands e.position.track e.volume (loop.poll shown spare))
    (head : (loop.poll shown spare).controller.head = loop.system.controller.head)
    (written : (loop.poll shown spare).registers.written = #[])
    (hint : (loop.poll shown spare).registers.hint = some e.position)
    (fills : (loop.poll shown spare).fills = []) :
    Quiet e (loop.step (.drive shown spare)) := by
  obtain ⟨core, transport⟩ := DiskSystem.drivePass_of_nil fills (h.volume_polled stands)
  have controller := loop.controller_drive shown spare
  have registers := loop.registers_drive shown spare
  refine ⟨h.toKeeps.polled stands ?_ ?_, ?_, ?_, ?_, ?_, ?_, ?_, ?_, h.unread, h.source, h.image, ?_⟩
  · exact (congrArg Pipe.online transport).trans rfl
  · exact (congrArg Core.retryLimit core).trans rfl
  · exact (congrArg Core.state core).trans h.inserted
  · exact (congrArg Core.wholeTrack core).trans h.wholeTrack
  · exact (congrArg Levers.hint registers).trans hint
  · exact (congrArg (·.line.sector? e.position.track e.volume e.position.sector) core).trans h.missing
  · rw [controller, head]
    exact h.elsewhere
  · exact (congrArg Levers.written registers).trans written
  · exact (congrArg Pipe.sent transport).trans h.unsent
  · have tokenizer :
        (loop.step (.drive shown spare)).system.client.tokenizer = loop.system.client.tokenizer :=
      congrArg Core.tokenizer core
    have received :
        (loop.step (.drive shown spare)).system.transport.received = loop.system.transport.received :=
      (congrArg Pipe.received transport).trans rfl
    rw [tokenizer, received]
    exact h.blank

/-- The request goes out with the first filler, and its answer is ahead. -/
theorem Quiet.asks (h : Quiet e loop) (stands : Stands e.position.track e.volume (loop.poll shown spare))
    (waits : Waits e.position 1 (loop.poll shown spare).controller.head
      (loop.poll shown spare).registers.written.toList)
    (fills : (loop.poll shown spare).fills = [⟨.external, e.position.track, e.volume, e.position.sector⟩]) :
    ∃ events, Fed e 1 events (loop.step (.drive shown spare)) := by
  obtain ⟨core, transport⟩ :=
    @DiskSystem.drivePass_of_single _ _ _ _ (loop.facing shown spare) _ e.target fills
    (h.volume_polled stands) h.disk.symm
  have request : (loop.facing shown spare).client.requestFor e.target.track e.target.sector = e.request := by
    change loop.system.client.requestFor e.position.track e.position.sector = e.request
    rw [Client.requestFor, h.wholeTrack]
    rfl
  have room : Client.neededRoom e.request ≤ Transport.room (loop.facing shown spare).transport := e.room spare
  rw [request, decide_eq_true room] at core
  rw [request, if_pos ⟨h.inserted, room⟩] at transport
  obtain ⟨events, answer, brings⟩ :=
    @WantedSector.answer e loop.system.core h.disk rfl h.inserted h.missing loop.source
    h.source h.image
  have asked : loop.system.core.request e.position.track e.volume true =
      { loop.system.core with line := loop.system.core.line.retag e.position.track e.volume, assembly := none,
                              retries := 0, state := .reading } :=
    if_neg (not_not.mpr h.inserted)
  have sent : (loop.step (.drive shown spare)).wire = e.request.encode := by
    refine (congrArg Pipe.sent transport).trans ?_
    change loop.wire ++ e.request.encode = e.request.encode
    rw [h.unsent, List.nil_append]
  refine ⟨events, h.toKeeps.polled stands ?_ ?_, sent, ?_, ?_, core ▸ brings, fun _ => ?_⟩
  · exact (congrArg Pipe.online transport).trans rfl
  · exact (congrArg Core.retryLimit (core.trans asked)).trans rfl
  · rw [written, controller_drive, registers_drive]
    exact .inl waits
  · have tokenizer :
        (loop.step (.drive shown spare)).system.client.tokenizer = loop.system.client.tokenizer :=
      congrArg Core.tokenizer (core.trans asked)
    have received :
        (loop.step (.drive shown spare)).system.transport.received = loop.system.transport.received :=
      (congrArg Pipe.received transport).trans rfl
    have unread : (loop.step (.drive shown spare)).unread = e.request.encode := by
      rw [FillLoop.unread, show (loop.step (.drive shown spare)).read = 0 from h.unread, List.drop_zero]
      exact sent
    rw [FillLoop.ahead, unread, tokenizer, received, Tokenizer.feed_append,
      show (loop.step (.drive shown spare)).channel = loop.channel from rfl, h.blank]
    exact answer
  · have retries : (loop.step (.drive shown spare)).system.client.retries = 0 :=
      congrArg Core.retries (core.trans asked)
    rw [retries]
    exact Nat.zero_le _

theorem Quiet.drive (h : Quiet e loop) (shown : Show) (spare : ℕ) :
    Quiet e (loop.step (.drive shown spare)) ∨ ∃ events, Fed e 1 events (loop.step (.drive shown spare)) := by
  have missing :
      (loop.facing shown spare).cache.sector? .external e.position.track e.volume e.position.sector =
      none := h.missing
  obtain ⟨stands, ⟨head, written, hint, fills⟩ | ⟨waits, fills⟩⟩ :=
    pollOnce_arrives h.elsewhere (h.toKeeps.rests shown spare) h.unwritten h.hint e.sector_low missing
  · exact .inl (h.polled stands head written hint fills)
  · exact .inr (h.asks stands waits fills)

/-- A poll that leaves the client and the transport alone. -/
theorem Fed.polled (h : Fed e fillers events loop) {n : ℕ}
    (core : (loop.facing shown spare).drivePass.2.context.core = loop.system.core)
    (transport :
      (loop.facing shown spare).drivePass.2.context.transport = (loop.facing shown spare).transport)
    (stands : Stands e.position.track e.volume (loop.poll shown spare))
    (begun : Begun e.position e.frame n (loop.poll shown spare).controller.head
      (loop.poll shown spare).registers.written.toList) :
    Fed e n events (loop.step (.drive shown spare)) := by
  have channel : (loop.step (.drive shown spare)).ahead = loop.ahead := by
    have kept : (loop.step (.drive shown spare)).system.transport = (loop.facing shown spare).transport :=
      transport
    simp only [FillLoop.ahead, FillLoop.unread, kept]
    rfl
  have tokenizer : (loop.step (.drive shown spare)).system.client.tokenizer = loop.system.client.tokenizer :=
    congrArg Core.tokenizer core
  have state : (loop.step (.drive shown spare)).system.client.state = loop.system.client.state :=
    congrArg Core.state core
  have retries : (loop.step (.drive shown spare)).system.client.retries = loop.system.client.retries :=
    congrArg Core.retries core
  refine ⟨h.toKeeps.polled stands ?_ ?_, ?_, ?_, ?_, core ▸ h.brings, ?_⟩
  · exact (congrArg Pipe.online transport).trans rfl
  · exact congrArg Core.retryLimit core
  · exact (congrArg Pipe.sent transport).trans h.sent
  · rw [written, controller_drive, registers_drive]
    exact begun
  · rw [channel, tokenizer]
    exact h.ahead
  · rw [state, retries]
    exact h.patience

theorem Fed.drive (h : Fed e fillers events loop) (shown : Show) (spare : ℕ) :
    Fed e fillers events (loop.step (.drive shown spare)) ∨
      Fed e (fillers + 1) events (loop.step (.drive shown spare)) ∧ events ≠ [] ∨
      Done e fillers (loop.step (.drive shown spare)) := by
  have right : ∀ found, (loop.facing shown spare).cache.sector? .external e.position.track e.volume
      e.position.sector = some found → found = e.bytes := h.brings.along.first.right
  have progress : Progress e.position e.volume e.frame fillers (loop.facing shown spare).cache
      (loop.poll shown spare) :=
    Begun.pollOnce h.begun (h.toKeeps.rests shown spare) right
  cases progress with
  | goes begun stands fills =>
    obtain ⟨core, transport⟩ := DiskSystem.drivePass_of_nil fills (h.volume_polled stands)
    exact .inl (h.polled core transport stands begun)
  | asks waits stands fills missing =>
    have reading : loop.system.client.state = .reading := by
      rcases h.brings.along.first.state with reading | ⟨-, readable⟩
      · exact reading
      · cases missing.symm.trans readable
    obtain ⟨core, transport⟩ :=
      @DiskSystem.drivePass_of_single _ _ _ _ (loop.facing shown spare) _ e.target fills
      (h.volume_polled stands) h.disk.symm
    have busy : loop.system.core.state ≠ .inserted := by
      rw [show loop.system.core.state = _ from reading]
      nofun
    rw [Core.request, if_pos (show (loop.facing shown spare).core.state ≠ .inserted from busy)] at core
    rw [if_neg fun both => busy both.1] at transport
    refine .inr (.inl ⟨h.polled core transport stands (.inl waits), ?_⟩)
    rintro rfl
    exact busy h.brings.ends
  | plays played =>
    have sent := loop.wire_drive shown spare
    rw [h.sent] at sent
    refine .inr (.inr ⟨sent, ?_⟩)
    rw [written, registers_drive]
    exact played

theorem Done.drive (h : Done e fillers loop) (shown : Show) (spare : ℕ) :
    Done e fillers (loop.step (.drive shown spare)) :=
  ⟨h.asked.trans (loop.wire_drive shown spare), h.played.trans (loop.written_drive shown spare)⟩

end Drive

section Fetch

theorem Keeps.fetch (h : Keeps e loop) (disk : loop.system.served.1.core.volume = e.volume)
    (undisturbed : loop.system.served.1.core.inserted = false)
    (limit : loop.system.served.1.core.retryLimit = loop.system.core.retryLimit) :
    Keeps e (loop.step .fetch) ∧ (loop.step .fetch).system.core = loop.system.served.1.core ∧
      (loop.step .fetch).system.controller = loop.system.controller ∧
      (loop.step .fetch).system.registers = loop.system.registers ∧
      (loop.step .fetch).system.transport =
        { loop.system.transport with received := loop.system.transport.received.drop Client.burstSize } := by
  obtain ⟨core, controller, registers, served⟩ :=
    DiskSystem.fetchPass_undisturbed (disk.trans h.disk.symm) undisturbed
  have transport := served.trans (transport_served h.online)
  refine ⟨⟨?_, ?_, ?_, ?_⟩, core, controller, registers, transport⟩
  · exact (congrArg Pipe.online transport).trans h.online
  · exact (congrArg (·.drives.external.track) controller).trans h.track
  · exact (congrArg (·.drives.external.volume) controller).trans h.disk
  · exact (congrArg Core.retryLimit core).trans (limit.trans h.limit)

theorem Fed.served (h : Fed e fillers events loop) {rest : List StreamEvent}
    (brings : e.Brings loop.system.served.1.core rest)
    (limit : loop.system.served.1.core.retryLimit = loop.system.core.retryLimit)
    (ahead : loop.system.served.1.core.tokenizer.feed (loop.system.transport.received.drop Client.burstSize ++
      loop.channel ++ replies loop.source loop.unread) = ({}, rest))
    (patience : loop.system.served.1.core.state = .reading →
      loop.system.served.1.core.retries.toNat ≤ (loop.step .fetch).idle) :
    Fed e fillers rest (loop.step .fetch) := by
  have steady := brings.along.first
  obtain ⟨keeps, core, controller, registers, transport⟩ :=
      h.toKeeps.fetch steady.disk steady.undisturbed limit
  have state : (loop.step .fetch).system.client.state = loop.system.served.1.core.state :=
    congrArg Core.state core
  have retries : (loop.step .fetch).system.client.retries = loop.system.served.1.core.retries :=
    congrArg Core.retries core
  have tokenizer : (loop.step .fetch).system.client.tokenizer = loop.system.served.1.core.tokenizer :=
    congrArg Core.tokenizer core
  refine ⟨keeps, ?_, ?_, ?_, core ▸ brings, ?_⟩
  · exact (congrArg Pipe.sent transport).trans h.sent
  · rw [written, controller, registers]
    exact h.begun
  · rw [tokenizer, FillLoop.ahead, FillLoop.unread, transport]
    exact ahead
  · rw [state, retries]
    exact patience

/-- A burst brings the answer further. If nothing came, the client waits on. -/
theorem Fed.fetch (h : Fed e fillers events loop) (patient : (loop.step .fetch).idle ≤ e.limit.toNat) :
    ∃ rest, Fed e fillers rest (loop.step .fetch) ∧ (events = [] → rest = []) := by
  have awake : loop.system.client.state ≠ .disconnected := by
    rcases h.brings.along.first.state with reading | ⟨inserted, -⟩
    · rw [show loop.system.client.state = _ from reading]
      nofun
    · rw [show loop.system.client.state = _ from inserted]
      nofun
  have core := core_served h.online awake
  by_cases nothing : loop.system.transport.received = []
  · rw [if_pos nothing] at core
    have idle (reading : loop.system.client.state = .reading) : (loop.step .fetch).idle = loop.idle + 1 :=
      if_pos ⟨reading, nothing⟩
    obtain ⟨brings, tokenizer, limit, state, retries⟩ := h.brings.wait fun reading => by
      have counted := h.patience reading
      rw [idle reading] at patient
      rw [show loop.system.core.retryLimit = _ from h.limit]
      exact (Nat.succ_le_succ counted).trans patient
    rw [← core] at brings tokenizer limit state retries
    refine ⟨events, h.served brings limit ?_ fun still => ?_, id⟩
    · rw [tokenizer, nothing]
      have ahead := h.ahead
      rw [FillLoop.ahead, nothing] at ahead
      exact ahead
    · have reading : loop.system.client.state = .reading := state.symm.trans still
      rw [idle reading]
      exact retries.trans (Nat.succ_le_succ (h.patience reading))
  · rw [if_neg nothing] at core
    have whole := h.ahead
    rw [FillLoop.ahead, ← loop.burst_append, List.append_assoc, List.append_assoc] at whole
    obtain ⟨rest, ahead, brings, ended, retries, limit⟩ := h.brings.take _ _ whole
    rw [← core, ← List.append_assoc] at ahead
    rw [← core] at brings retries limit
    exact ⟨rest, h.served brings limit ahead fun _ => (congrArg UInt32.toNat retries).trans_le (Nat.zero_le _), ended⟩

/-- Blank bytes make no events, and without a transfer nothing is waited for. -/
theorem Quiet.served (h : Quiet e loop) :
    ∃ tokenizer retries, loop.system.served.1.core = { loop.system.core with tokenizer, retries } ∧
      tokenizer.feed (loop.system.transport.received.drop Client.burstSize ++ loop.channel) = ({}, []) := by
  have awake : loop.system.client.state ≠ .disconnected := by rw [h.inserted]; nofun
  have core := core_served h.online awake
  have blank := h.blank
  by_cases nothing : loop.system.transport.received = []
  · refine ⟨loop.system.core.tokenizer, loop.system.core.retries, ?_, ?_⟩
    · rw [core, if_pos nothing]
      exact if_neg (by rw [show loop.system.core.state = _ from h.inserted]; nofun)
    · rw [nothing] at blank ⊢
      exact blank
  · rw [← loop.burst_append, List.append_assoc, Tokenizer.feed_append] at blank
    obtain ⟨rest, none⟩ := Prod.mk.inj blank
    obtain ⟨silent, later⟩ := List.append_eq_nil_iff.mp none
    refine ⟨(loop.system.core.tokenizer.feed loop.burst).1, 0, ?_, Prod.ext rest later⟩
    have cut : loop.system.core.tokenizer.feed loop.burst =
        ((loop.system.core.tokenizer.feed loop.burst).1, []) :=
      Prod.ext rfl silent
    rw [core, if_neg nothing, Core.take_eq cut]
    rfl

theorem Quiet.fetch (h : Quiet e loop) : Quiet e (loop.step .fetch) := by
  obtain ⟨tokenizer, retries, served, blank⟩ := h.served
  obtain ⟨keeps, core, controller, registers, transport⟩ :=
    h.toKeeps.fetch (by rw [served]; exact h.disk) (by rw [served]; rfl) (by rw [served])
  rw [served] at core
  refine ⟨keeps, ?_, ?_, ?_, ?_, ?_, ?_, ?_, h.unread, h.source, h.image, ?_⟩
  · exact (congrArg Core.state core).trans h.inserted
  · exact (congrArg Core.wholeTrack core).trans h.wholeTrack
  · exact (congrArg Levers.hint registers).trans h.hint
  · exact (congrArg (·.line.sector? e.position.track e.volume e.position.sector) core).trans h.missing
  · rw [controller]
    exact h.elsewhere
  · exact (congrArg Levers.written registers).trans h.unwritten
  · exact (congrArg Pipe.sent transport).trans h.unsent
  · have present : (loop.step .fetch).system.client.tokenizer = tokenizer := congrArg Core.tokenizer core
    rw [present, transport]
    exact blank

theorem Done.fetch (h : Done e fillers loop) : Done e fillers (loop.step .fetch) :=
  ⟨by rw [wire_fetch]; exact h.asked, h.played⟩

end Fetch

end Floppy.FillLoop
