import Floppy.Proofs.Controller.Still

/-!
# From the first filler to the end of the frame

A head waits for a sector, and writes fillers; then it sends the frame of the sector, one byte after the other,
in bursts or not.
-/
namespace Floppy.Controller
open Gcr
open Bench (Levers)
variable {track volume : UInt8} {run : Run Levers}

def frameOf (volume : UInt8) (position : Position) (bytes : Sector) : List UInt8 :=
  Frame.encode (Frame.address volume position.track position.sector) bytes

/-- The head has come to a position of the external drive and has sent fillers only. -/
structure Waits (position : Position) (fillers : ℕ) (head : Head) (written : List UInt8) : Prop where
  state : head.state = .inactive
  slot : head.slot = some .external
  track : head.track = position.track
  sector : head.sector = position.sector
  written : written = List.replicate fillers syncByte

/-- Behind the fillers the head has begun the frame, and not ended it. -/
structure Sends (track : UInt8) (frame : List UInt8) (fillers : ℕ) (head : Head) (written : List UInt8)
    (playback : Playback Frame.size) : Prop where
  state : head.state = .sending playback
  content : playback.bytes.toList = frame
  position_lt : playback.position < Frame.size
  slot : head.slot = some .external
  track : head.track = track
  written : written = List.replicate fillers syncByte ++ frame.take playback.position

/-- Behind the fillers the frame was written to its end. -/
def Played (frame : List UInt8) (fillers : ℕ) (written : List UInt8) : Prop :=
  List.replicate fillers syncByte ++ frame <+: written

def Matches (a b : Head.Pass) : Prop := a.head = b.head ∧ a.output = b.output ∧ a.fill = b.fill

variable {position : Position} {frame : List UInt8} {fillers : ℕ} {cache : TrackCache}

theorem Waits.next {head : Head} {written : List UInt8} (h : Waits position fillers head written)
    {drive : Drive}
    (here : drive.track = position.track) (cache : TrackCache) (hint : Option Position) :
    Matches (head.next .external drive cache hint) (head.start .external drive cache) := by
  have stays : head.moveTo drive.track = head := by simp [Head.moveTo, h.track, here]
  have arrived : head.arrive .external drive.track hint = head := by simp [Head.arrive, h.slot, h.track, here]
  simp only [Matches, Head.next, stays, h.state, arrived, and_self]

theorem next_arrives {head : Head} (state : head.state = .inactive) (elsewhere : head.slot ≠ some .external)
    {drive : Drive} (here : drive.track = position.track) (low : position.sector &&& 0x0F = position.sector)
    (cache : TrackCache) :
    ∃ arrived : Head, Waits position 0 arrived [] ∧
      Matches (head.next .external drive cache (some position)) (arrived.start .external drive cache) := by
  have stays : head.moveTo drive.track = head := by simp [Head.moveTo, Head.abandon, Head.isActive, state]
  have kept : (some position).filter (·.track = position.track) = some position := by simp
  have arrived : head.arrive .external drive.track (some position) =
      { head with slot := some .external, track := position.track, sector := position.sector } := by
    simp only [Head.arrive, elsewhere, false_and, if_false, here, kept, low]
  refine ⟨{ head with slot := some .external, track := position.track, sector := position.sector },
    ⟨state, rfl, rfl, rfl, rfl⟩, ?_⟩
  simp only [Matches, Head.next, stays, state, arrived, and_self]

/-- A sector that cannot be read is asked for, and a filler goes out. -/
theorem Waits.write_none {head : Head} (h : Waits position fillers head run.registers.written.toList)
    (stands : Stands position.track volume run)
    (missing : cache.sector? .external position.track volume position.sector = none) {hint : Option Position}
    (same : Matches (run.controller.head.next .external (run.controller.drives.get .external) cache hint)
      (head.start .external (run.controller.drives.get .external) cache)) :
    Waits position (fillers + 1) (run.write .external cache hint).controller.head
        (run.write .external cache hint).registers.written.toList ∧
      (run.write .external cache hint).fills =
        run.fills ++ [⟨.external, position.track, volume, position.sector⟩] := by
  obtain ⟨same, output, fill⟩ := same
  have started : head.start .external (run.controller.drives.get .external) cache =
      { head := { head with stats.fillersSent := head.stats.fillersSent + 1 }
        output := .filler
        fill := some ⟨.external, position.track, volume, position.sector⟩ } := by
    simp only [Head.start, stands.track, stands.volume, h.sector, missing]
  rw [started] at same output fill
  refine ⟨⟨?_, ?_, ?_, ?_, ?_⟩, ?_⟩
  · exact (congrArg Head.state same).trans h.state
  · exact (congrArg Head.slot same).trans h.slot
  · exact (congrArg Head.track same).trans h.track
  · exact (congrArg Head.sector same).trans h.sector
  · simp only [Run.write, Levers.written_write, Array.toList_push, output, h.written]
    rw [List.replicate_succ']
    rfl
  · simp only [Run.write, fill]
    rfl

theorem Waits.write_some (h : Waits position fillers run.controller.head run.registers.written.toList)
    (stands : Stands position.track volume run) {bytes : Sector}
    (cached : cache.sector? .external position.track volume position.sector = some bytes)
    (hint : Option Position) :
    (∃ playback, Sends position.track (frameOf volume position bytes) fillers
        (run.write .external cache hint).controller.head
        (run.write .external cache hint).registers.written.toList playback) ∧
      (run.write .external cache hint).fills = run.fills := by
  obtain ⟨head, output, fill⟩ := h.next stands.track cache hint
  have readable : cache.sector? .external (run.controller.drives.get .external).track
      (run.controller.drives.get .external).volume run.controller.head.sector = some bytes := by
    rw [stands.track, stands.volume, h.sector, cached]
  have started := run.controller.head.start_of_cached readable
  dsimp only at started
  rw [started] at head output fill
  rw [stands.track, stands.volume, h.sector] at head output
  have content := Frame.content_play (Frame.address volume position.track position.sector) bytes
  refine ⟨⟨_, congrArg Head.state head, content, Frame.more_play _ _, ?_, ?_, ?_⟩, ?_⟩
  · exact (congrArg Head.slot head).trans h.slot
  · exact (congrArg Head.track head).trans h.track
  · have first := (Frame.play (Frame.address volume position.track position.sector) bytes).take_next
      (Nat.lt_of_succ_lt (Frame.more_play _ _))
    rw [content] at first
    simp only [Run.write, Levers.written_write, Array.toList_push, output, h.written]
    exact congrArg (List.replicate fillers syncByte ++ ·) first
  · simp only [Run.write, fill]
    exact List.append_nil _

/-- The next byte of the frame. -/
theorem Sends.write {playback : Playback Frame.size}
    (h : Sends track frame fillers run.controller.head run.registers.written.toList playback)
    (stands : Stands track volume run) (cache : TrackCache) (hint : Option Position) :
    ((∃ more : playback.position + 1 < Frame.size,
        Sends track frame fillers (run.write .external cache hint).controller.head
          (run.write .external cache hint).registers.written.toList
          ⟨playback.bytes, playback.position + 1, more.le⟩) ∨
      playback.position + 1 = Frame.size ∧
        Played frame fillers (run.write .external cache hint).registers.written.toList) ∧
      (run.write .external cache hint).fills = run.fills := by
  have lt := h.position_lt
  have stays :
      run.controller.head.moveTo (run.controller.drives.get .external).track = run.controller.head := by
    simp [Head.moveTo, h.track, stands.track]
  have grown : run.registers.written.toList ++ [playback.bytes[playback.position]] =
      List.replicate fillers syncByte ++ frame.take (playback.position + 1) := by
    rw [h.written, List.append_assoc, ← h.content, playback.take_next lt]
  by_cases more : playback.position + 1 < Frame.size
  · have next : run.controller.head.next .external (run.controller.drives.get .external) cache hint =
        { head :=
            { run.controller.head with state := .sending ⟨playback.bytes, playback.position + 1, more.le⟩ }
          output := .byte playback.bytes[playback.position]
          log := run.controller.head.moveLog (run.controller.drives.get .external).track } := by
      simp only [Head.next, stays, h.state, Head.send_of_lt _ _ more]
    refine ⟨.inl ⟨more, ⟨?_, h.content, more, ?_, ?_, ?_⟩⟩, ?_⟩
    · simp only [Run.write, next]
    · simp only [Run.write, next, h.slot]
    · simp only [Run.write, next, h.track]
    · simp only [Run.write, next, Levers.written_write, Array.toList_push]
      exact grown
    · simp only [Run.write, next]
      exact List.append_nil _
  · have last : playback.position + 1 = Frame.size := by omega
    have output :
        (run.controller.head.next .external (run.controller.drives.get .external) cache hint).output =
        .byte playback.bytes[playback.position] := by
      simp only [Head.next, stays, h.state, Head.send_of_eq _ _ last]
    have fill :
        (run.controller.head.next .external (run.controller.drives.get .external) cache hint).fill = none := by
      simp only [Head.next, stays, h.state]
    refine ⟨.inr ⟨last, ?_⟩, ?_⟩
    · have whole : frame.take (playback.position + 1) = frame := by
        rw [← h.content]
        exact List.take_of_length_le (by simp [last])
      rw [whole] at grown
      simp only [Played, Run.write, output, Levers.written_write, Array.toList_push, HeadOutput.value, grown]
      exact List.prefix_refl _
    · simp only [Run.write, fill]
      exact List.append_nil _

/-- The rest of a frame within one poll. -/
theorem Sends.burst (first : Status) (slot : first.drive = .external) (cache : TrackCache) (remaining : ℕ)
    {run : Run Levers} {playback : Playback Frame.size}
    (h : Sends track frame fillers run.controller.head run.registers.written.toList playback)
    (stands : Stands track volume run) (room : playback.position + remaining ≤ Frame.size) :
    ((∃ playback, Sends track frame fillers (run.burst first cache remaining).controller.head
        (run.burst first cache remaining).registers.written.toList playback) ∨
      Played frame fillers (run.burst first cache remaining).registers.written.toList) ∧
      (run.burst first cache remaining).fills = run.fills ∧
      Stands track volume (run.burst first cache remaining) := by
  induction remaining generalizing run playback with
  | zero => exact ⟨.inl ⟨playback, h⟩, rfl, stands⟩
  | succ remaining ih =>
    have alike := alike_await first (max 1 run.controller.settings.burstPollLimit) run
    have awaited := stands.await first (max 1 run.controller.settings.burstPollLimit)
    unfold Run.burst
    rcases found : run.await first (max 1 run.controller.settings.burstPollLimit) with ⟨readiness, next⟩
    rw [found] at alike awaited
    have sends : Sends track frame fillers next.controller.head next.registers.written.toList playback := by
      rw [alike.head, alike.written]
      exact h
    cases readiness with
    | changed => exact ⟨.inl ⟨playback, sends⟩, alike.fills, awaited⟩
    | stalled => exact ⟨.inl ⟨playback, sends⟩, alike.fills, awaited.still, awaited.track, awaited.volume⟩
    | ready =>
      dsimp only
      rw [slot]
      obtain ⟨more | ⟨last, played⟩, fills⟩ := sends.write awaited cache none
      · obtain ⟨more, sends⟩ := more
        obtain ⟨result, same, stands⟩ := ih sends (awaited.write ..) (by dsimp only; omega)
        exact ⟨result, same.trans (fills.trans alike.fills), stands⟩
      · have none_left : remaining = 0 := by omega
        subst none_left
        exact ⟨.inr played, fills.trans alike.fills, awaited.write ..⟩

end Floppy.Controller
