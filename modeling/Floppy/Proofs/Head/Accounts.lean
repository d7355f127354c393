import Floppy.Proofs.Head.Due
import Floppy.Proofs.Head.Readback

/-!
# The accounts of a head

Whatever is done with a head, each frame that it began is complete, torn, or in progress, and its count of bytes is that
of the frame in progress. It asks for a sector with every filler, and only then: for the one that is due and missing.
-/
namespace Floppy
open Gcr

/-- A head, with all that it gave and asked for, and the bytes that have passed of the frame in progress. -/
structure Ledger where
  head : Head := {}
  outputs : List HeadOutput := []
  requests : List FillRequest := []
  frame : List UInt8 := []

namespace Ledger

/-- One call. A frame begins where the head counts a header, and it is left where the head is between frames. -/
def step (l : Ledger) : Head.Call → Ledger
  | .next slot drive cache hint =>
    let pass := l.head.next slot drive cache hint
    let earlier := if pass.head.stats.headersSent = l.head.stats.headersSent then l.frame else []
    { head := pass.head
      outputs := l.outputs ++ [pass.output]
      requests := l.requests ++ pass.fill.toList
      frame := if pass.head.isActive then earlier ++ [pass.output.value] else [] }
  | .moveTo track =>
    let head := l.head.moveTo track
    { l with head, frame := if head.isActive then l.frame else [] }
  | .reset sector =>
    let head := l.head.reset sector
    { l with head, frame := if head.isActive then l.frame else [] }

def run (calls : List Head.Call) : Ledger := calls.foldl step {}

/-- The frame in progress, if there is one. -/
inductive Follows (l : Ledger) : Prop
  | idle (still : l.head.state = .inactive) (nothing : l.frame = [])
  | inside {address : AddressField} {sector : Sector} {playback : Playback Frame.size}
      (state : l.head.state = .sending playback)
      (content : playback.bytes.toList = Frame.encode address sector)
      (passed : l.frame = playback.bytes.toList.take playback.position)
      (begun : 0 < playback.position) (lt : playback.position < Frame.size)

/-- What holds of the accounts after every call. -/
structure Balanced (l : Ledger) : Prop where
  follows : l.Follows
  headers : l.head.stats.headersSent =
    l.head.stats.sectorsSent + l.head.stats.tornSectors + if l.head.isActive then 1 else 0
  requests : l.head.stats.fillersSent = l.requests.length
  fillers : l.head.stats.fillersSent = l.outputs.count .filler

variable {l : Ledger} {slot : DriveSlot} {drive : Drive} {cache : TrackCache} {hint : Option Position}

theorem balanced_fresh : Balanced {} where
  follows := .idle rfl rfl
  headers := rfl
  requests := rfl
  fillers := rfl

theorem Balanced.abandon_headers (h : l.Balanced) :
    l.head.abandon.stats.headersSent = l.head.abandon.stats.sectorsSent + l.head.abandon.stats.tornSectors := by
  have headers := h.headers
  unfold Head.abandon
  by_cases active : l.head.isActive = true
  · rw [if_pos active] at headers ⊢
    exact headers
  · rw [if_neg active] at headers ⊢
    exact headers

theorem abandon_stats (head : Head) :
    head.abandon.stats.headersSent = head.stats.headersSent ∧
      head.abandon.stats.fillersSent = head.stats.fillersSent := by
  unfold Head.abandon
  split
  · exact ⟨rfl, rfl⟩
  · exact ⟨rfl, rfl⟩

namespace Balanced

theorem missing (h : l.Balanced) {sector : UInt8} (due : l.head.due? slot drive.track hint = some sector)
    (missing : cache.sector? slot drive.track drive.volume sector = none) :
    (l.step (.next slot drive cache hint)).Balanced := by
  obtain ⟨_, fillers⟩ := abandon_stats l.head
  have idle := Head.ready_state due
  have stats := Head.ready_stats due
  have stepped : l.step (.next slot drive cache hint) =
      { head := { l.head.ready slot drive.track hint with
          stats.fillersSent := (l.head.ready slot drive.track hint).stats.fillersSent + 1 }
        outputs := l.outputs ++ [.filler]
        requests := l.requests ++ [⟨slot, drive.track, drive.volume, sector⟩]
        frame := [] } := by
    simp [step, Head.next_of_missing due missing, Head.isActive, idle]
  rw [stepped]
  exact
    { follows := .idle idle rfl
      headers := by simp [Head.isActive, idle, stats, h.abandon_headers]
      requests := by simp [stats, fillers, h.requests]
      fillers := by simp [stats, fillers, h.fillers] }

theorem cached (h : l.Balanced) {sector : UInt8} (due : l.head.due? slot drive.track hint = some sector)
    {bytes : Sector} (cached : cache.sector? slot drive.track drive.volume sector = some bytes) :
    (l.step (.next slot drive cache hint)).Balanced := by
  obtain ⟨headers, fillers⟩ := abandon_stats l.head
  have stats := Head.ready_stats due
  have grown : (l.head.ready slot drive.track hint).stats.headersSent + 1 ≠ l.head.stats.headersSent := by
    rw [stats, headers]
    exact Nat.succ_ne_self _
  let frame := Frame.play (Frame.address drive.volume drive.track sector) bytes
  have content : frame.bytes.toList = Frame.encode (Frame.address drive.volume drive.track sector) bytes :=
    Frame.content_play _ _
  have more : frame.position + 1 < Frame.size := Frame.more_play _ _
  have stepped : l.step (.next slot drive cache hint) =
      { l with
        head := { l.head.ready slot drive.track hint with
          state := .sending ⟨frame.bytes, frame.position + 1, more.le⟩
          stats.headersSent := (l.head.ready slot drive.track hint).stats.headersSent + 1 }
        outputs := l.outputs ++ [.byte frame.bytes[frame.position]]
        frame := [frame.bytes[frame.position]] } := by
    simp [step, Head.next_of_cached due cached, Head.isActive, grown, HeadOutput.value, frame]
  rw [stepped]
  exact
    { follows := .inside rfl content (frame.take_next (Nat.lt_of_succ_lt more)) (Nat.succ_pos _) more
      headers := by simp [Head.isActive, stats, h.abandon_headers]
      requests := by simp [stats, fillers, h.requests]
      fillers := by simp [stats, fillers, h.fillers] }

/-- The frame in progress goes on. -/
theorem going (h : l.Balanced) (undue : l.head.due? slot drive.track hint = none) :
    (l.step (.next slot drive cache hint)).Balanced := by
  obtain ⟨active, here⟩ := Head.due?_eq_none_iff.mp undue
  rcases h.follows with ⟨still, _⟩ | @⟨address, sector, playback, state, content, passed, begun, lt⟩
  · exact absurd still ((Head.isActive_iff _).mp active)
  have longer : l.frame ++ [playback.bytes[playback.position]] =
      playback.bytes.toList.take (playback.position + 1) := by
    rw [passed, playback.take_next lt]
  have headers := h.headers
  rw [if_pos active] at headers
  by_cases more : playback.position + 1 < Frame.size
  · have stepped : l.step (.next slot drive cache hint) =
        { l with
          head := { l.head with state := .sending ⟨playback.bytes, playback.position + 1, more.le⟩ }
          outputs := l.outputs ++ [.byte playback.bytes[playback.position]]
          frame := l.frame ++ [playback.bytes[playback.position]] } := by
      simp [step, Head.next_of_sending state here, Head.send_of_lt _ _ more, Head.isActive, HeadOutput.value]
    rw [stepped]
    exact
      { follows := .inside rfl content longer (Nat.succ_pos _) more
        headers := by simpa [Head.isActive] using headers
        requests := h.requests
        fillers := by simp [h.fillers] }
  · have stepped : l.step (.next slot drive cache hint) =
        { l with
          head := { l.head with
            state := .inactive
            sector := (l.head.sector - 1) &&& 0x0F
            stats.sectorsSent := l.head.stats.sectorsSent + 1 }
          outputs := l.outputs ++ [.byte playback.bytes[playback.position]]
          frame := [] } := by
      simp [step, Head.next_of_sending state here, Head.send_of_eq _ playback (by omega), Head.isActive]
    rw [stepped]
    exact
      { follows := .idle rfl rfl
        headers := by simpa [Head.isActive, Nat.add_right_comm] using headers
        requests := h.requests
        fillers := by simp [h.fillers] }

theorem dropped (h : l.Balanced) {head : Head} (still : head.state = .inactive)
    (stats : head.stats = l.head.abandon.stats) : Balanced { l with head, frame := [] } := by
  obtain ⟨_, fillers⟩ := abandon_stats l.head
  rw [← stats] at fillers
  exact
    { follows := .idle still rfl
      headers := by simp [Head.isActive, still, stats, h.abandon_headers]
      requests := fillers.trans h.requests
      fillers := fillers.trans h.fillers }

theorem moveTo (h : l.Balanced) (track : UInt8) : (l.step (.moveTo track)).Balanced := by
  have still := Woven.abandon_state l.head
  by_cases moved : l.head.track ≠ track
  · have stepped : l.step (.moveTo track) = { l with head := l.head.abandon, frame := [] } := by
      simp [step, Head.moveTo, moved, Head.isActive, still]
    rw [stepped]
    exact h.dropped still rfl
  · have stepped : l.step (.moveTo track) = l := by
      rcases h.follows with ⟨still, nothing⟩ | ⟨state, _, _, _, _⟩
      · simp [step, Head.moveTo, moved, Head.isActive, still, ← nothing]
      · simp [step, Head.moveTo, moved, Head.isActive, state]
    rw [stepped]
    exact h

theorem reset (h : l.Balanced) (sector : UInt8) : (l.step (.reset sector)).Balanced := by
  have still : (l.head.reset sector).state = .inactive := Woven.abandon_state l.head
  have stepped : l.step (.reset sector) = { l with head := l.head.reset sector, frame := [] } := by
    simp [step, Head.isActive, still]
  rw [stepped]
  exact h.dropped still rfl

theorem step (h : l.Balanced) (call : Head.Call) : (l.step call).Balanced := by
  cases call with
  | next slot drive cache hint =>
    cases due : l.head.due? slot drive.track hint with
    | none => exact h.going due
    | some sector =>
      cases cached : cache.sector? slot drive.track drive.volume sector with
      | none => exact h.missing due cached
      | some bytes => exact h.cached due cached
  | moveTo track => exact h.moveTo track
  | reset sector => exact h.reset sector

/-- The bytes of the frame in progress are those at its beginning, and the head counts them. -/
theorem progress (h : l.Balanced) :
    l.head.bytesSent = l.frame.length ∧ l.frame.length < Frame.size ∧
      (l.head.isActive = true ↔ l.frame ≠ []) ∧ ∃ address sector, l.frame <+: Frame.encode address sector := by
  rcases h.follows with ⟨still, nothing⟩ | @⟨address, sector, playback, state, content, passed, begun, lt⟩
  · refine ⟨?_, ?_, ?_, ⟨0, 0, 0⟩, .replicate _ 0, ?_⟩
    · simp [Head.bytesSent, still, nothing]
    · simp [nothing]
    · simp [Head.isActive, still, nothing]
    · simp [nothing]
  · rw [content] at passed
    have length : l.frame.length = playback.position := by
      rw [passed, List.length_take, Frame.length_encode, Nat.min_eq_left lt.le]
    refine ⟨?_, length ▸ lt, ?_, address, sector, passed ▸ List.take_prefix _ _⟩
    · simp [Head.bytesSent, state, length]
    · have nonempty : l.frame ≠ [] := List.ne_nil_of_length_pos (length ▸ begun)
      simp [Head.isActive, state, nonempty]

/-- A filler passes for the sector that is due and missing, and it is asked for; else a byte passes. -/
theorem passes (h : l.Balanced) (slot : DriveSlot) (drive : Drive) (cache : TrackCache) (hint : Option Position) :
    match l.head.missing? slot drive cache hint with
    | some request =>
      (l.head.next slot drive cache hint).output = .filler ∧
        (l.head.next slot drive cache hint).fill = some request
    | none =>
      (∃ byte, (l.head.next slot drive cache hint).output = .byte byte) ∧
        (l.head.next slot drive cache hint).fill = none := by
  unfold Head.missing?
  cases due : l.head.due? slot drive.track hint with
  | none =>
    obtain ⟨active, here⟩ := Head.due?_eq_none_iff.mp due
    rcases h.follows with ⟨still, _⟩ | ⟨state, _, _, _, lt⟩
    · exact absurd still ((Head.isActive_iff _).mp active)
    · simp [Head.next_of_sending state here, Head.send_output _ lt]
  | some sector =>
    cases cached : cache.sector? slot drive.track drive.volume sector with
    | none => simp [Head.next_of_missing due cached, cached]
    | some bytes => simp [Head.next_of_cached due cached, cached]

end Balanced

theorem run_balanced (calls : List Head.Call) : (run calls).Balanced := by
  induction calls using List.reverseRecOn with
  | nil => exact balanced_fresh
  | append_singleton calls call ih =>
    have last : run (calls ++ [call]) = (run calls).step call := by simp [run]
    rw [last]
    exact ih.step call

/-- Each frame that began is complete, torn, or in progress, and the bytes of the one in progress are counted. There
was a filler and a request for each sector that was missing when it was due, and for nothing else. -/
theorem accounts_balance (calls : List Head.Call) :
    let l := run calls
    l.head.stats.headersSent =
        l.head.stats.sectorsSent + l.head.stats.tornSectors + (if l.head.isActive then 1 else 0) ∧
      (l.head.bytesSent = l.frame.length ∧ l.frame.length < Frame.size ∧
        (l.head.isActive = true ↔ l.frame ≠ []) ∧ ∃ address sector, l.frame <+: Frame.encode address sector) ∧
      (l.head.stats.fillersSent = l.requests.length ∧ l.head.stats.fillersSent = l.outputs.count .filler) ∧
      ∀ slot drive cache hint,
        match l.head.missing? slot drive cache hint with
        | some request =>
          (l.head.next slot drive cache hint).output = .filler ∧
            (l.head.next slot drive cache hint).fill = some request
        | none =>
          (∃ byte, (l.head.next slot drive cache hint).output = .byte byte) ∧
            (l.head.next slot drive cache hint).fill = none := by
  have balanced := run_balanced calls
  exact ⟨balanced.headers, balanced.progress, ⟨balanced.requests, balanced.fillers⟩, balanced.passes⟩

end Ledger
end Floppy
