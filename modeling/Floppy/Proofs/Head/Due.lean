import Floppy.Proofs.Controller.Pieces

/-!
# What is due from a head

A head that is asked for a byte goes on with its frame, or the frame of a sector is due: the one that the head stands
at, or the one that a hint names on arrival at another drive or track. Then the frame begins, or the sector is missing
and is asked for.
-/
namespace Floppy
open Gcr
namespace Head

/-- The sector whose frame has to begin with the next byte, none while a frame of the track is in progress. -/
def due? (head : Head) (slot : DriveSlot) (track : UInt8) (hint : Option Position) : Option UInt8 :=
  if head.isActive ∧ head.track = track then none
  else if head.slot = some slot ∧ head.track = track then some head.sector
  else
    match hint with
    | some p => some (if p.track = track then p.sector &&& 0x0F else head.sector)
    | none => some head.sector

/-- The sector that is due and cannot be read. -/
def missing? (head : Head) (slot : DriveSlot) (drive : Drive) (cache : TrackCache) (hint : Option Position) :
    Option FillRequest :=
  match head.due? slot drive.track hint with
  | none => none
  | some sector =>
    if cache.sector? slot drive.track drive.volume sector = none then some ⟨slot, drive.track, drive.volume, sector⟩
    else none

variable {head : Head} {slot : DriveSlot} {track sector : UInt8} {drive : Drive} {cache : TrackCache}
  {hint : Option Position}

theorem isActive_iff (head : Head) : head.isActive = true ↔ head.state ≠ .inactive := by
  simp [isActive]

theorem due?_eq_none_iff : head.due? slot track hint = none ↔ head.isActive ∧ head.track = track := by
  unfold due?
  split
  case isTrue going => simp [going]
  case isFalse idle =>
    simp only [idle, iff_false]
    split
    · simp
    · cases hint <;> simp

theorem due?_of_idle (still : head.state = .inactive) (there : head.slot = some slot) (at_ : head.track = track) :
    head.due? slot track hint = some head.sector := by
  simp [due?, isActive, still, there, at_]

/-- The head between frames at the drive and the track where a frame is due. -/
def ready (head : Head) (slot : DriveSlot) (track : UInt8) (hint : Option Position) : Head :=
  (head.moveTo track).arrive slot track hint

theorem moveTo_of_due (due : head.due? slot track hint = some sector) : head.moveTo track = head.abandon := by
  unfold moveTo
  split
  case isTrue => rfl
  case isFalse here =>
    have idle : ¬ head.isActive = true := by
      intro going
      rw [due?_eq_none_iff.mpr ⟨going, not_not.mp here⟩] at due
      cases due
    rw [abandon, if_neg idle]

theorem abandon_kept (head : Head) :
    head.abandon.slot = head.slot ∧ head.abandon.track = head.track ∧ head.abandon.sector = head.sector := by
  unfold abandon
  split
  · exact ⟨rfl, rfl, rfl⟩
  · exact ⟨rfl, rfl, rfl⟩

theorem ready_state (due : head.due? slot track hint = some sector) : (head.ready slot track hint).state = .inactive := by
  rw [ready, moveTo_of_due due]
  exact (arrive_kept ..).1.trans (Woven.abandon_state head)

theorem ready_stats (due : head.due? slot track hint = some sector) :
    (head.ready slot track hint).stats = head.abandon.stats := by
  rw [ready, moveTo_of_due due]
  exact (arrive_kept ..).2

theorem ready_sector (due : head.due? slot track hint = some sector) : (head.ready slot track hint).sector = sector := by
  obtain ⟨slots, tracks, sectors⟩ := abandon_kept head
  rw [ready, moveTo_of_due due, arrive, slots, tracks]
  unfold due? at due
  split at due
  case isTrue => cases due
  case isFalse =>
    split at due
    case isTrue here =>
      rw [if_pos here, sectors]
      exact Option.some.inj due
    case isFalse elsewhere =>
      rw [if_neg elsewhere]
      cases hint with
      | none => exact sectors.trans (Option.some.inj due)
      | some p =>
        by_cases meant : p.track = track
        · simpa [Option.filter, meant] using due
        · simpa [Option.filter, meant, sectors] using due

theorem next_of_due (due : head.due? slot drive.track hint = some sector) :
    head.next slot drive cache hint =
      { (head.ready slot drive.track hint).start slot drive cache with log := head.moveLog drive.track } := by
  have still : (head.moveTo drive.track).state = .inactive := by
    rw [moveTo_of_due due]
    exact Woven.abandon_state head
  simp only [next, still]
  rfl

theorem next_of_missing (due : head.due? slot drive.track hint = some sector)
    (missing : cache.sector? slot drive.track drive.volume sector = none) :
    head.next slot drive cache hint =
      { head := { head.ready slot drive.track hint with
          stats.fillersSent := (head.ready slot drive.track hint).stats.fillersSent + 1 }
        output := .filler
        fill := some ⟨slot, drive.track, drive.volume, sector⟩
        log := head.moveLog drive.track } := by
  obtain rfl := ready_sector due
  rw [next_of_due due, start]
  simp only [missing]

theorem next_of_cached (due : head.due? slot drive.track hint = some sector) {bytes : Sector}
    (cached : cache.sector? slot drive.track drive.volume sector = some bytes) :
    let frame := Frame.play (Frame.address drive.volume drive.track sector) bytes
    have more : frame.position + 1 < Frame.size := Frame.more_play _ _
    head.next slot drive cache hint =
      { head := { head.ready slot drive.track hint with
          state := .sending ⟨frame.bytes, frame.position + 1, more.le⟩
          stats.headersSent := (head.ready slot drive.track hint).stats.headersSent + 1 }
        output := .byte frame.bytes[frame.position]
        log := head.moveLog drive.track } := by
  obtain rfl := ready_sector due
  rw [next_of_due due, start_of_cached _ cached]

theorem send_output (head : Head) {frame : Playback Frame.size} (lt : frame.position < Frame.size) :
    (head.send frame).2 = .byte frame.bytes[frame.position] := by
  by_cases more : frame.position + 1 < Frame.size
  · rw [head.send_of_lt frame more]
  · rw [head.send_of_eq frame (by omega)]

theorem next_of_sending {frame : Playback Frame.size} (state : head.state = .sending frame)
    (here : head.track = drive.track) :
    head.next slot drive cache hint = { head := (head.send frame).1, output := (head.send frame).2 } := by
  have stays : head.moveTo drive.track = head := if_neg (not_not.mpr here)
  have quiet : head.moveLog drive.track = [] := if_neg fun moved => moved.1 here
  simp only [next, stays, state, quiet]

end Head
end Floppy
