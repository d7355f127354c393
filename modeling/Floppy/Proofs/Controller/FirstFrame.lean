import Floppy.Proofs.Controller.Sending

/-!
# The first frame

While the external drive stays selected and no phase is energized, a head that waits for a sector writes
fillers and asks for the sector, until it can be read; then it writes the frame, one byte after the other, and
asks for nothing before the frame is complete.
-/
namespace Floppy.Controller
open Gcr
open Bench (Levers)
variable {volume : UInt8} {run : Run Levers}

def Begun (position : Position) (frame : List UInt8) (fillers : ℕ) (head : Head) (written : List UInt8) :
    Prop :=
  Waits position fillers head written ∨ ∃ playback, Sends position.track frame fillers head written playback

/-- What a poll can come to: the head goes on as before, or it asks for the sector once more, or the frame is
complete. -/
inductive Progress (position : Position) (volume : UInt8) (frame : List UInt8) (fillers : ℕ)
    (cache : TrackCache)
    (run : Run Levers) : Prop where
  | goes (begun : Begun position frame fillers run.controller.head run.registers.written.toList)
    (stands : Stands position.track volume run) (fills : run.fills = [])
  | asks (waits : Waits position (fillers + 1) run.controller.head run.registers.written.toList)
    (stands : Stands position.track volume run)
    (fills : run.fills = [⟨.external, position.track, volume, position.sector⟩])
    (missing : cache.sector? .external position.track volume position.sector = none)
  | plays (played : Played frame fillers run.registers.written.toList)

variable {position : Position} {frame : List UInt8} {fillers : ℕ} {cache : TrackCache}

theorem Sends.rest {status : Status} (slot : status.drive = .external) {playback : Playback Frame.size}
    (h : Sends position.track frame fillers run.controller.head run.registers.written.toList playback)
    (stands : Stands position.track volume run) (fills : run.fills = []) (burst : Bool) :
    Progress position volume frame fillers cache
      (if burst then run.burst status cache run.controller.head.remaining else run) := by
  cases burst with
  | false => exact .goes (.inr ⟨playback, h⟩) stands fills
  | true =>
    have room : playback.position + run.controller.head.remaining ≤ Frame.size := by
      have lt := h.position_lt
      simp only [Head.remaining, h.state, Playback.remaining]
      omega
    obtain ⟨sends | played, same, stands⟩ := h.burst status slot cache _ stands room
    · exact .goes (.inr sends) stands (same.trans fills)
    · exact .plays played

theorem Waits.rest (status : Status)
    (h : Waits position fillers run.controller.head run.registers.written.toList)
    (burst : Bool) :
    (if burst then run.burst status cache run.controller.head.remaining else run) = run := by
  have none : run.controller.head.remaining = 0 := by simp only [Head.remaining, h.state]
  rw [none]
  cases burst <;> rfl

theorem Begun.slot {head : Head} {written : List UInt8} (h : Begun position frame fillers head written) :
    head.slot = some .external := by
  rcases h with waits | ⟨playback, sends⟩
  · exact waits.slot
  · exact sends.slot

/-- A head that has asked for a sector goes on to its frame and to nothing else. -/
theorem Begun.serve {bytes : Sector} {status : Status} (slot : status.drive = .external)
    (h : Begun position (frameOf volume position bytes) fillers run.controller.head
      run.registers.written.toList)
    (stands : Stands position.track volume run) (fills : run.fills = [])
    (right : ∀ found, cache.sector? .external position.track volume position.sector = some found →
      found = bytes) :
    Progress position volume (frameOf volume position bytes) fillers cache (run.serve status cache) := by
  unfold Run.serve
  dsimp only
  rw [slot, Run.switch_of_slot h.slot]
  rcases h with waits | ⟨playback, sends⟩
  · cases cached : cache.sector? .external position.track volume position.sector with
    | none =>
      obtain ⟨waits, asked⟩ :=
        waits.write_none stands cached (waits.next stands.track cache (Registers.hint run.registers))
      rw [waits.rest status]
      exact .asks waits (stands.write ..) (by rw [asked, fills]; rfl) cached
    | some found =>
      cases right found cached
      obtain ⟨⟨playback, sends⟩, same⟩ := waits.write_some stands cached (Registers.hint run.registers)
      exact sends.rest slot (stands.write ..) (same.trans fills) _
  · obtain ⟨⟨more, sends⟩ | ⟨-, played⟩, same⟩ := sends.write stands cache (Registers.hint run.registers)
    · exact sends.rest slot (stands.write ..) (same.trans fills) _
    · refine .plays (played.trans ?_)
      split
      case isTrue => exact written_burst ..
      case isFalse => exact List.prefix_refl _

theorem Begun.pollOnce {c : Controller} {registers : Levers} {bytes : Sector}
    (h : Begun position (frameOf volume position bytes) fillers c.head registers.written.toList)
    (rests : Rests position.track volume c registers)
    (right : ∀ found, cache.sector? .external position.track volume position.sector = some found →
      found = bytes) :
    Progress position volume (frameOf volume position bytes) fillers cache (c.pollOnce registers cache) := by
  have polled : Begun position (frameOf volume position bytes) fillers (c.polled registers).controller.head
      (c.polled registers).registers.written.toList := by
    rw [head_polled rests, written_polled]
    exact h
  rw [pollOnce_eq]
  split
  case isTrue => exact .goes polled rests.polled rfl
  case isFalse => exact polled.serve rests.still.poll.1 rests.polled rfl right

/-- The first poll that wants a byte brings the head to the sector of the hint, which is asked for. -/
theorem pollOnce_arrives {c : Controller} {registers : Levers} (elsewhere : c.head.slot ≠ some .external)
    (rests : Rests position.track volume c registers) (nothing : registers.written = #[])
    (hint : registers.hint = some position) (low : position.sector &&& 0x0F = position.sector)
    (missing : cache.sector? .external position.track volume position.sector = none) :
    Stands position.track volume (c.pollOnce registers cache) ∧
      ((c.pollOnce registers cache).controller.head = c.head ∧
          (c.pollOnce registers cache).registers.written = #[] ∧
          (c.pollOnce registers cache).registers.hint = some position ∧
            (c.pollOnce registers cache).fills = [] ∨
        Waits position 1 (c.pollOnce registers cache).controller.head
            (c.pollOnce registers cache).registers.written.toList ∧
          (c.pollOnce registers cache).fills = [⟨.external, position.track, volume, position.sector⟩]) := by
  have same : Registers.hint (c.polled registers).registers = some position := registers.hint_poll.trans hint
  have written : (c.polled registers).registers.written = #[] := (c.written_polled registers).trans nothing
  rw [pollOnce_eq]
  split
  case isTrue => exact ⟨rests.polled, .inl ⟨head_polled rests, written, same, rfl⟩⟩
  case isFalse =>
    have other : (c.polled registers).controller.head.slot ≠ some .external := by
      rw [head_polled rests]
      exact elsewhere
    obtain ⟨state, slot, drives⟩ := switchTo_of_ne other
    have stands : Stands position.track volume ((c.polled registers).switch .external) :=
      rests.polled.congr rfl drives
    obtain ⟨arrived, begins, passes⟩ := next_arrives state (by rw [slot]; exact other) stands.track low cache
    have waits : Waits position 0 arrived ((c.polled registers).switch .external).registers.written.toList :=
      ⟨begins.state, begins.slot, begins.track, begins.sector, congrArg Array.toList written⟩
    obtain ⟨asked, fills⟩ := waits.write_none stands missing passes
    unfold Run.serve
    dsimp only
    rw [rests.still.poll.1, same, asked.rest (Registers.poll registers).status]
    exact ⟨stands.write .., .inr ⟨asked, fills⟩⟩

end Floppy.Controller
