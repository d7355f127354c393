import Floppy.Controller
import Mathlib.Tactic

/-!
# The parts of a poll

The registers are read once and the arm moves. If a byte is wanted then, it goes out, and in a burst the registers are
read and written in turn. So a poll keeps what each of these keeps.
-/
namespace Floppy.Controller
variable {ρ : Type} [Registers ρ]

/-- A poll up to where it may write, with the lines that it found. -/
def polled (c : Controller) (registers : ρ) : Run ρ :=
  let (status, run) := Run.poll { controller := c, registers : Run ρ }
  let (moved, log) := { run.controller with lastStatus := some status }.moveArm status
  { run with controller := moved, log := run.log ++ c.statusLog status ++ log }

def Run.switch (run : Run ρ) (slot : DriveSlot) : Run ρ :=
  { run with controller := run.controller.switchTo slot }

/-- A byte goes out, and in burst mode what is left of its frame. -/
def Run.serve (run : Run ρ) (status : Status) (cache : TrackCache) : Run ρ :=
  let next := (run.switch status.drive).write status.drive cache (Registers.hint run.registers)
  if run.controller.settings.burst then next.burst status cache next.controller.head.remaining else next

theorem pollOnce_eq (c : Controller) (registers : ρ) (cache : TrackCache) :
    c.pollOnce registers cache =
      if !(Registers.poll registers).status.wanted || (Registers.poll registers).status.pending then
        c.polled registers
      else (c.polled registers).serve (Registers.poll registers).status cache := rfl

/-- What holds wherever a poll may write, and what holds wherever it may end, once the lines were found so. -/
structure Upkeep (first : Status) (cache : TrackCache) (writes ends : Run ρ → Prop) : Prop where
  write : ∀ run hint, writes run → writes (run.write first.drive cache hint)
  read : ∀ run, writes run → ends run.poll.2 ∧
    (run.poll.1.wanted = true → run.poll.1.drive = first.drive → writes run.poll.2)
  stop : ∀ run, writes run → ends run
  stall : ∀ run stats, ends run → ends { run with controller.stats := stats }

namespace Upkeep
variable {first : Status} {cache : TrackCache} {writes ends : Run ρ → Prop} {run : Run ρ}

theorem await (h : Upkeep first cache writes ends) (patience : ℕ) (may : writes run) :
    ends (run.await first patience).2 ∧
      ((run.await first patience).1 = .ready → writes (run.await first patience).2) := by
  induction patience generalizing run with
  | zero => exact ⟨h.stop run may, nofun⟩
  | succ patience ih =>
    obtain ⟨done, goesOn⟩ := h.read run may
    simp only [Run.await]
    split
    case isTrue => exact ⟨done, nofun⟩
    case isFalse same =>
      simp only [Bool.or_eq_true, Bool.not_eq_true', decide_eq_true_eq, not_or, Bool.not_eq_false,
        not_not, ne_eq] at same
      have may := goesOn same.1.1 same.2
      split
      · exact ih may
      · exact ⟨done, fun _ => may⟩

theorem burst (h : Upkeep first cache writes ends) (remaining : ℕ) (may : writes run) :
    ends (run.burst first cache remaining) := by
  induction remaining generalizing run with
  | zero => exact h.stop run may
  | succ remaining ih =>
    obtain ⟨done, ready⟩ := h.await (max 1 run.controller.settings.burstPollLimit) may
    simp only [Run.burst]
    split
    case h_1 eq => rw [eq] at done; exact done
    case h_2 eq => rw [eq] at done; exact h.stall _ _ done
    case h_3 eq => rw [eq] at ready; exact ih (h.write _ none (ready rfl))

/-- From the first read on a poll keeps what its parts keep. -/
theorem pollOnce {c : Controller} {registers : ρ} (h : Upkeep (Registers.poll registers).status cache writes ends)
    (idle : ends (c.polled registers))
    (may : (Registers.poll registers).status.wanted = true →
      writes ((c.polled registers).switch (Registers.poll registers).status.drive)) :
    ends (c.pollOnce registers cache) := by
  rw [pollOnce_eq]
  split
  case isTrue => exact idle
  case isFalse asked =>
    simp only [Bool.or_eq_true, Bool.not_eq_true', not_or, Bool.not_eq_false] at asked
    have written := h.write _ (Registers.hint (c.polled registers).registers) (may asked.1)
    unfold Run.serve
    dsimp only
    split
    · exact h.burst _ written
    · exact h.stop _ written

end Upkeep
end Floppy.Controller
