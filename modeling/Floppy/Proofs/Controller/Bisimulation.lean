import Floppy.Proofs.Controller.Poll

/-!
# Two controllers at registers that look the same

A poll reads and writes the registers and uses the drive that they select, its line of the cache and the head. So two
controllers that agree on these do the same, whatever is behind their registers and whatever the other drive does.
-/
namespace Floppy

/-- Whoever reads and writes the one registers and the other finds no difference between them. -/
structure Registers.Bisimulation {ρ σ : Type} [Registers ρ] [Registers σ] (R : ρ → σ → Prop) : Prop where
  status : ∀ {a b}, R a b → (Registers.poll b).status = (Registers.poll a).status
  poll : ∀ {a b}, R a b → R (Registers.poll a).registers (Registers.poll b).registers
  write : ∀ {a b}, R a b → ∀ byte, R (Registers.write a byte).1 (Registers.write b byte).1
  hint : ∀ {a b}, R a b → Registers.hint b = Registers.hint a

theorem Registers.Bisimulation.eq (ρ : Type) [Registers ρ] : Registers.Bisimulation (Eq : ρ → ρ → Prop) where
  status same := by rw [same]
  poll same := by rw [same]
  write same _ := by rw [same]
  hint same := by rw [same]

theorem Head.next_congr (head : Head) {slot : DriveSlot} (drive : Drive) {cache other : TrackCache}
    (line : other.get slot = cache.get slot) (hint : Option Position) :
    head.next slot drive other hint = head.next slot drive cache hint := by
  have start (head : Head) : head.start slot drive other = head.start slot drive cache := by
    simp only [Head.start, TrackCache.sector?, line]
  simp only [Head.next, start]

namespace Controller

/-- The same but for drives outside of a set. -/
structure Agree (on : Set DriveSlot) (c d : Controller) : Prop where
  settings : d.settings = c.settings
  drives : ∀ slot ∈ on, d.drives.get slot = c.drives.get slot
  head : d.head = c.head
  lastStatus : d.lastStatus = c.lastStatus
  stats : d.stats = c.stats

namespace Agree
variable {on : Set DriveSlot} {c d : Controller}

theorem refl (on : Set DriveSlot) (c : Controller) : Agree on c c := ⟨rfl, fun _ _ => rfl, rfl, rfl, rfl⟩

theorem symm (h : Agree on c d) : Agree on d c :=
  ⟨h.settings.symm, fun slot mem => (h.drives slot mem).symm, h.head.symm, h.lastStatus.symm, h.stats.symm⟩

theorem trans {e : Controller} (h : Agree on c d) (g : Agree on d e) : Agree on c e :=
  ⟨g.settings.trans h.settings, fun slot mem => (g.drives slot mem).trans (h.drives slot mem), g.head.trans h.head,
    g.lastStatus.trans h.lastStatus, g.stats.trans h.stats⟩

theorem eq (h : Agree Set.univ c d) : d = c := by
  obtain ⟨settings, drives, head, lastStatus, stats⟩ := h
  obtain ⟨settings', ⟨external, internal⟩, head', lastStatus', stats'⟩ := d
  obtain rfl : external = c.drives.external := drives .external trivial
  obtain rfl : internal = c.drives.internal := drives .internal trivial
  subst settings head lastStatus stats
  rfl

theorem moveArm (h : Agree on c d) {status : Status} (selected : status.drive ∈ on) :
    Agree on (c.moveArm status).1 (d.moveArm status).1 := by
  have stepped (drive : Drive) : ∀ slot ∈ on,
      (d.drives.set status.drive drive).get slot = (c.drives.set status.drive drive).get slot := by
    intro slot mem
    by_cases same : slot = status.drive
    · rw [same, PerDrive.get_set_self, PerDrive.get_set_self]
    · rw [PerDrive.get_set_of_ne _ same, PerDrive.get_set_of_ne _ same]
      exact h.drives slot mem
  unfold Controller.moveArm
  dsimp only
  rw [h.drives _ selected]
  rcases ((c.drives.get status.drive).latch status).step status.phase with ⟨drive, step⟩
  cases step with
  | idle => exact ⟨h.settings, stepped drive, h.head, h.lastStatus, h.stats⟩
  | hitStop => exact ⟨h.settings, stepped drive, by simp only [h.head], h.lastStatus, by simp only [h.stats]⟩
  | moved => exact ⟨h.settings, stepped drive, by simp only [h.head], h.lastStatus, by simp only [h.stats]⟩

theorem switchTo (h : Agree on c d) (slot : DriveSlot) : Agree on (c.switchTo slot) (d.switchTo slot) := by
  unfold Controller.switchTo
  rw [h.head]
  split
  · exact ⟨h.settings, h.drives, rfl, h.lastStatus, h.stats⟩
  · exact h

end Agree

variable {ρ σ : Type} [Registers ρ] [Registers σ] {R : ρ → σ → Prop} {on : Set DriveSlot}

/-- Two runs in step: they have done the same, and their controllers agree. -/
structure Twins (R : ρ → σ → Prop) (on : Set DriveSlot) (run : Run ρ) (twin : Run σ) : Prop where
  controller : Agree on run.controller twin.controller
  registers : R run.registers twin.registers
  written : twin.written = run.written
  fills : twin.fills = run.fills

namespace Twins
variable {run : Run ρ} {twin : Run σ} {cache other : TrackCache}

theorem poll (h : Twins R on run twin) (alike : Registers.Bisimulation R) :
    twin.poll.1 = run.poll.1 ∧ Twins R on run.poll.2 twin.poll.2 := by
  obtain ⟨settings, drives, head, lastStatus, stats⟩ := h.controller
  exact ⟨alike.status h.registers,
    ⟨settings, drives, head, lastStatus, by simp only [Run.poll, stats]⟩, alike.poll h.registers, h.written,
    h.fills⟩

theorem write (h : Twins R on run twin) (alike : Registers.Bisimulation R) {slot : DriveSlot} (selected : slot ∈ on)
    (line : other.get slot = cache.get slot) (hint : Option Position) :
    Twins R on (run.write slot cache hint) (twin.write slot other hint) := by
  obtain ⟨settings, drives, head, lastStatus, stats⟩ := h.controller
  have pass : twin.controller.head.next slot (twin.controller.drives.get slot) other hint =
      run.controller.head.next slot (run.controller.drives.get slot) cache hint := by
    rw [head, drives slot selected, Head.next_congr _ _ line]
  refine ⟨⟨settings, drives, ?_, lastStatus, ?_⟩, ?_, ?_, ?_⟩
  · simp only [Run.write, pass]
  · simp only [Run.write, pass, stats]
  · simp only [Run.write, pass]
    exact alike.write h.registers _
  · simp only [Run.write, pass, h.written]
  · simp only [Run.write, pass, h.fills]

theorem await (h : Twins R on run twin) (alike : Registers.Bisimulation R) (first : Status) (patience : ℕ) :
    (twin.await first patience).1 = (run.await first patience).1 ∧
      Twins R on (run.await first patience).2 (twin.await first patience).2 := by
  induction patience generalizing run twin with
  | zero => exact ⟨rfl, h⟩
  | succ patience ih =>
    obtain ⟨status, polled⟩ := h.poll alike
    simp only [Run.await, status]
    split
    · exact ⟨rfl, polled⟩
    · split
      · exact ih polled
      · exact ⟨rfl, polled⟩

theorem burst (h : Twins R on run twin) (alike : Registers.Bisimulation R) {first : Status}
    (selected : first.drive ∈ on) (line : other.get first.drive = cache.get first.drive) (remaining : ℕ) :
    Twins R on (run.burst first cache remaining) (twin.burst first other remaining) := by
  induction remaining generalizing run twin with
  | zero => exact h
  | succ remaining ih =>
    obtain ⟨readiness, awaited⟩ := h.await alike first (max 1 run.controller.settings.burstPollLimit)
    simp only [Run.burst, h.controller.settings]
    rcases here : run.await first (max 1 run.controller.settings.burstPollLimit) with ⟨found, next⟩
    rcases there : twin.await first (max 1 run.controller.settings.burstPollLimit) with ⟨also, after⟩
    rw [here, there] at readiness awaited
    obtain rfl : also = found := readiness
    dsimp only at awaited
    cases also with
    | changed => exact awaited
    | stalled =>
      obtain ⟨settings, drives, head, lastStatus, stats⟩ := awaited.controller
      exact ⟨⟨settings, drives, head, lastStatus, by simp only [stats]⟩, awaited.registers, awaited.written,
        awaited.fills⟩
    | ready => exact ih (awaited.write alike selected line none)

end Twins

variable {c d : Controller} {registers : ρ} {others : σ} {cache other : TrackCache}

theorem Agree.polled (h : Agree on c d) (alike : Registers.Bisimulation R) (same : R registers others)
    (selected : (Registers.poll registers).status.drive ∈ on) :
    Twins R on (c.polled registers) (d.polled others) := by
  obtain ⟨settings, drives, head, -, stats⟩ := h
  have latched : Agree on
      { c with
        stats := { c.stats with polls := c.stats.polls + 1 }
        lastStatus := some (Registers.poll registers).status }
      { d with
        stats := { d.stats with polls := d.stats.polls + 1 }
        lastStatus := some (Registers.poll others).status } :=
    ⟨settings, drives, head, by simp only [alike.status same], by simp only [stats]⟩
  have moved := latched.moveArm selected
  refine ⟨?_, alike.poll same, rfl, rfl⟩
  simp only [Controller.polled, Run.poll]
  rw [alike.status same] at moved ⊢
  exact moved

/-- Controllers that agree on the selected drive still do after a poll, and they have done the same. -/
theorem Agree.pollOnce (h : Agree on c d) (alike : Registers.Bisimulation R) (same : R registers others)
    (selected : (Registers.poll registers).status.drive ∈ on)
    (line : other.get (Registers.poll registers).status.drive = cache.get (Registers.poll registers).status.drive) :
    Twins R on (c.pollOnce registers cache) (d.pollOnce others other) := by
  have polled := h.polled alike same selected
  rw [pollOnce_eq, pollOnce_eq, alike.status same]
  split
  case isTrue => exact polled
  case isFalse =>
    have switched : Twins R on ((c.polled registers).switch (Registers.poll registers).status.drive)
        ((d.polled others).switch (Registers.poll registers).status.drive) :=
      ⟨polled.controller.switchTo _, polled.registers, polled.written, polled.fills⟩
    have written := switched.write alike selected line (Registers.hint (c.polled registers).registers)
    unfold Run.serve
    dsimp only
    rw [alike.hint polled.registers, polled.controller.settings, written.controller.head]
    split
    case isTrue => exact written.burst alike selected line _
    case isFalse => exact written

end Controller
end Floppy
