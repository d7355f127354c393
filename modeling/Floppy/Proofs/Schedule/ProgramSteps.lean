import Floppy.Proofs.Schedule.Reentry

/-!
# Following a program

A program that runs on a machine is followed from one point of it to another. What is computed and what the steps lead
to go together, and since the steps inside of a pass are determined, there is no other way.
-/
namespace Floppy.Schedule
variable {C : Type}

/-- From the one state the pass comes to the other, whatever steps are taken. -/
structure Inevitable (s t : State C) : Prop where
  path : InnerSteps s t
  passed : ∀ u, InnerSteps s u → InnerSteps u t ∨ InnerSteps t u

theorem inevitable_of_path {s t : State C} (path : InnerSteps s t) : Inevitable s t :=
  ⟨path, fun _ other => Relation.ReflTransGen.total_of_right_unique Inner.rightUnique other path⟩

/-- A program on a machine gets to another point on another machine: so it is computed, and so the steps go, whatever is
under way around the program. -/
structure Leads (room : ℕ) (m : Machine C) (program : Program C) (m' : Machine C) (program' : Program C) : Prop where
  run : program.run (Machine.frame room) m = program'.run (Machine.frame room) m'
  steps : ∀ {limit : ℕ} {roster : List (Routine C)} {a : Activation C} {waiting : List (Waiter C)},
    Fair limit ⟨m, roster, .running a program waiting⟩ → limit < room + 1 + waiting.length →
      ∃ roster', Inevitable ⟨m, roster, .running a program waiting⟩ ⟨m', roster', .running a program' waiting⟩

namespace Leads
variable {room : ℕ} {m m' m'' : Machine C} {program program' program'' : Program C}

theorem refl : Leads room m program m program := ⟨rfl, fun _ _ => ⟨_, inevitable_of_path .refl⟩⟩

theorem trans (h : Leads room m program m' program') (h' : Leads room m' program' m'' program'') :
    Leads room m program m'' program'' := by
  refine ⟨h.run.trans h'.run, fun fair enough => ?_⟩
  obtain ⟨_, first⟩ := h.steps fair enough
  obtain ⟨roster', second⟩ := h'.steps (fair.steps (steps_of_inner first.path)) enough
  exact ⟨roster', inevitable_of_path (first.path.trans second.path)⟩

theorem update {change : C → Effect C} : Leads room m (.update change program) (m.update change) program :=
  ⟨rfl, fun _ _ => ⟨_, inevitable_of_path (.single ⟨.update, nofun⟩)⟩⟩

theorem look {next : View C → Program C} : Leads room m (.look next) m (next m.view) :=
  ⟨rfl, fun _ _ => ⟨_, inevitable_of_path (.single ⟨.look, nofun⟩)⟩⟩

theorem perform {α : Type} {change : C → α × Effect C} {next : α → Program C} :
    Leads room m (.perform change next) (m.update fun _ => (change m.context).2) (next (change m.context).1) :=
  .trans .look .update

theorem yield {next : Bool → Program C} :
    Leads room m (.yield next) (m.yieldWith (Machine.frame room)).2
      (next (m.yieldWith (Machine.frame room)).1) := by
  refine ⟨rfl, fun fair enough => ?_⟩
  obtain ⟨roster', path⟩ := (simulates_frame room).yield fair enough
  exact ⟨roster', inevitable_of_path path⟩

end Leads

end Floppy.Schedule
