import Floppy.Proofs.Controller.Bisimulation

/-!
# A controller at its registers, poll after poll

Before each poll the settings and the cache may be any. An observer notes each byte that is written, with the registers
as they were then, and disturbs nothing.
-/
namespace Floppy.Controller
variable {ρ : Type} [Registers ρ]

/-- A controller and the registers that it polls. -/
structure Pairing (ρ : Type) where
  controller : Controller
  registers : ρ

namespace Pairing

def step (p : Pairing ρ) (call : ControllerSettings × TrackCache) : Pairing ρ :=
  let run := { p.controller with settings := call.1 }.pollOnce p.registers call.2
  { controller := run.controller, registers := run.registers }

def run (p : Pairing ρ) (calls : List (ControllerSettings × TrackCache)) : Pairing ρ := calls.foldl step p

end Pairing

/-- Registers with what was written to them so far, each byte with the registers that it came to. -/
structure Observed (ρ : Type) where
  registers : ρ
  writes : List (ρ × UInt8) := []

namespace Observed

instance : Registers (Observed ρ) where
  poll o :=
    let p := Registers.poll o.registers
    { status := p.status, registers := { o with registers := p.registers }, ticks := p.ticks, log := p.log }
  write o byte :=
    let (registers, log) := Registers.write o.registers byte
    ({ registers, writes := o.writes ++ [(o.registers, byte)] }, log)
  hint o := Registers.hint o.registers

theorem bisimulation : Registers.Bisimulation fun (o : Observed ρ) registers => o.registers = registers where
  status same := by rw [← same]; rfl
  poll same := by rw [← same]; rfl
  write same _ := by rw [← same]; rfl
  hint same := by rw [← same]; rfl

theorem run_registers (p : Pairing (Observed ρ)) (calls : List (ControllerSettings × TrackCache)) :
    (Pairing.run { controller := p.controller, registers := p.registers.registers } calls) =
      { controller := (p.run calls).controller, registers := (p.run calls).registers.registers } := by
  induction calls generalizing p with
  | nil => rfl
  | cons call calls ih =>
    have twins : Twins (fun (o : Observed ρ) registers => o.registers = registers) Set.univ
        ({ p.controller with settings := call.1 }.pollOnce p.registers call.2)
        ({ p.controller with settings := call.1 }.pollOnce p.registers.registers call.2) :=
      (Agree.refl _ _).pollOnce bisimulation rfl trivial rfl
    have same : Pairing.step { controller := p.controller, registers := p.registers.registers } call =
        { controller := (p.step call).controller, registers := (p.step call).registers.registers } := by
      rw [Pairing.step, twins.controller.eq, ← twins.registers]
      rfl
    rw [Pairing.run, List.foldl_cons, same]
    exact ih (p.step call)

end Observed
end Floppy.Controller
