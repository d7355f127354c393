import Floppy.Bench.Levers
import Floppy.Bench.Pipe
import Floppy.Proofs.Controller.Pieces
import Floppy.Proofs.Controller.Bisimulation
import Floppy.Proofs.System.Calls
import Floppy.Transport.Rings

/-!
# The internal drive by itself

While the registers select the internal drive, nothing that comes over the link reaches it: what the controller writes,
the line of the internal drive, the drive and the head are the same whatever the source sends and whenever it does.
-/
namespace Floppy

section
variable {ρ : Type} [Registers ρ]

/-- What a read or a write makes of registers. -/
inductive Registers.Touch : ρ → ρ → Prop
  | poll (registers : ρ) : Touch registers (Registers.poll registers).registers
  | write (registers : ρ) (byte : UInt8) : Touch registers (Registers.write registers byte).1

/-- Whatever is read and written, the internal drive is selected. -/
def Registers.SelectsInternal (registers : ρ) : Prop :=
  ∀ later, Relation.ReflTransGen Touch registers later → (poll later).status.drive = .internal

namespace Registers.SelectsInternal
variable {registers : ρ}

theorem drive (h : SelectsInternal registers) : (Registers.poll registers).status.drive = .internal := h _ .refl

theorem touch (h : SelectsInternal registers) {next : ρ} (touched : Touch registers next) : SelectsInternal next :=
  fun later reached => h later (.head touched reached)

theorem poll (h : SelectsInternal registers) : SelectsInternal (Registers.poll registers).registers :=
  h.touch (.poll registers)

theorem write (h : SelectsInternal registers) (byte : UInt8) : SelectsInternal (Registers.write registers byte).1 :=
  h.touch (.write registers byte)

end Registers.SelectsInternal
end

theorem Bench.Levers.settle_eq (levers : Bench.Levers) :
    levers.settle.lines.drive = levers.lines.drive ∧ levers.settle.script = levers.script := by
  unfold settle
  split
  · exact ⟨rfl, rfl⟩
  · split <;> exact ⟨rfl, rfl⟩

/-- Lines that nobody moves go on selecting the internal drive. -/
theorem Bench.Levers.selectsInternal {levers : Bench.Levers} (selected : levers.lines.drive = .internal)
    (nothing : levers.script = []) : Registers.SelectsInternal levers := by
  have shows {levers : Bench.Levers} (nothing : levers.script = []) :
      levers.poll = { status := levers.settle.lines, registers := levers.settle, ticks := levers.tick } := by
    rw [poll, nothing]
  intro later reached
  have kept : later.lines.drive = .internal ∧ later.script = [] := by
    induction reached with
    | refl => exact ⟨selected, nothing⟩
    | @tail before _ _ touched ih =>
      cases touched with
      | poll =>
        change before.poll.registers.lines.drive = .internal ∧ before.poll.registers.script = []
        rw [shows ih.2]
        exact ⟨before.settle_eq.1.trans ih.1, before.settle_eq.2.trans ih.2⟩
      | write => exact ih
  change later.poll.status.drive = .internal
  rw [shows kept.2]
  exact later.settle_eq.1.trans kept.1

namespace Head

/-- The head has read nothing yet, or was at this drive last. -/
def Attends (slot : DriveSlot) (head : Head) : Prop := head.slot = some slot ∨ head = {}

namespace Attends
variable {slot : DriveSlot} {head : Head}

theorem reset (h : head.Attends slot) : (head.reset 0).Attends slot := by
  obtain there | rfl := h
  · left
    unfold Head.reset abandon
    split <;> exact there
  · exact .inr rfl

theorem moveTo (h : head.Attends slot) (track : UInt8) : (head.moveTo track).Attends slot := by
  obtain there | rfl := h
  · left
    unfold Head.moveTo abandon
    split
    · split <;> exact there
    · exact there
  · right
    unfold Head.moveTo
    split <;> rfl

end Attends

theorem Attends.slot_next {slot : DriveSlot} {head : Head} (h : head.Attends slot) (drive : Drive) (cache : TrackCache)
    (hint : Option Position) : (head.next slot drive cache hint).head.slot = some slot :=
  (head.next_at (fun busy => h.resolve_right fun fresh => busy (by rw [fresh])) drive cache hint).1

end Head

namespace Controller
variable {slot : DriveSlot} {c : Controller}

theorem attends_moveArm (h : c.head.Attends slot) (status : Status) : (c.moveArm status).1.head.Attends slot := by
  unfold moveArm
  dsimp only
  split
  · exact h
  · exact h.reset
  · exact h.moveTo _

theorem switchTo_of_attends (h : c.head.Attends slot) : c.switchTo slot = c := by
  refine if_neg fun ⟨active, elsewhere⟩ => ?_
  obtain there | fresh := h
  · exact elsewhere there
  · rw [fresh] at active
    cases active

variable {ρ : Type} [Registers ρ]

/-- A run that has had to do with the internal drive only, and will not select the other one. -/
structure Run.Inside (run : Run ρ) : Prop where
  registers : Registers.SelectsInternal run.registers
  head : run.controller.head.Attends .internal
  fills : ∀ fill ∈ run.fills, fill.slot = .internal

theorem Run.Inside.upkeep {first : Status} (selected : first.drive = .internal) (cache : TrackCache) :
    Upkeep first cache (Run.Inside (ρ := ρ)) Run.Inside where
  write run hint h := by
    refine ⟨h.registers.write _, ?_, List.forall_mem_append.mpr ⟨h.fills, fun fill mem => ?_⟩⟩
    · rw [selected]
      exact .inl (h.head.slot_next _ cache hint)
    · exact (Head.target_fill (Option.mem_toList.mp mem)).1.trans selected
  read run h := ⟨⟨h.registers.poll, h.head, h.fills⟩, fun _ _ => ⟨h.registers.poll, h.head, h.fills⟩⟩
  stop run h := h
  stall run stats h := ⟨h.registers, h.head, h.fills⟩

theorem inside_pollOnce {registers : ρ} (selects : Registers.SelectsInternal registers)
    (attends : c.head.Attends .internal) (cache : TrackCache) : (c.pollOnce registers cache).Inside := by
  have polled : (c.polled registers).Inside :=
    ⟨selects.poll, attends_moveArm (by exact attends) _, List.forall_mem_nil _⟩
  refine (Run.Inside.upkeep selects.drive cache).pollOnce polled fun _ => ?_
  rw [selects.drive, Run.switch, switchTo_of_attends polled.head]
  exact polled

end Controller

theorem FillQueue.get_foldl_of_forall {fills : List FillRequest} {slot other : DriveSlot}
    (asked : ∀ fill ∈ fills, fill.slot = slot) (ne : other ≠ slot) :
    (fills.foldl request empty).get other = none := by
  refine List.foldlRecOn fills request (motive := fun queue => queue.get other = none) ?_ ?_
  · cases other <;> rfl
  · intro queue waits fill mem
    rw [request, PerDrive.get_set_of_ne _ (by rw [asked fill mem]; exact ne)]
    exact waits

namespace DiskSystem
variable {ρ τ σ δ : Type} [Registers ρ]

/-- The internal drive is selected for good, and the head has been nowhere else. -/
structure Inward (system : DiskSystem ρ τ δ) : Prop where
  registers : Registers.SelectsInternal system.registers
  head : system.controller.head.Attends .internal

/-- The same but for what has to do with the external drive. -/
structure Alike (a : DiskSystem ρ τ δ) (b : DiskSystem ρ σ δ) : Prop where
  controller : Controller.Agree {.internal} a.controller b.controller
  registers : b.registers = a.registers
  line : b.cache.internal = a.cache.internal
  loader : b.loader = a.loader
  storage : b.storage = a.storage

def deposited (system : DiskSystem ρ τ δ) : Call → List UInt8
  | .drive => (system.controller.pollOnce system.registers system.cache).written.toList
  | _ => []

variable {a : DiskSystem ρ τ δ} {b : DiskSystem ρ σ δ}

theorem Alike.twins (h : Alike a b) (inward : a.Inward) :
    Controller.Twins Eq {.internal} (a.controller.pollOnce a.registers a.cache)
      (b.controller.pollOnce b.registers b.cache) := by
  refine h.controller.pollOnce (.eq ρ) h.registers.symm inward.registers.drive ?_
  rw [inward.registers.drive]
  exact h.line

theorem Alike.deposited (h : Alike a b) (inward : a.Inward) (call : Call) : b.deposited call = a.deposited call := by
  cases call with
  | drive => exact congrArg Array.toList (h.twins inward).written
  | _ => rfl

variable [Transport τ]

theorem Inward.agree_fetchPass (h : a.Inward) :
    Controller.Agree {.internal} a.controller a.fetchPass.2.context.controller := by
  have set : Controller.Agree {.internal} a.controller (a.controller.setVolume .external a.served.1.volume) :=
    ⟨rfl, fun slot internal => internal ▸ rfl, rfl, rfl, rfl⟩
  rw [controller_fetchPass]
  split
  case isFalse => exact set
  case isTrue reset =>
    have fresh : a.controller.head = {} := h.head.resolve_left reset.2
    refine ⟨rfl, set.drives, ?_, rfl, rfl⟩
    change a.controller.head.reset 0 = a.controller.head
    rw [fresh]
    rfl

variable [Transport σ] [StorageDevice δ]

namespace Inward

theorem perform_drive (h : a.Inward) : ∃ loader, a.perform .drive = { a.polled with loader } ∧
    loader = (a.polled.requestInternal a.wants.internal).context.loader := by
  have asked := (Controller.inside_pollOnce h.registers h.head a.cache).fills
  have nothing : a.wants.get .external = none := FillQueue.get_foldl_of_forall asked nofun
  change a.wants.external = none at nothing
  rw [DiskSystem.perform_drive, nothing]
  obtain ⟨loader, same⟩ := requestInternal_eq a.polled a.wants.internal
  exact ⟨loader, same, by rw [same]⟩

theorem perform (h : a.Inward) (call : Call) : (a.perform call).Inward := by
  cases call with
  | drive =>
    obtain ⟨loader, same, -⟩ := h.perform_drive
    have inside := Controller.inside_pollOnce h.registers h.head a.cache
    rw [same]
    exact ⟨inside.registers, inside.head⟩
  | fetch => exact ⟨h.registers, h.agree_fetchPass.head ▸ h.head⟩
  | internal => exact ⟨h.registers, h.head⟩
  | storage => exact ⟨h.registers, h.head⟩
  | reinit => exact ⟨h.registers, .inr rfl⟩

end Inward

theorem Alike.perform (h : Alike a b) (here : a.Inward) (there : b.Inward) (call : Call) :
    Alike (a.perform call) (b.perform call) := by
  cases call with
  | drive =>
    have twins := h.twins here
    obtain ⟨loader, same, loads⟩ := here.perform_drive
    obtain ⟨loader', same', loads'⟩ := there.perform_drive
    have wants : b.wants = a.wants := by rw [wants, wants, twins.fills]
    have asked : loader' = loader := by
      rw [loads, loads', wants]
      cases a.wants.internal with
      | none => exact h.loader
      | some target => exact congrArg (fun loader => (loader.request target.track target.volume).1) h.loader
    rw [same, same']
    exact ⟨twins.controller, twins.registers.symm, h.line, asked, h.storage⟩
  | fetch =>
    exact ⟨here.agree_fetchPass.symm.trans (h.controller.trans there.agree_fetchPass), h.registers, h.line, h.loader,
      h.storage⟩
  | internal =>
    have pass : b.loader.service b.storage b.cache.internal = a.loader.service a.storage a.cache.internal := by
      rw [h.loader, h.storage, h.line]
    exact ⟨h.controller, h.registers, congrArg (·.line) pass, congrArg (·.loader) pass, h.storage⟩
  | storage => exact ⟨h.controller, h.registers, h.line, h.loader, congrArg StorageDevice.service h.storage⟩
  | reinit =>
    refine ⟨⟨h.controller.settings, fun slot internal => ?_, rfl, rfl, rfl⟩, h.registers, rfl,
      congrArg TrackLoader.cancel h.loader, h.storage⟩
    obtain rfl : slot = .internal := internal
    exact congrArg Drive.reset (h.controller.drives .internal rfl)

/-- A disk system with all that was put into the data register. -/
structure Recorded (ρ τ δ : Type) where
  system : DiskSystem ρ τ δ
  written : List UInt8 := []

namespace Recorded

/-- A call, with the link in some state of its own choosing. -/
def step (r : Recorded ρ τ δ) (call : Call × τ) : Recorded ρ τ δ :=
  let system := { r.system with transport := call.2 }
  { system := system.perform call.1, written := r.written ++ system.deposited call.1 }

def run (r : Recorded ρ τ δ) (calls : List (Call × τ)) : Recorded ρ τ δ := calls.foldl step r

/-- Two records that nobody can tell apart who sees the internal drive only. -/
structure Matches (r : Recorded ρ τ δ) (q : Recorded ρ σ δ) : Prop where
  systems : Alike r.system q.system
  here : r.system.Inward
  there : q.system.Inward
  written : q.written = r.written

namespace Matches
variable {r : Recorded ρ τ δ} {q : Recorded ρ σ δ}

theorem step (h : r.Matches q) (call : Call) (link : τ) (other : σ) :
    (r.step (call, link)).Matches (q.step (call, other)) := by
  have systems : Alike { r.system with transport := link } { q.system with transport := other } := { h.systems with }
  have here : Inward { r.system with transport := link } := { h.here with }
  have there : Inward { q.system with transport := other } := { h.there with }
  refine ⟨systems.perform here there call, here.perform call, there.perform call, ?_⟩
  rw [Recorded.step, Recorded.step, systems.deposited here, h.written]

theorem run (h : r.Matches q) (calls : List (Call × τ × σ)) :
    (r.run (calls.map fun (call, link, _) => (call, link))).Matches
      (q.run (calls.map fun (call, _, link) => (call, link))) := by
  induction calls generalizing r q with
  | nil => exact h
  | cons call calls ih => exact ih (h.step call.1 call.2.1 call.2.2)

end Matches

/-- Two disk systems that are built alike, with registers that select the internal drive whatever is read and written.
However their links differ at each call, they write the same, and so far as the internal drive and the head go they
are in the same state. -/
theorem internal_undisturbed (settings : SystemSettings) (trace : Trace) (registers : ρ)
    (selects : Registers.SelectsInternal registers) (storage : δ) (link : τ) (other : σ)
    (calls : List (Call × τ × σ)) :
    let a := run { system := .new settings trace registers link storage }
      (calls.map fun (call, link, _) => (call, link))
    let b := run { system := .new settings trace registers other storage }
      (calls.map fun (call, _, link) => (call, link))
    b.written = a.written ∧ b.system.cache.internal = a.system.cache.internal ∧
      b.system.controller.drives.internal = a.system.controller.drives.internal ∧
      b.system.controller.head = a.system.controller.head := by
  intro a b
  have start : Matches { system := .new settings trace registers link storage : Recorded ρ τ δ }
      { system := .new settings trace registers other storage : Recorded ρ σ δ } :=
    ⟨⟨.refl _ _, rfl, rfl, rfl, rfl⟩, ⟨selects, .inr rfl⟩, ⟨selects, .inr rfl⟩, rfl⟩
  have same : a.Matches b := start.run calls
  exact ⟨same.written, same.systems.line, same.systems.controller.drives .internal rfl,
    same.systems.controller.head⟩

/-- Between two reads of the internal drive one link announces a disk, and the other is silent. -/
theorem internal_undisturbed_announcement :
    let levers : Bench.Levers :=
      { lines := { phase := 0, motor := true, drive := .internal, wanted := true, pending := false } }
    let announced : Bench.Pipe := { received := (Fetch.Message.volume 7).encode }
    let silent : Rings := { capacity := 8 }
    let storage := Flash.erased storageSize 256 1
    let calls := [(.drive, announced, silent), (.fetch, announced, silent), (.drive, announced, silent)]
    let a := run { system := .new {} {} levers announced storage } (calls.map fun (call, link, _) => (call, link))
    let b := run { system := .new {} {} levers silent storage } (calls.map fun (call, _, link) => (call, link))
    Registers.SelectsInternal levers ∧
      b.written = a.written ∧ b.system.cache.internal = a.system.cache.internal ∧
      b.system.controller.drives.internal = a.system.controller.drives.internal ∧
      b.system.controller.head = a.system.controller.head := by
  intro levers announced silent storage calls a b
  have selects : Registers.SelectsInternal levers := Bench.Levers.selectsInternal rfl rfl
  exact ⟨selects, internal_undisturbed {} {} levers selects storage announced silent calls⟩

end Recorded
end DiskSystem
end Floppy
