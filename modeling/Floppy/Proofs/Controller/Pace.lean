import Floppy.Proofs.Byte
import Floppy.Proofs.Controller.Arm
import Floppy.Proofs.Controller.Handshake
import Floppy.Proofs.Head.Rotation

/-!
# The pace of the bytes

Bursts and single bytes, waiting and giving up change when a byte is written, and never which. As long as the reads show
the same drive and the same phases, the phases act on the arm once, at the first read. From then on what is written is
what passes under the head, byte by byte.
-/
namespace Floppy

namespace Drive
variable {drive : Drive} {lines : UInt8}

/-- The lines pull the arm no further. -/
def Rests (drive : Drive) (lines : UInt8) : Prop := drive.step lines = (drive, .idle)

theorem latch_step (drive : Drive) (status : Status) (lines : UInt8) :
    (drive.latch status).step lines = ((drive.step lines).1.latch status, (drive.step lines).2) := by
  unfold step
  split
  · rfl
  · dsimp only [latch]
    split <;> rfl

theorem Rests.latch (h : drive.Rests lines) (status : Status) : (drive.latch status).Rests lines := by
  rw [Rests, latch_step, h]

theorem pull_self (phase : UInt8) : pull phase phase = 0 :=
  forall_byte (p := fun phase => pull phase phase = 0) (by decide) phase

theorem OnDisk.rests_step (h : drive.OnDisk) (lines : UInt8) : (drive.step lines).1.Rests lines := by
  cases lone : lonePhase? lines with
  | none => simp only [Rests, Drive.step, lone]
  | some phase =>
    obtain ⟨low, high⟩ := h.step lines
    have pulled : (drive.step lines).1.phase = phase := by
      rw [Drive.step, lone]
      dsimp only
      split <;> rfl
    generalize (drive.step lines).1 = next at low high pulled
    subst pulled
    have stays : min next.halfTrack maxHalfTrack = next.halfTrack := min_eq_left high
    simp only [Rests, Drive.step, lone, pull_self, Int.add_zero, if_neg (not_lt.mpr low), stays, if_true]

end Drive

namespace Head

/-- The head turns to a drive; a frame that was begun for the other one is torn. -/
def turnTo (head : Head) (slot : DriveSlot) : Head :=
  if head.isActive ∧ head.slot ≠ some slot then head.reset head.sector else head

variable {head : Head} {slot : DriveSlot} {drive other : Drive}

theorem turnTo_of_own (own : head.state ≠ .inactive → head.slot = some slot) : head.turnTo slot = head :=
  if_neg fun ⟨active, elsewhere⟩ => elsewhere (own (head.isActive_iff.mp active))

theorem turnTo_own (head : Head) (slot : DriveSlot) :
    (head.turnTo slot).state ≠ .inactive → (head.turnTo slot).slot = some slot := by
  unfold turnTo
  split
  case isTrue => exact fun busy => absurd (Woven.abandon_state head) busy
  case isFalse own =>
    intro busy
    by_contra elsewhere
    exact own ⟨head.isActive_iff.mpr busy, elsewhere⟩

theorem next_congr_drive (track : drive.track = other.track) (volume : drive.volume = other.volume) (head : Head)
    (slot : DriveSlot) (cache : TrackCache) (hint : Option Position) :
    head.next slot drive cache hint = head.next slot other cache hint := by
  unfold next start
  rw [track, volume]

end Head

namespace Controller
variable {ρ : Type} [Registers ρ]

theorem head_switchTo (c : Controller) (slot : DriveSlot) : (c.switchTo slot).head = c.head.turnTo slot := by
  unfold switchTo Head.turnTo
  split <;> rfl

/-- What the phases make of the arm of a drive and of the head. -/
def pulled (c : Controller) (slot : DriveSlot) (phase : UInt8) : Drive × Head :=
  match (c.drives.get slot).step phase with
  | (drive, .idle) => (drive, c.head)
  | (drive, .hitStop) => (drive, c.head.reset 0)
  | (drive, .moved _ _) => (drive, c.head.moveTo drive.track)

theorem moveArm_pulled (c : Controller) (status : Status) :
    (c.moveArm status).1.drives.get status.drive = (c.pulled status.drive status.phase).1.latch status ∧
      (c.moveArm status).1.head = (c.pulled status.drive status.phase).2 := by
  have latched := (c.drives.get status.drive).latch_step status status.phase
  rw [drives_moveArm, PerDrive.get_set_self, latched]
  unfold moveArm pulled
  dsimp only
  rw [latched]
  rcases (c.drives.get status.drive).step status.phase with ⟨drive, _ | _ | _⟩ <;> exact ⟨rfl, rfl⟩

theorem arm_polled (c : Controller) (registers : ρ) :
    (c.polled registers).controller.drives.get (shown registers).drive =
        (c.pulled (shown registers).drive (shown registers).phase).1.latch (shown registers) ∧
      (c.polled registers).controller.head = (c.pulled (shown registers).drive (shown registers).phase).2 :=
  (c.noted registers).moveArm_pulled (shown registers)

theorem pulled_of_rests {c : Controller} {slot : DriveSlot} {phase : UInt8} (h : (c.drives.get slot).Rests phase) :
    c.pulled slot phase = (c.drives.get slot, c.head) := by
  rw [pulled, h]

theorem pulled_rests {c : Controller} {slot : DriveSlot} (h : c.OnDisk) (phase : UInt8) :
    (c.pulled slot phase).1.Rests phase := by
  have rests := (h slot).rests_step phase
  unfold pulled
  split
  all_goals
    rename_i stepped
    rw [stepped] at rests
    exact rests

/-- An access that shows this drive, these phases and this hint, whatever else it shows. -/
def Access.Shows (slot : DriveSlot) (phase : UInt8) (hint : Option Position) : Access → Prop
  | .read status => status.drive = slot ∧ status.phase = phase
  | .hint position => position = hint
  | .write _ => True

def configured (c : Controller) (settings : ControllerSettings) : Controller := { c with settings }

/-- What several polls do, each with settings and registers of its own. What a single one writes and asks for is in
its `Course.accounts`. -/
inductive Courses (cache : TrackCache) : Controller → List (ControllerSettings × ρ) → List Access → Prop
  | nil {c : Controller} : Courses cache c [] []
  | cons {c : Controller} {settings : ControllerSettings} {registers : ρ} {polls : List (ControllerSettings × ρ)}
      {accesses rest : List Access}
      (course : Course (c.configured settings) registers cache accesses
        ((c.configured settings).pollOnce registers cache))
      (later : Courses cache ((c.configured settings).pollOnce registers cache).controller polls rest) :
      Courses cache c ((settings, registers) :: polls) (accesses ++ rest)

section
variable {c : Controller} {cache : TrackCache} {polls : List (ControllerSettings × ρ)} {x y : List Access}

theorem Courses.unique (h : Courses cache c polls x) (g : Courses cache c polls y) : y = x := by
  induction h generalizing y with
  | nil => cases g; rfl
  | cons course _ ih =>
    cases g with
    | cons other more => rw [(course.unique other).1, ih more]

theorem exists_courses {pieces : List Piece} (h : Woven c.head pieces) (cache : TrackCache)
    (polls : List (ControllerSettings × ρ)) : ∃ accesses, Courses cache c polls accesses := by
  induction polls generalizing c pieces with
  | nil => exact ⟨[], .nil⟩
  | cons poll polls ih =>
    obtain ⟨settings, registers⟩ := poll
    have woven : Woven (c.configured settings).head pieces := h
    obtain ⟨accesses, course⟩ := course_pollOnce (.of_woven woven) registers cache
    obtain ⟨grown, -, woven⟩ := pollOnce_woven woven registers cache
    obtain ⟨rest, later⟩ := ih woven
    exact ⟨_, .cons course later⟩

end

section
variable (slot : DriveSlot) (phase : UInt8) (arm : Drive) (base : Head) (cache : TrackCache) (hint : Option Position)

def passing (count : ℕ) : List Sent :=
  (List.range count).map fun i => .of (base.passAt slot (fun _ => arm) (fun _ => cache) (fun _ => hint) i)

/-- The phases pull the arm no further, and what passed under the head was written, so far and no further. -/
structure Paced (drive : Drive) (head : Head) (written : List Sent) : Prop where
  rests : drive.Rests phase
  track : drive.track = arm.track
  volume : drive.volume = arm.volume
  head : head.turnTo slot = base.after slot (fun _ => arm) (fun _ => cache) (fun _ => hint) written.length
  same : written = passing slot arm base cache hint written.length

end

variable {slot : DriveSlot} {phase : UInt8} {arm drive : Drive} {base head : Head} {cache : TrackCache}
  {hint : Option Position} {written : List Sent}

theorem take_passing {count k : ℕ} (le : k ≤ count) :
    (passing slot arm base cache hint count).take k = passing slot arm base cache hint k := by
  rw [passing, ← List.map_take, List.take_range, Nat.min_eq_left le]
  rfl

namespace Paced

theorem write (h : Paced slot phase arm base cache hint drive head written)
    (own : head.state ≠ .inactive → head.slot = some slot) {other : Option Position}
    (same : head.next slot drive cache other = head.next slot drive cache hint) :
    Paced slot phase arm base cache hint drive (head.next slot drive cache other).head
      (written ++ [.of (head.next slot drive cache other)]) := by
  have reached : head = base.after slot (fun _ => arm) (fun _ => cache) (fun _ => hint) written.length :=
    (Head.turnTo_of_own own).symm.trans h.head
  have passes : head.next slot drive cache other =
      base.passAt slot (fun _ => arm) (fun _ => cache) (fun _ => hint) written.length := by
    rw [same, Head.next_congr_drive h.track h.volume, reached]
    rfl
  refine ⟨h.rests, h.track, h.volume, ?_, ?_⟩
  · rw [Head.turnTo_of_own fun _ => (head.next_at own drive cache other).1, passes, List.length_append]
    rfl
  · rw [List.length_append, passes, passing, List.length_singleton, List.range_succ, List.map_append]
    exact congrArg (· ++ _) h.same

theorem turn (h : Paced slot phase arm base cache hint drive head written) :
    Paced slot phase arm base cache hint drive (head.turnTo slot) written :=
  ⟨h.rests, h.track, h.volume, (Head.turnTo_of_own (head.turnTo_own slot)).trans h.head, h.same⟩

variable {c : Controller} {registers : ρ} {accesses : List Access}

/-- In a burst the head is on its track, where no hint counts. -/
theorem streams {first : Status} {idle : ℕ} {run last : Run ρ} (h : Run.Streams first cache idle run accesses last)
    (selected : first.drive = slot)
    (paced : Paced slot phase arm base cache hint (run.controller.drives.get slot) run.controller.head written)
    (onTrack : run.controller.head.OnTrack slot (run.controller.drives.get slot).track) :
    Paced slot phase arm base cache hint (last.controller.drives.get slot) last.controller.head
      (written ++ writes accesses) := by
  induction h generalizing written with
  | done => simpa using paced
  | changed =>
    rw [writes_read, writes_nil, List.append_nil]
    exact paced
  | stalled =>
    rw [writes_read, writes_nil, List.append_nil]
    exact paced
  | waits _ _ _ _ _ ih => exact ih paced onTrack
  | writes _ _ _ _ ih =>
    subst selected
    have more := paced.write (fun _ => onTrack.slot) (onTrack.next_hint cache hint none)
    rw [writes_read, writes_write, List.append_cons]
    exact ih more (onTrack.next cache none)

theorem polled (h : Paced slot phase arm base cache hint (c.pulled slot phase).1 (c.pulled slot phase).2 written)
    (registers : ρ) (shows : (Access.read (shown registers)).Shows slot phase hint) :
    Paced slot phase arm base cache hint ((c.polled registers).controller.drives.get slot)
      (c.polled registers).controller.head written := by
  obtain ⟨rfl, rfl⟩ := shows
  obtain ⟨drive, head⟩ := arm_polled c registers
  rw [drive, head]
  exact ⟨h.rests.latch _, h.track, h.volume, h.head, h.same⟩

theorem pulled (h : Paced slot phase arm base cache hint (c.drives.get slot) c.head written) :
    Paced slot phase arm base cache hint (c.pulled slot phase).1 (c.pulled slot phase).2 written := by
  rw [pulled_of_rests h.rests]
  exact h

theorem opened {run : Run ρ} (h : Paced slot phase arm base cache hint (run.controller.drives.get slot)
    run.controller.head written) (status : Status) (selected : status.drive = slot)
    (hinted : Registers.hint run.registers = hint) :
    Paced slot phase arm base cache hint ((run.opened status cache).controller.drives.get slot)
      (run.opened status cache).controller.head (written ++ writes (run.opening status cache)) := by
  subst selected hinted
  have turned : Paced status.drive phase arm base cache (Registers.hint run.registers)
      ((run.controller.switchTo status.drive).drives.get status.drive) (run.controller.switchTo status.drive).head
      written := by
    rw [(run.controller.switchTo_kept status.drive).2.1, head_switchTo]
    exact h.turn
  refine turned.write ?_ rfl
  rw [head_switchTo]
  exact Head.turnTo_own _ _

theorem course {run : Run ρ} (h : Course c registers cache accesses run)
    (shows : ∀ access ∈ accesses, access.Shows slot phase hint) (outgoing : c.head.Outgoing)
    (paced : Paced slot phase arm base cache hint ((c.polled registers).controller.drives.get slot)
      (c.polled registers).controller.head written) :
    Paced slot phase arm base cache hint (run.controller.drives.get slot) run.controller.head
      (written ++ writes accesses) := by
  have selected : (shown registers).drive = slot := by
    obtain ⟨rest, rfl⟩ := h.head_read
    exact (shows _ List.mem_cons_self).1
  cases h with
  | idle => simpa using paced
  | single =>
    have hinted : Registers.hint (c.polled registers).registers = hint := shows _ (.tail _ (.head _))
    exact paced.opened _ selected hinted
  | burst _ _ rest =>
    have hinted : Registers.hint (c.polled registers).registers = hint := shows _ (.tail _ (.head _))
    obtain ⟨_, -, primed⟩ := Run.primed_opened (outgoing_polled outgoing registers) (shown registers) cache
    have opened := paced.opened (shown registers) selected hinted
    rw [List.cons_append, writes_read, writes_append, ← List.append_assoc]
    exact streams rest selected opened (selected ▸ primed.onTrack)

theorem courses {polls : List (ControllerSettings × ρ)} (h : Courses cache c polls accesses)
    (shows : ∀ access ∈ accesses, access.Shows slot phase hint) {pieces : List Piece} (woven : Woven c.head pieces)
    (paced : Paced slot phase arm base cache hint (c.pulled slot phase).1 (c.pulled slot phase).2 written) :
    written ++ writes accesses = passing slot arm base cache hint (written ++ writes accesses).length := by
  induction h generalizing written pieces with
  | nil => simpa using paced.same
  | @cons c settings registers _ accesses rest course later ih =>
    have woven : Woven (c.configured settings).head pieces := woven
    have paced : Paced slot phase arm base cache hint ((c.configured settings).pulled slot phase).1
      ((c.configured settings).pulled slot phase).2 written := paced
    obtain ⟨here, further⟩ := List.forall_mem_append.mp shows
    obtain ⟨grown, -, grew⟩ := pollOnce_woven woven registers cache
    have first : (Access.read (shown registers)).Shows slot phase hint := by
      obtain ⟨_, rfl⟩ := course.head_read
      exact here _ List.mem_cons_self
    have next := Paced.course course here (.of_woven woven) (paced.polled registers first)
    rw [writes_append, ← List.append_assoc]
    exact ih further grew next.pulled

end Paced

theorem paced_pulled {c : Controller} (onDisk : c.OnDisk) (phase : UInt8) (cache : TrackCache) (hint : Option Position) :
    Paced slot phase (c.pulled slot phase).1 ((c.pulled slot phase).2.turnTo slot) cache hint
      (c.pulled slot phase).1 (c.pulled slot phase).2 [] :=
  ⟨pulled_rests onDisk phase, rfl, rfl, rfl, rfl⟩

theorem Courses.writes_eq {c : Controller} {polls : List (ControllerSettings × ρ)} {accesses : List Access}
    (h : Courses cache c polls accesses) (shows : ∀ access ∈ accesses, access.Shows slot phase hint) (onDisk : c.OnDisk)
    {pieces : List Piece} (woven : Woven c.head pieces) :
    writes accesses =
      passing slot (c.pulled slot phase).1 ((c.pulled slot phase).2.turnTo slot) cache hint (writes accesses).length :=
  Paced.courses h shows woven (paced_pulled onDisk phase cache hint)

theorem Tape.onDisk (volume : UInt8) (settings : ControllerSettings) (events : List (Event ρ)) :
    (Tape.run { controller := ofVolume volume settings } events).controller.OnDisk := by
  suffices run : ∀ tape : Tape, tape.controller.OnDisk → (tape.run events).controller.OnDisk from
    run _ (.ofVolume volume settings)
  induction events with
  | nil => exact fun _ onDisk => onDisk
  | cons event events ih =>
    intro tape onDisk
    refine ih _ ?_
    cases event with
    | poll registers cache => exact (onDisk.pollOnce registers cache).arms
    | configure => exact onDisk
    | setVolume slot volume => exact onDisk.setVolume slot volume
    | resetHead => exact onDisk
    | reset => exact .reset _

/-- From wherever a controller has come to, with one cache, one hint, one drive and the same phases: how many bytes each
poll asks for and when, whether there are bursts, and how much patience they have does not matter to what is written.
Two sequences of polls write the same bytes, ask for the same sectors with them and leave the head in the same state
after each, as far as both of them get. -/
theorem writes_at_any_pace {σ : Type} [Registers σ] (volume : UInt8) (settings : ControllerSettings)
    (events : List (Event ρ)) (cache : TrackCache) (slot : DriveSlot) (phase : UInt8) (hint : Option Position)
    (polls : List (ControllerSettings × ρ)) (others : List (ControllerSettings × σ)) :
    let c := (Tape.run { controller := .ofVolume volume settings } events).controller
    ∃ x y, (∀ accesses, Courses cache c polls accesses ↔ accesses = x) ∧
      (∀ accesses, Courses cache c others accesses ↔ accesses = y) ∧
      ((∀ access ∈ x, access.Shows slot phase hint) → (∀ access ∈ y, access.Shows slot phase hint) →
        ∀ k ≤ (writes x).length, k ≤ (writes y).length → (writes x).take k = (writes y).take k) := by
  intro c
  obtain ⟨pieces, woven⟩ := Tape.woven volume settings events
  have onDisk : c.OnDisk := Tape.onDisk volume settings events
  obtain ⟨x, first⟩ := exists_courses woven cache polls
  obtain ⟨y, second⟩ := exists_courses woven cache others
  refine ⟨x, y, fun _ => ⟨first.unique, fun same => same ▸ first⟩, fun _ => ⟨second.unique, fun same => same ▸ second⟩,
    ?_⟩
  intro showsX showsY k inX inY
  rw [first.writes_eq showsX onDisk woven, second.writes_eq showsY onDisk woven, take_passing inX, take_passing inY]

def wants : Bench.Levers where
  lines := { phase := 0, motor := true, drive := .external, wanted := true, pending := false }

theorem shows_opening {run : Run ρ} (hinted : Registers.hint run.registers = hint) (status : Status)
    (cache : TrackCache) : ∀ access ∈ run.opening status cache, access.Shows slot phase hint := by
  simpa [Run.opening, Access.Shows] using hinted

theorem courses_motorStops : ∃ accesses,
    Courses oneSector (.ofVolume defaultVolume {}) [({}, motorStops)] accesses ∧
      (∀ access ∈ accesses, access.Shows .external 0 none) ∧ (writes accesses).length = 2 := by
  refine ⟨_, .cons (Course.pollOnce course_motorStops (.inl rfl)) .nil, ?_, ?_⟩
  · simp only [List.append_nil, List.cons_append, List.forall_mem_cons, List.forall_mem_append]
    exact ⟨⟨rfl, rfl⟩, shows_opening rfl _ _, ⟨rfl, rfl⟩, trivial, ⟨rfl, rfl⟩, nofun⟩
  · rfl

theorem courses_wants : ∃ accesses,
    Courses oneSector (.ofVolume defaultVolume {}) [({ burst := false }, wants), ({ burst := false }, wants)] accesses ∧
      (∀ access ∈ accesses, access.Shows .external 0 none) ∧ (writes accesses).length = 2 := by
  have single {c : Controller} (outgoing : c.head.Outgoing) (plain : c.settings.burst = false) :
      Course c wants oneSector (.read (shown wants) :: (c.polled wants).opening (shown wants) oneSector)
        (c.pollOnce wants oneSector) := by
    have course : Course c wants oneSector _ _ := .single (by decide) plain
    exact course.pollOnce outgoing
  obtain ⟨_, -, woven⟩ :=
    pollOnce_woven (c := (ofVolume defaultVolume {}).configured { burst := false }) .fresh wants oneSector
  refine ⟨_, .cons (single (.inl rfl) rfl) (.cons (single (.of_woven woven) rfl) .nil), ?_, ?_⟩
  · simp only [List.append_nil, List.cons_append, List.forall_mem_cons, List.forall_mem_append]
    exact ⟨⟨rfl, rfl⟩, shows_opening rfl _ _, ⟨rfl, rfl⟩, shows_opening rfl _ _⟩
  · rfl

/-- Two bytes of a burst in which the motor stops are the two that single polls write. -/
theorem writes_at_any_pace_motorStops : ∃ x y,
    Courses oneSector (.ofVolume defaultVolume {}) [({}, motorStops)] x ∧
      Courses oneSector (.ofVolume defaultVolume {}) [({ burst := false }, wants), ({ burst := false }, wants)] y ∧
      (∀ access ∈ x, access.Shows .external 0 none) ∧ (∀ access ∈ y, access.Shows .external 0 none) ∧
      (writes x).length = 2 ∧ (writes y).length = 2 ∧ (writes x).take 2 = (writes y).take 2 := by
  obtain ⟨x, burst, showsX, sizeX⟩ := courses_motorStops
  obtain ⟨y, singles, showsY, sizeY⟩ := courses_wants
  obtain ⟨_, _, unique, only, same⟩ := writes_at_any_pace (ρ := Bench.Levers) defaultVolume {} [] oneSector .external 0
    none [({}, motorStops)] [({ burst := false }, wants), ({ burst := false }, wants)]
  obtain rfl := (unique x).mp burst
  obtain rfl := (only y).mp singles
  exact ⟨x, y, burst, singles, showsX, showsY, sizeX, sizeY, same showsX showsY 2 sizeX.ge sizeY.ge⟩

end Controller
end Floppy
