import Floppy.Proofs.Controller.Frames
import Floppy.Proofs.Controller.Poll
import Floppy.Proofs.Head.Due

/-!
# The course of a poll

A poll reads the registers, and where it may write it looks at the hint and writes; in burst mode it goes on to read and
write in turn for as long as the head is inside a frame. `Course` says so access by access, with nothing that bounds the
turns. `course_pollOnce` says that a poll of a controller that was never made to receive comes to its end all the same,
and that it is the poll of the library.
-/
namespace Floppy
open Gcr

/-- The lines are still those that a burst was begun with: a byte is wanted, for the same phases and the same drive. -/
def Status.Upholds (first status : Status) : Prop :=
  status.wanted = true ∧ status.phase = first.phase ∧ status.drive = first.drive

/-- A byte is wanted, and the last one was taken. -/
def Status.Asks (status : Status) : Prop := status.wanted = true ∧ status.pending = false

theorem Status.not_asks_iff (status : Status) : (!status.wanted || status.pending) = true ↔ ¬ status.Asks := by
  cases wanted : status.wanted <;> cases pending : status.pending <;> simp [Asks, wanted, pending]

instance (first status : Status) : Decidable (first.Upholds status) := inferInstanceAs (Decidable (_ ∧ _ ∧ _))

instance (status : Status) : Decidable status.Asks := inferInstanceAs (Decidable (_ ∧ _))

namespace Head

/-- The head stands between frames or inside of one, and does not receive. -/
def Outgoing (head : Head) : Prop :=
  head.state = .inactive ∨ ∃ frame, head.state = .sending frame ∧ frame.position < Frame.size

/-- The head has come to a drive and a track. -/
structure OnTrack (head : Head) (slot : DriveSlot) (track : UInt8) : Prop where
  outgoing : head.Outgoing
  slot : head.slot = some slot
  track : head.track = track

variable {head : Head} {slot : DriveSlot} {drive : Drive} {cache : TrackCache} {hint : Option Position}

theorem Outgoing.of_woven {pieces : List Piece} (h : Woven head pieces) : head.Outgoing := by
  rcases h.state with idle | ⟨_, _, _, _, _, frame, _, inside⟩
  · exact .inl idle
  · exact .inr ⟨frame, inside.state, inside.position_lt⟩

theorem Outgoing.moveTo (h : head.Outgoing) (track : UInt8) : (head.moveTo track).Outgoing := by
  obtain idle | ⟨stays, -⟩ := Woven.moveTo_track head track
  · exact .inl idle
  · rwa [stays]

theorem Outgoing.send {frame : Playback Frame.size} (lt : frame.position < Frame.size) :
    (head.send frame).1.Outgoing := by
  by_cases more : frame.position + 1 < Frame.size
  · rw [head.send_of_lt frame more]
    exact .inr ⟨_, rfl, more⟩
  · rw [head.send_of_eq frame (by omega)]
    exact .inl rfl

theorem Outgoing.start (idle : head.state = .inactive) (slot : DriveSlot) (drive : Drive) (cache : TrackCache) :
    (head.start slot drive cache).head.Outgoing := by
  unfold Head.start
  split
  · exact .inl idle
  · exact Outgoing.send (Nat.lt_of_succ_lt (Frame.more_play _ _))

theorem Outgoing.next (h : head.Outgoing) (slot : DriveSlot) (drive : Drive) (cache : TrackCache)
    (hint : Option Position) : (head.next slot drive cache hint).head.Outgoing := by
  unfold Head.next
  rcases h.moveTo drive.track with idle | ⟨frame, sending, lt⟩
  · simp only [idle]
    exact .start ((arrive_kept ..).1.trans idle) slot drive cache
  · simp only [sending]
    exact .send lt

theorem remaining_send (head : Head) {frame : Playback Frame.size} (lt : frame.position < Frame.size) :
    (head.send frame).1.remaining < Frame.size := by
  by_cases more : frame.position + 1 < Frame.size
  · rw [head.send_of_lt frame more]
    exact Nat.sub_lt (Nat.zero_lt_of_lt more) (Nat.succ_pos _)
  · rw [head.send_of_eq frame (by omega)]
    exact Nat.zero_lt_of_lt lt

theorem Outgoing.remaining_next (h : head.Outgoing) (slot : DriveSlot) (drive : Drive) (cache : TrackCache)
    (hint : Option Position) : (head.next slot drive cache hint).head.remaining < Frame.size := by
  unfold Head.next
  rcases h.moveTo drive.track with idle | ⟨frame, sending, lt⟩
  · simp only [idle]
    unfold Head.start
    split
    · rw [remaining, (arrive_kept ..).1, idle]
      exact Nat.succ_pos _
    · exact remaining_send _ (Nat.lt_of_succ_lt (Frame.more_play _ _))
  · simp only [sending]
    exact remaining_send _ lt

theorem Outgoing.isActive_iff (h : head.Outgoing) : head.isActive = true ↔ head.remaining ≠ 0 := by
  rcases h with idle | ⟨frame, sending, lt⟩
  · simp [isActive, remaining, idle]
  · have left : Frame.size - frame.position ≠ 0 := Nat.sub_ne_zero_of_lt lt
    simp [isActive, remaining, Playback.remaining, sending, left]

theorem Outgoing.onTrack (h : head.Outgoing) (own : head.state ≠ .inactive → head.slot = some slot) (drive : Drive)
    (cache : TrackCache) (hint : Option Position) :
    (head.next slot drive cache hint).head.OnTrack slot drive.track :=
  have there := head.next_at own drive cache hint
  ⟨h.next slot drive cache hint, there.1, there.2⟩

namespace OnTrack

theorem next (h : head.OnTrack slot drive.track) (cache : TrackCache) (hint : Option Position) :
    (head.next slot drive cache hint).head.OnTrack slot drive.track :=
  h.outgoing.onTrack (fun _ => h.slot) drive cache hint

theorem next_hint (h : head.OnTrack slot drive.track) (cache : TrackCache) (hint other : Option Position) :
    head.next slot drive cache other = head.next slot drive cache hint := by
  have stays : head.moveTo drive.track = head := if_neg (not_not.mpr h.track)
  have arrived (hint : Option Position) : head.arrive slot drive.track hint = head := if_pos ⟨h.slot, h.track⟩
  simp only [Head.next, stays, arrived]

theorem remaining_next (h : head.OnTrack slot drive.track) {left : ℕ} (inside : head.remaining = left + 1)
    (cache : TrackCache) (hint : Option Position) : (head.next slot drive cache hint).head.remaining = left := by
  rcases h.outgoing with idle | ⟨frame, sending, lt⟩
  · simp [remaining, idle] at inside
  · rw [remaining, sending] at inside
    simp only [Playback.remaining] at inside
    rw [next_of_sending sending h.track]
    by_cases more : frame.position + 1 < Frame.size
    · rw [head.send_of_lt frame more]
      simp only [remaining, Playback.remaining]
      omega
    · rw [head.send_of_eq frame (by omega)]
      simp only [remaining]
      omega

end OnTrack
end Head

namespace Controller
variable {ρ : Type} [Registers ρ]

/-- A byte that was written, what was asked for instead of it if it is a filler, and the head right after it. -/
structure Sent where
  byte : UInt8
  fill : Option FillRequest
  head : Head

def Sent.of (pass : Head.Pass) : Sent := ⟨pass.output.value, pass.fill, pass.head⟩

/-- What a poll does at the registers. -/
inductive Access where
  | read (status : Status)
  | hint (position : Option Position)
  | write (sent : Sent)

namespace Access

def status? : Access → Option Status
  | read status => some status
  | _ => none

def sent? : Access → Option Sent
  | write sent => some sent
  | _ => none

end Access

def reads (accesses : List Access) : List Status := accesses.filterMap Access.status?

def writes (accesses : List Access) : List Sent := accesses.filterMap Access.sent?

@[simp] theorem reads_read (status : Status) (rest : List Access) :
    reads (.read status :: rest) = status :: reads rest := rfl

@[simp] theorem reads_write (sent : Sent) (rest : List Access) : reads (.write sent :: rest) = reads rest := rfl

@[simp] theorem writes_nil : writes [] = [] := rfl

@[simp] theorem writes_read (status : Status) (rest : List Access) : writes (.read status :: rest) = writes rest := rfl

@[simp] theorem writes_write (sent : Sent) (rest : List Access) :
    writes (.write sent :: rest) = sent :: writes rest := rfl

@[simp] theorem reads_append (a b : List Access) : reads (a ++ b) = reads a ++ reads b := List.filterMap_append

@[simp] theorem writes_append (a b : List Access) : writes (a ++ b) = writes a ++ writes b := List.filterMap_append

namespace Run

def sent (run : Run ρ) (slot : DriveSlot) (cache : TrackCache) (hint : Option Position) : Sent :=
  .of (run.controller.head.next slot (run.controller.drives.get slot) cache hint)

def stall (run : Run ρ) : Run ρ :=
  let stats := run.controller.stats
  { run with controller.stats := { stats with burstStalls := stats.burstStalls + 1 } }

def opened (run : Run ρ) (status : Status) (cache : TrackCache) : Run ρ :=
  (run.switch status.drive).write status.drive cache (Registers.hint run.registers)

def opening (run : Run ρ) (status : Status) (cache : TrackCache) : List Access :=
  [.hint (Registers.hint run.registers),
    .write ((run.switch status.drive).sent status.drive cache (Registers.hint run.registers))]

theorem serve_eq (run : Run ρ) (status : Status) (cache : TrackCache) :
    run.serve status cache =
      if run.controller.settings.burst then
        (run.opened status cache).burst status cache (run.opened status cache).controller.head.remaining
      else run.opened status cache := rfl

/-- The rest of a frame in a burst, turn by turn, where `idle` reads in a row have found the last byte pending so far.
As long as the head is inside a frame, the registers are read. The burst ends if the lines have changed, or if the last
byte has been pending for too many reads; if it was taken, the next one is written. -/
inductive Streams (first : Status) (cache : TrackCache) : ℕ → Run ρ → List Access → Run ρ → Prop
  | done {idle : ℕ} {run : Run ρ} (between : run.controller.head.isActive = false) : Streams first cache idle run [] run
  | changed {idle : ℕ} {run : Run ρ} (inside : run.controller.head.isActive = true)
      (parts : ¬ first.Upholds run.poll.1) :
      Streams first cache idle run [.read run.poll.1] run.poll.2
  | stalled {idle : ℕ} {run : Run ρ} (inside : run.controller.head.isActive = true)
      (upholds : first.Upholds run.poll.1) (waiting : run.poll.1.pending = true)
      (late : run.controller.settings.burstPollLimit ≤ idle + 1) :
      Streams first cache idle run [.read run.poll.1] run.poll.2.stall
  | waits {idle : ℕ} {run last : Run ρ} {accesses : List Access} (inside : run.controller.head.isActive = true)
      (upholds : first.Upholds run.poll.1) (waiting : run.poll.1.pending = true)
      (early : idle + 1 < run.controller.settings.burstPollLimit)
      (rest : Streams first cache (idle + 1) run.poll.2 accesses last) :
      Streams first cache idle run (.read run.poll.1 :: accesses) last
  | writes {idle : ℕ} {run last : Run ρ} {accesses : List Access} (inside : run.controller.head.isActive = true)
      (upholds : first.Upholds run.poll.1) (taken : run.poll.1.pending = false)
      (rest : Streams first cache 0 (run.poll.2.write first.drive cache none) accesses last) :
      Streams first cache idle run
        (.read run.poll.1 :: .write (run.poll.2.sent first.drive cache none) :: accesses) last

/-- The registers alone decide how a burst goes on. -/
theorem Streams.unique {first : Status} {cache : TrackCache} {idle : ℕ} {run x y : Run ρ} {a b : List Access}
    (h : Streams first cache idle run a x) (g : Streams first cache idle run b y) : b = a ∧ y = x := by
  induction h generalizing b y with
  | done between =>
    cases g with
    | done => exact ⟨rfl, rfl⟩
    | changed inside | stalled inside | waits inside | writes inside => simp [between] at inside
  | changed inside parts =>
    cases g with
    | changed => exact ⟨rfl, rfl⟩
    | done between => simp [between] at inside
    | stalled _ upholds | waits _ upholds | writes _ upholds => exact absurd upholds parts
  | stalled inside upholds waiting late =>
    cases g with
    | stalled => exact ⟨rfl, rfl⟩
    | waits _ _ _ early => exact absurd late (Nat.not_le.mpr early)
    | done between => simp [between] at inside
    | changed _ parts => exact absurd upholds parts
    | writes _ _ taken => simp [waiting] at taken
  | waits inside upholds waiting early rest ih =>
    cases g with
    | waits _ _ _ _ other =>
      obtain ⟨rfl, rfl⟩ := ih other
      exact ⟨rfl, rfl⟩
    | stalled _ _ _ late => exact absurd late (Nat.not_le.mpr early)
    | done between => simp [between] at inside
    | changed _ parts => exact absurd upholds parts
    | writes _ _ taken => simp [waiting] at taken
  | writes inside upholds taken rest ih =>
    cases g with
    | writes _ _ _ other =>
      obtain ⟨rfl, rfl⟩ := ih other
      exact ⟨rfl, rfl⟩
    | stalled _ _ waiting | waits _ _ waiting => simp [taken] at waiting
    | done between => simp [between] at inside
    | changed _ parts => exact absurd upholds parts

/-- Waiting leaves the head, the drives and the settings alone. -/
structure Kept (run next : Run ρ) : Prop where
  head : next.controller.head = run.controller.head
  drives : next.controller.drives = run.controller.drives
  settings : next.controller.settings = run.controller.settings

theorem kept_await (first : Status) (patience : ℕ) (run : Run ρ) : run.Kept (run.await first patience).2 := by
  induction patience generalizing run with
  | zero => exact ⟨rfl, rfl, rfl⟩
  | succ patience ih =>
    have polled : run.Kept run.poll.2 := ⟨rfl, rfl, rfl⟩
    simp only [await]
    split
    case isTrue => exact polled
    case isFalse =>
      split
      case isTrue =>
        obtain ⟨head, drives, settings⟩ := ih run.poll.2
        exact ⟨head, drives, settings⟩
      case isFalse => exact polled

theorem await_succ (first : Status) (patience : ℕ) (run : Run ρ) :
    run.await first (patience + 1) =
      if first.Upholds run.poll.1 then
        if run.poll.1.pending = true then run.poll.2.await first patience else (.ready, run.poll.2)
      else (.changed, run.poll.2) := by
  rw [await]
  by_cases upholds : first.Upholds run.poll.1
  · obtain ⟨wanted, phase, drive⟩ := upholds
    simp [wanted, phase, drive, Status.Upholds]
  · rw [if_neg upholds]
    refine if_pos ?_
    rw [Status.Upholds, not_and_or, not_and_or] at upholds
    simpa [or_assoc, poll] using upholds

/-- What a burst comes to by waiting: it ends there, or the next byte is written. -/
def Awaits (first : Status) (cache : TrackCache) (idle : ℕ) (run : Run ρ) : Readiness × Run ρ → Prop
  | (.changed, next) => ∃ accesses, Streams first cache idle run accesses next
  | (.stalled, next) => ∃ accesses, Streams first cache idle run accesses next.stall
  | (.ready, next) => ∀ accesses last, Streams first cache 0 (next.write first.drive cache none) accesses last →
      ∃ more, Streams first cache idle run more last

variable {first : Status} {cache : TrackCache} {idle : ℕ} {run : Run ρ}

/-- A read that finds the last byte pending comes before what it comes to. -/
theorem Awaits.wait (inside : run.controller.head.isActive = true) (upholds : first.Upholds run.poll.1)
    (waiting : run.poll.1.pending = true) (early : idle + 1 < run.controller.settings.burstPollLimit)
    {outcome : Readiness × Run ρ} (h : Awaits first cache (idle + 1) run.poll.2 outcome) :
    Awaits first cache idle run outcome := by
  rcases outcome with ⟨readiness, next⟩
  cases readiness with
  | changed =>
    obtain ⟨accesses, rest⟩ := h
    exact ⟨_, .waits inside upholds waiting early rest⟩
  | stalled =>
    obtain ⟨accesses, rest⟩ := h
    exact ⟨_, .waits inside upholds waiting early rest⟩
  | ready =>
    intro accesses last goesOn
    obtain ⟨more, rest⟩ := h accesses last goesOn
    exact ⟨_, .waits inside upholds waiting early rest⟩

theorem awaits_await {patience : ℕ} (inside : run.controller.head.isActive = true)
    (left : idle + (patience + 1) = max 1 run.controller.settings.burstPollLimit) :
    Awaits first cache idle run (run.await first (patience + 1)) := by
  induction patience generalizing idle run with
  | zero =>
    rw [await_succ]
    split
    case isTrue upholds =>
      split
      case isTrue waiting => exact ⟨_, .stalled inside upholds waiting (by omega)⟩
      case isFalse taken => exact fun accesses last rest => ⟨_, .writes inside upholds (by simpa using taken) rest⟩
    case isFalse parts => exact ⟨_, .changed inside parts⟩
  | succ patience ih =>
    rw [await_succ]
    split
    case isTrue upholds =>
      split
      case isTrue waiting =>
        have later : Awaits first cache (idle + 1) run.poll.2 (run.poll.2.await first (patience + 1)) :=
          ih inside ((Nat.add_right_comm idle 1 (patience + 1)).trans left)
        exact later.wait inside upholds waiting (by omega)
      case isFalse taken => exact fun accesses last rest => ⟨_, .writes inside upholds (by simpa using taken) rest⟩
    case isFalse parts => exact ⟨_, .changed inside parts⟩

/-- The head of a burst stands at the drive that was selected, and this much is left of its frame. -/
structure Primed (run : Run ρ) (slot : DriveSlot) (remaining : ℕ) : Prop where
  onTrack : run.controller.head.OnTrack slot (run.controller.drives.get slot).track
  left : run.controller.head.remaining = remaining

omit [Registers ρ] in
theorem Primed.kept {slot : DriveSlot} {remaining : ℕ} {next : Run ρ} (h : run.Primed slot remaining)
    (kept : run.Kept next) : next.Primed slot remaining := by
  obtain ⟨onTrack, left⟩ := h
  rw [← kept.head, ← kept.drives] at onTrack
  exact ⟨onTrack, kept.head ▸ left⟩

theorem Primed.write {slot : DriveSlot} {remaining : ℕ} (h : run.Primed slot (remaining + 1)) (cache : TrackCache)
    (hint : Option Position) : (run.write slot cache hint).Primed slot remaining :=
  ⟨h.onTrack.next cache hint, h.onTrack.remaining_next h.left cache hint⟩

omit [Registers ρ] in
theorem Primed.exists_succ {slot : DriveSlot} {remaining : ℕ} (h : run.Primed slot remaining)
    (inside : run.controller.head.isActive = true) : ∃ left, remaining = left + 1 :=
  Nat.exists_eq_succ_of_ne_zero (h.left ▸ h.onTrack.outgoing.isActive_iff.mp inside)

/-- The burst of the library, which counts the bytes that are left, is this one. -/
theorem streams_burst {remaining : ℕ} (h : run.Primed first.drive remaining) (cache : TrackCache) :
    ∃ accesses, Streams first cache 0 run accesses (run.burst first cache remaining) := by
  induction remaining generalizing run with
  | zero =>
    have between : run.controller.head.isActive = false := by
      rw [Bool.eq_false_iff]
      exact fun active => h.onTrack.outgoing.isActive_iff.mp active h.left
    exact ⟨[], .done between⟩
  | succ remaining ih =>
    have inside : run.controller.head.isActive = true := h.onTrack.outgoing.isActive_iff.mpr (by simp [h.left])
    obtain ⟨patience, limit⟩ : ∃ patience, max 1 run.controller.settings.burstPollLimit = patience + 1 :=
      ⟨_, (Nat.succ_pred_eq_of_pos (Nat.lt_of_lt_of_le Nat.one_pos (Nat.le_max_left ..))).symm⟩
    have waited : Awaits first cache 0 run (run.await first (patience + 1)) :=
      awaits_await inside ((Nat.zero_add _).trans limit.symm)
    have kept := kept_await first (patience + 1) run
    rw [burst, limit]
    rcases found : run.await first (patience + 1) with ⟨readiness, next⟩
    rw [found] at waited kept
    cases readiness with
    | changed => exact waited
    | stalled => exact waited
    | ready =>
      obtain ⟨accesses, rest⟩ := ih ((h.kept kept).write cache none)
      exact waited _ _ rest

end Run

abbrev shown (registers : ρ) : Status := (Registers.poll registers).status

abbrev noted (c : Controller) (registers : ρ) : Controller :=
  { c with
    stats := { c.stats with polls := c.stats.polls + 1 }
    lastStatus := some (shown registers) }

/-- What a poll does, access by access. The registers are read and the arm moves. If a byte is asked for then, it is
written with the hint at hand, and in burst mode the rest of its frame. -/
inductive Course (c : Controller) (registers : ρ) (cache : TrackCache) : List Access → Run ρ → Prop
  | idle (unasked : ¬ (shown registers).Asks) : Course c registers cache [.read (shown registers)] (c.polled registers)
  | single (asked : (shown registers).Asks) (plain : c.settings.burst = false) :
      Course c registers cache (.read (shown registers) :: (c.polled registers).opening (shown registers) cache)
        ((c.polled registers).opened (shown registers) cache)
  | burst {accesses : List Access} {run : Run ρ} (asked : (shown registers).Asks) (bursts : c.settings.burst = true)
      (rest : Run.Streams (shown registers) cache 0 ((c.polled registers).opened (shown registers) cache) accesses
        run) :
      Course c registers cache
        (.read (shown registers) :: (c.polled registers).opening (shown registers) cache ++ accesses) run

variable {c : Controller} {registers : ρ} {cache : TrackCache}

theorem Course.unique {a b : List Access} {x y : Run ρ} (h : Course c registers cache a x)
    (g : Course c registers cache b y) : b = a ∧ y = x := by
  cases h with
  | idle unasked =>
    cases g with
    | idle => exact ⟨rfl, rfl⟩
    | single asked => exact absurd asked unasked
    | burst asked => exact absurd asked unasked
  | single asked plain =>
    cases g with
    | idle unasked => exact absurd asked unasked
    | single => exact ⟨rfl, rfl⟩
    | burst _ bursts => simp [plain] at bursts
  | burst asked bursts rest =>
    cases g with
    | idle unasked => exact absurd asked unasked
    | single _ plain => simp [plain] at bursts
    | burst _ _ other =>
      obtain ⟨rfl, rfl⟩ := rest.unique other
      exact ⟨rfl, rfl⟩

theorem settings_moveArm (c : Controller) (status : Status) : (c.moveArm status).1.settings = c.settings := by
  unfold moveArm
  dsimp only
  split <;> rfl

theorem outgoing_moveArm (h : c.head.Outgoing) (status : Status) : (c.moveArm status).1.head.Outgoing := by
  rcases stepped : ((c.drives.get status.drive).latch status).step status.phase with ⟨drive, step⟩
  cases step with
  | idle => simpa only [moveArm, stepped] using h
  | hitStop => simpa only [moveArm, stepped] using .inl (Woven.abandon_state c.head)
  | moved => simpa only [moveArm, stepped] using h.moveTo drive.track

theorem outgoing_switchTo (h : c.head.Outgoing) (slot : DriveSlot) :
    (c.switchTo slot).head.Outgoing ∧
      ((c.switchTo slot).head.state ≠ .inactive → (c.switchTo slot).head.slot = some slot) := by
  unfold switchTo
  split
  case isTrue =>
    have idle := Woven.abandon_state c.head
    exact ⟨.inl idle, fun busy => absurd idle busy⟩
  case isFalse own =>
    refine ⟨h, fun busy => ?_⟩
    by_contra other
    exact own ⟨(Head.isActive_iff _).mpr busy, other⟩

theorem switchTo_kept (c : Controller) (slot : DriveSlot) :
    (c.switchTo slot).settings = c.settings ∧ (c.switchTo slot).drives = c.drives ∧
      (c.switchTo slot).stats = c.stats := by
  unfold switchTo
  split <;> exact ⟨rfl, rfl, rfl⟩

theorem settings_polled (c : Controller) (registers : ρ) : (c.polled registers).controller.settings = c.settings :=
  settings_moveArm _ _

theorem outgoing_polled (h : c.head.Outgoing) (registers : ρ) : (c.polled registers).controller.head.Outgoing :=
  outgoing_moveArm (c := c.noted registers) h _

theorem Run.primed_opened {run : Run ρ} (h : run.controller.head.Outgoing) (status : Status) (cache : TrackCache) :
    ∃ remaining < Frame.size, (run.opened status cache).Primed status.drive remaining := by
  obtain ⟨outgoing, own⟩ := outgoing_switchTo h status.drive
  exact ⟨_, outgoing.remaining_next .., outgoing.onTrack own _ cache _, rfl⟩

/-- The poll of the library takes this course, to its end. -/
theorem course_pollOnce (h : c.head.Outgoing) (registers : ρ) (cache : TrackCache) :
    ∃ accesses, Course c registers cache accesses (c.pollOnce registers cache) := by
  have settings := c.settings_polled registers
  have outgoing := outgoing_polled h registers
  rw [pollOnce_eq, Run.serve_eq, settings]
  split
  case isTrue unasked => exact ⟨_, .idle ((Status.not_asks_iff _).mp unasked)⟩
  case isFalse asked =>
    have asked : (shown registers).Asks := not_not.mp fun unasked => asked ((Status.not_asks_iff _).mpr unasked)
    split
    case isTrue bursts =>
      obtain ⟨remaining, -, primed⟩ := Run.primed_opened outgoing (shown registers) cache
      obtain ⟨accesses, rest⟩ := Run.streams_burst primed cache
      rw [primed.left]
      exact ⟨_, .burst asked bursts rest⟩
    case isFalse plain => exact ⟨_, .single asked (by simpa using plain)⟩

theorem Course.pollOnce {accesses : List Access} {run : Run ρ} (h : Course c registers cache accesses run)
    (outgoing : c.head.Outgoing) : Course c registers cache accesses (c.pollOnce registers cache) := by
  obtain ⟨_, course⟩ := course_pollOnce outgoing registers cache
  exact (h.unique course).1 ▸ course

theorem Tape.woven (volume : UInt8) (settings : ControllerSettings) (events : List (Event ρ)) :
    ∃ pieces, Woven (Tape.run { controller := ofVolume volume settings } events).controller.head pieces := by
  have start : Tape.Sound { controller := ofVolume volume settings } := ⟨by simp, [], rfl, .fresh⟩
  obtain ⟨pieces, -, woven⟩ := (start.run events).current
  exact ⟨pieces, woven⟩

theorem Tape.outgoing (volume : UInt8) (settings : ControllerSettings) (events : List (Event ρ)) :
    (Tape.run { controller := ofVolume volume settings } events).controller.head.Outgoing := by
  obtain ⟨pieces, woven⟩ := Tape.woven volume settings events
  exact .of_woven woven

end Controller
end Floppy
