import Floppy.Proofs.Controller.Course

/-!
# The handshake with the host

Each byte answers a read that asks for it, and no other byte comes in between. A poll ends after a bounded number of
reads, whatever they show; `handshake_bounded` says so with the numbers. `stops_iff` says when a poll goes on after a
read: the phases, the drive and the request have to be as they were first. Nothing in a burst looks at the motor.
-/
namespace Floppy

/-- The lines differ, and not only in whether the last byte is pending. -/
def Status.Departs (first status : Status) : Prop := { status with pending := first.pending } ≠ first

theorem Status.Upholds.departs_iff {first status : Status} (h : first.Upholds status) (wanted : first.wanted = true) :
    first.Departs status ↔ status.motor ≠ first.motor := by
  rcases first with ⟨phase, motor, drive, _, pending⟩
  rcases status with ⟨_, _, _, _, _⟩
  obtain ⟨rfl, rfl, rfl⟩ := h
  cases wanted
  simp [Departs]

namespace Controller
variable {ρ : Type} [Registers ρ]

/-- Each byte comes after a read that asks for it and selects the drive that was selected first, with no other byte in
between. -/
def Answers (first : Status) (accesses : List Access) : Prop :=
  ∀ before sent after, accesses = before ++ .write sent :: after →
    ∃ earlier status between, before = earlier ++ .read status :: between ∧ writes between = [] ∧
      status.Asks ∧ status.drive = first.drive

/-- Where anything follows a read, the lines are as they were first. -/
def Watches (first : Status) (accesses : List Access) : Prop :=
  ∀ before status after, accesses = before ++ .read status :: after → after ≠ [] → first.Upholds status

section
variable {first status : Status} {accesses : List Access}

theorem Answers.nil (first : Status) : Answers first [] := by
  intro before sent after split
  simp at split

theorem Answers.read (h : Answers first accesses) (status : Status) : Answers first (.read status :: accesses) := by
  intro before sent after split
  cases before with
  | nil => cases split
  | cons access before =>
    obtain ⟨rfl, rest⟩ := List.cons.inj split
    obtain ⟨earlier, found, between, rfl, none, asks, drive⟩ := h before sent after rest
    exact ⟨.read status :: earlier, found, between, rfl, none, asks, drive⟩

theorem Answers.write (h : Answers first accesses) (asks : status.Asks) (drive : status.drive = first.drive)
    (between : List Access) (none : writes between = []) (sent : Sent) :
    Answers first (.read status :: (between ++ .write sent :: accesses)) := by
  intro before other after split
  rw [← List.cons_append] at split
  rcases List.append_eq_append_iff.mp split with ⟨more, rfl, rest⟩ | ⟨more, front, rest⟩
  · cases more with
    | nil => exact ⟨[], status, between, by simp, none, asks, drive⟩
    | cons access more =>
      obtain ⟨rfl, goesOn⟩ := List.cons.inj rest
      obtain ⟨earlier, found, later, rfl, quiet, asked, selected⟩ := h more other after goesOn
      exact ⟨.read status :: between ++ .write sent :: earlier, found, later, by simp, quiet, asked, selected⟩
  · cases more with
    | nil => exact ⟨[], status, between, by simpa using front.symm, none, asks, drive⟩
    | cons access more =>
      obtain ⟨rfl, -⟩ := List.cons.inj rest
      have one : writes (.read status :: between) = writes before ++ other :: writes more := by
        rw [front, writes_append]
        rfl
      have nothing : writes (.read status :: between) = [] := none
      simp [nothing] at one

theorem Watches.nil (first : Status) : Watches first [] := by
  intro before status after split
  simp at split

theorem Watches.read (h : Watches first accesses) (goesOn : accesses ≠ [] → first.Upholds status) :
    Watches first (.read status :: accesses) := by
  intro before found after split more
  cases before with
  | nil =>
    obtain ⟨same, rfl⟩ := List.cons.inj split
    cases same
    exact goesOn more
  | cons access before =>
    obtain ⟨-, rest⟩ := List.cons.inj split
    exact h before found after rest more

theorem Watches.other (h : Watches first accesses) {access : Access} (silent : access.status? = none) :
    Watches first (access :: accesses) := by
  intro before found after split more
  cases before with
  | nil =>
    obtain ⟨rfl, -⟩ := List.cons.inj split
    cases silent
  | cons _ before =>
    obtain ⟨-, rest⟩ := List.cons.inj split
    exact h before found after rest more

theorem Watches.opening (h : Watches first accesses) (run : Run ρ) (status : Status) (cache : TrackCache) :
    Watches first (run.opening status cache ++ accesses) :=
  Watches.other (Watches.other h rfl) rfl

end

namespace Run

/-- What was done between two moments of a poll stands in the counters. -/
structure Accounts (run next : Run ρ) (accesses : List Access) : Prop where
  written : next.written.toList = run.written.toList ++ (writes accesses).map Sent.byte
  fills : next.fills = run.fills ++ (writes accesses).filterMap Sent.fill
  bytesWritten : next.controller.stats.bytesWritten = run.controller.stats.bytesWritten + (writes accesses).length
  polls : next.controller.stats.polls = run.controller.stats.polls + (reads accesses).length

variable {first : Status} {cache : TrackCache} {idle remaining : ℕ} {run mid last : Run ρ} {accesses : List Access}

omit [Registers ρ] in
theorem Accounts.trans {a b : List Access} (h : run.Accounts mid a) (g : mid.Accounts last b) :
    run.Accounts last (a ++ b) where
  written := by rw [g.written, h.written, writes_append, List.map_append, List.append_assoc]
  fills := by rw [g.fills, h.fills, writes_append, List.filterMap_append, List.append_assoc]
  bytesWritten := by rw [g.bytesWritten, h.bytesWritten, writes_append, List.length_append, Nat.add_assoc]
  polls := by rw [g.polls, h.polls, reads_append, List.length_append, Nat.add_assoc]

theorem accounts_poll (run : Run ρ) : run.Accounts run.poll.2 [.read run.poll.1] :=
  ⟨(List.append_nil _).symm, (List.append_nil _).symm, rfl, rfl⟩

theorem fills_write (run : Run ρ) (slot : DriveSlot) (cache : TrackCache) (hint : Option Position) :
    (run.write slot cache hint).fills =
      run.fills ++ (writes [.write (run.sent slot cache hint)]).filterMap Sent.fill := by
  rw [writes_write, List.filterMap_cons]
  cases asked : (run.sent slot cache hint).fill <;> exact congrArg (run.fills ++ Option.toList ·) asked

theorem accounts_write (run : Run ρ) (slot : DriveSlot) (cache : TrackCache) (hint : Option Position) :
    run.Accounts (run.write slot cache hint) [.write (run.sent slot cache hint)] :=
  ⟨Array.toList_push, fills_write .., rfl, rfl⟩

namespace Streams

theorem accounts (h : Streams first cache idle run accesses last) : run.Accounts last accesses := by
  induction h with
  | done => exact ⟨(List.append_nil _).symm, (List.append_nil _).symm, rfl, rfl⟩
  | @changed _ run => exact run.accounts_poll
  | @stalled _ run =>
    obtain ⟨written, fills, bytesWritten, polls⟩ := run.accounts_poll
    exact ⟨written, fills, bytesWritten, polls⟩
  | @waits _ run _ _ _ _ _ _ _ ih => exact run.accounts_poll.trans ih
  | @writes _ run _ _ _ _ _ _ ih => exact (run.accounts_poll.trans (run.poll.2.accounts_write ..)).trans ih

theorem answers (h : Streams first cache idle run accesses last) : Answers first accesses := by
  induction h with
  | done => exact .nil first
  | changed => exact (Answers.nil first).read _
  | stalled => exact (Answers.nil first).read _
  | waits _ _ _ _ _ ih => exact ih.read _
  | writes _ upholds taken _ ih => exact ih.write ⟨upholds.1, taken⟩ upholds.2.2 [] rfl _

theorem watches (h : Streams first cache idle run accesses last) : Watches first accesses := by
  induction h with
  | done => exact .nil first
  | changed => exact (Watches.nil first).read fun more => absurd rfl more
  | stalled => exact (Watches.nil first).read fun more => absurd rfl more
  | waits _ upholds _ _ _ ih => exact ih.read fun _ => upholds
  | writes _ upholds _ _ ih => exact (ih.other rfl).read fun _ => upholds

theorem writes_le (h : Streams first cache idle run accesses last) (primed : run.Primed first.drive remaining) :
    (Controller.writes accesses).length ≤ remaining := by
  induction h generalizing remaining with
  | done => exact Nat.zero_le _
  | changed => exact Nat.zero_le _
  | stalled => exact Nat.zero_le _
  | waits _ _ _ _ _ ih => exact ih ⟨primed.onTrack, primed.left⟩
  | @writes _ run _ _ inside _ _ _ ih =>
    obtain ⟨left, rfl⟩ := primed.exists_succ inside
    have primed : run.poll.2.Primed first.drive (left + 1) := ⟨primed.onTrack, primed.left⟩
    exact Nat.succ_le_succ (ih (primed.write cache none))

/-- For each byte that is left there are at most so many reads, less those that have already found the last one
pending. -/
theorem reads_le {patience : ℕ} (h : Streams first cache idle run accesses last)
    (primed : run.Primed first.drive remaining) (limit : max 1 run.controller.settings.burstPollLimit = patience)
    (early : idle < patience) : (reads accesses).length ≤ remaining * patience - idle := by
  have room {run : Run ρ} {remaining : ℕ} (primed : run.Primed first.drive remaining)
      (inside : run.controller.head.isActive = true) :
      ∃ left, remaining = left + 1 ∧ remaining * patience = left * patience + patience := by
    obtain ⟨left, rfl⟩ := primed.exists_succ inside
    exact ⟨left, rfl, Nat.succ_mul left patience⟩
  induction h generalizing remaining with
  | done => exact Nat.zero_le _
  | @changed _ run inside =>
    obtain ⟨left, -, product⟩ := room primed inside
    have one : (reads [.read run.poll.1]).length = 1 := rfl
    omega
  | @stalled _ run inside =>
    obtain ⟨left, -, product⟩ := room primed inside
    have one : (reads [.read run.poll.1]).length = 1 := rfl
    omega
  | @waits idle run _ _ inside _ _ soon _ ih =>
    obtain ⟨left, -, product⟩ := room primed inside
    have later := ih ⟨primed.onTrack, primed.left⟩ limit (by omega)
    rw [reads_read, List.length_cons]
    omega
  | @writes _ run _ _ inside _ _ _ ih =>
    obtain ⟨left, rfl, product⟩ := room primed inside
    have polled : run.poll.2.Primed first.drive (left + 1) := ⟨primed.onTrack, primed.left⟩
    have later := ih (polled.write cache none) limit (by omega)
    rw [reads_read, reads_write, List.length_cons]
    omega

end Streams

theorem accounts_opening (run : Run ρ) (status : Status) (cache : TrackCache) :
    run.Accounts (run.opened status cache) (run.opening status cache) := by
  have stats := (run.controller.switchTo_kept status.drive).2.2
  obtain ⟨written, fills, bytesWritten, reads⟩ :=
    (run.switch status.drive).accounts_write status.drive cache (Registers.hint run.registers)
  refine ⟨written, fills, bytesWritten.trans ?_, reads.trans ?_⟩
  · rw [switch, stats]
    rfl
  · rw [switch, stats]
    rfl

end Run

variable {c : Controller} {registers : ρ} {cache : TrackCache} {accesses : List Access} {run : Run ρ}

theorem stats_moveArm (c : Controller) (status : Status) :
    (c.moveArm status).1.stats.polls = c.stats.polls ∧
      (c.moveArm status).1.stats.bytesWritten = c.stats.bytesWritten := by
  unfold moveArm
  dsimp only
  split <;> exact ⟨rfl, rfl⟩

abbrev begun (c : Controller) (registers : ρ) : Run ρ := { controller := c, registers }

theorem accounts_polled (c : Controller) (registers : ρ) :
    (c.begun registers).Accounts (c.polled registers) [.read (shown registers)] := by
  obtain ⟨polls, bytesWritten⟩ := (c.noted registers).stats_moveArm (shown registers)
  exact ⟨rfl, rfl, bytesWritten, polls⟩

namespace Course

theorem accounts (h : Course c registers cache accesses run) : (c.begun registers).Accounts run accesses := by
  have polled := c.accounts_polled registers
  cases h with
  | idle => exact polled
  | single => exact polled.trans (Run.accounts_opening ..)
  | burst _ _ rest => exact (polled.trans (Run.accounts_opening ..)).trans rest.accounts

theorem head_read (h : Course c registers cache accesses run) : ∃ rest, accesses = .read (shown registers) :: rest := by
  cases h <;> exact ⟨_, rfl⟩

theorem answers (h : Course c registers cache accesses run) : Answers (shown registers) accesses := by
  cases h with
  | idle => exact (Answers.nil _).read _
  | single asked => exact (Answers.nil _).write asked rfl [.hint _] rfl _
  | burst asked _ rest => exact rest.answers.write asked rfl [.hint _] rfl _

theorem watches (h : Course c registers cache accesses run) : Watches (shown registers) accesses := by
  cases h with
  | idle => exact (Watches.nil _).read fun more => absurd rfl more
  | single asked =>
    have opened := (Watches.nil (shown registers)).opening (c.polled registers) (shown registers) cache
    exact opened.read fun _ => ⟨asked.1, rfl, rfl⟩
  | burst asked _ rest =>
    have opened := rest.watches.opening (c.polled registers) (shown registers) cache
    exact opened.read fun _ => ⟨asked.1, rfl, rfl⟩

theorem wanted (h : Course c registers cache accesses run) {before after : List Access} {status : Status}
    (split : accesses = before ++ .read status :: after) (more : after ≠ []) : (shown registers).wanted = true := by
  obtain ⟨rest, first⟩ := h.head_read
  refine (h.watches [] (shown registers) rest first ?_).1
  rintro rfl
  rw [first] at split
  have lengths := congrArg List.length split
  rw [List.length_append, List.length_cons, List.length_cons] at lengths
  have none : after.length = 0 := by simp at lengths; omega
  exact more (List.length_eq_zero_iff.mp none)

/-- A poll writes a frame at the most, and it has so much patience for each byte but the first. -/
theorem bounds (h : Course c registers cache accesses run) (outgoing : c.head.Outgoing) :
    (writes accesses).length ≤ 366 ∧ (reads accesses).length ≤ 1 + 365 * max 1 c.settings.burstPollLimit := by
  cases h with
  | idle => exact ⟨Nat.zero_le _, Nat.le_add_right _ _⟩
  | single => exact ⟨Nat.le_add_left 1 365, Nat.le_add_right _ _⟩
  | @burst streamed _ _ _ rest =>
    obtain ⟨remaining, lt, primed⟩ :=
      Run.primed_opened (outgoing_polled outgoing registers) (shown registers) cache
    have most : remaining ≤ 365 := Nat.le_of_lt_succ lt
    have patience : 0 < max 1 c.settings.burstPollLimit := Nat.lt_of_lt_of_le Nat.one_pos (Nat.le_max_left ..)
    have limit : ((c.polled registers).opened (shown registers) cache).controller.settings = c.settings :=
      ((c.polled registers).controller.switchTo_kept (shown registers).drive).1.trans (c.settings_polled registers)
    have wrote := rest.writes_le primed
    have read := rest.reads_le primed (by rw [limit]) patience
    have product := Nat.mul_le_mul_right (max 1 c.settings.burstPollLimit) most
    constructor
    · calc (writes (.read (shown registers) :: (c.polled registers).opening (shown registers) cache ++ streamed)).length
        _ = (writes streamed).length + 1 := rfl
        _ ≤ 366 := by omega
    · calc (reads (.read (shown registers) :: (c.polled registers).opening (shown registers) cache ++ streamed)).length
        _ = (reads streamed).length + 1 := rfl
        _ ≤ 1 + 365 * max 1 c.settings.burstPollLimit := by omega

end Course

/-- Whatever the registers show and whatever has happened to a controller before, a poll comes to its end, in one way.
Each of its bytes answers a read of this poll that asks for one, with no other byte in between and the drive selected
that was selected first. It writes a frame at the most, its reads are bounded, and the counters show both. -/
theorem handshake_bounded (volume : UInt8) (settings : ControllerSettings) (events : List (Event ρ)) (registers : ρ)
    (cache : TrackCache) :
    let c := (Tape.run { controller := .ofVolume volume settings } events).controller
    let run := c.pollOnce registers cache
    ∃ accesses, Course c registers cache accesses run ∧
      (∀ other last, Course c registers cache other last → other = accesses ∧ last = run) ∧
      (∀ before sent after, accesses = before ++ .write sent :: after →
        ∃ earlier status between, before = earlier ++ .read status :: between ∧ writes between = [] ∧
          status.wanted = true ∧ status.pending = false ∧ status.drive = (shown registers).drive) ∧
      run.written.toList = (writes accesses).map Sent.byte ∧ run.written.size ≤ 366 ∧
      run.controller.stats.bytesWritten = c.stats.bytesWritten + run.written.size ∧
      (reads accesses).length ≤ 1 + 365 * max 1 c.settings.burstPollLimit ∧
      run.controller.stats.polls = c.stats.polls + (reads accesses).length := by
  intro c run
  have outgoing : c.head.Outgoing := Tape.outgoing volume settings events
  obtain ⟨accesses, course⟩ := course_pollOnce outgoing registers cache
  obtain ⟨written, -, bytesWritten, polls⟩ := course.accounts
  obtain ⟨most, bounded⟩ := course.bounds outgoing
  have size : run.written.size = (writes accesses).length := by
    rw [← Array.length_toList, written, List.length_append, List.length_map]
    exact Nat.zero_add _
  refine ⟨accesses, course, fun _ _ => course.unique, ?_, written, size ▸ most, size ▸ bytesWritten, bounded, polls⟩
  intro before sent after split
  obtain ⟨earlier, status, between, front, none, ⟨wanted, taken⟩, drive⟩ := course.answers before sent after split
  exact ⟨earlier, status, between, front, none, wanted, taken, drive⟩

/-- Where anything follows a read, the phases, the drive and the request are as they were first. So a poll stops as soon
as the lines differ in more than the pending line, exactly as long as the motor line stays as it was in every read that
something follows. -/
theorem stops_iff (volume : UInt8) (settings : ControllerSettings) (events : List (Event ρ)) (registers : ρ)
    (cache : TrackCache) :
    let c := (Tape.run { controller := .ofVolume volume settings } events).controller
    ∃ accesses, Course c registers cache accesses (c.pollOnce registers cache) ∧
      (∀ before status after, accesses = before ++ .read status :: after →
        ¬ (shown registers).Upholds status → after = []) ∧
      ((∀ before status after, accesses = before ++ .read status :: after →
          (shown registers).Departs status → after = []) ↔
        ∀ before status after, accesses = before ++ .read status :: after → after ≠ [] →
          status.motor = (shown registers).motor) := by
  intro c
  obtain ⟨accesses, course⟩ := course_pollOnce (Tape.outgoing volume settings events) registers cache
  have watches := course.watches
  refine ⟨accesses, course, ?_, ?_⟩
  · intro before status after split parts
    by_contra more
    exact parts (watches before status after split more)
  · constructor
    · intro stops before status after split more
      have upholds := watches before status after split more
      by_contra moved
      exact more (stops before status after split ((upholds.departs_iff (course.wanted split more)).mpr moved))
    · intro steady before status after split departs
      by_contra more
      have upholds := watches before status after split more
      exact (upholds.departs_iff (course.wanted split more)).mp departs (steady before status after split more)

/-- A byte is wanted with the motor on, then with the motor off, then none. -/
def motorStops : Bench.Levers := { script := [0x50, 0x40, 0x00] }

def oneSector : TrackCache := (TrackCache.empty.retag .external 0 defaultVolume).commit .external 0 .zero

theorem course_motorStops :
    let opened := (polled (.ofVolume defaultVolume {}) motorStops).opened (shown motorStops) oneSector
    let goesOn := opened.poll.2.write .external oneSector none
    Course (.ofVolume defaultVolume {}) motorStops oneSector
      (.read (shown motorStops) ::
          (polled (.ofVolume defaultVolume {}) motorStops).opening (shown motorStops) oneSector ++
        [.read (.ofByte 0x40), .write (opened.poll.2.sent .external oneSector none), .read (.ofByte 0x00)])
      goesOn.poll.2 :=
  .burst (by decide) rfl (.writes (by decide +kernel) (by decide) rfl (.changed (by decide +kernel) (by decide)))

/-- The motor stops in a burst, and one more byte is written all the same. -/
theorem motor_unwatched : ∃ accesses before status after,
    Course (.ofVolume defaultVolume {}) motorStops oneSector accesses
        (pollOnce (.ofVolume defaultVolume {}) motorStops oneSector) ∧
      accesses = before ++ .read status :: after ∧ (shown motorStops).Departs status ∧ after ≠ [] := by
  have course := Course.pollOnce course_motorStops (.inl rfl)
  refine ⟨_, _ :: _ :: [_], .ofByte 0x40, [_, _], course, rfl, ?_, List.cons_ne_nil _ _⟩
  unfold Status.Departs
  decide

end Controller
end Floppy
