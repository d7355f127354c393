import Floppy.Proofs.Fetch.Bursts

/-!
# The life of a fetch client

A client asks once and reads until it stops, and then it may ask again. Whatever comes, whatever room there is and
whenever the connection is lost, what it keeps goes together with its state: without a disk the line is for no track and
holds nothing, and only a client that reads waits.
-/
namespace Floppy.Fetch

namespace Core

/-- What a client keeps goes together with its state. A sector that is taken over in the end is received for a line that
has a track. -/
structure Orderly (core : Core) : Prop where
  state : core.state ≠ .seeking ∧ core.state ≠ .writing
  absent : core.state = .disconnected ∨ core.state = .noDisk → core.line.track = none
  tagged : ∀ i, core.line.valid.get i = true → core.line.track ≠ none
  assembly : ∀ a, core.assembly = some a →
    a.bytes.size ≤ sectorSize ∧ (a.discard = false → core.line.track ≠ none)
  waits : core.retries ≠ 0 → core.state = .reading
  patient : core.retries ≤ core.retryLimit

theorem invalid_replicate (i : Fin 16) : (Vector.replicate 16 false).get i ≠ true := by
  simp [Vector.get]

namespace Orderly
variable {core : Core}

theorem of_assembly (h : core.Orderly) {assembly : Option Assembly}
    (sound : ∀ a, assembly = some a → a.bytes.size ≤ sectorSize ∧ (a.discard = false → core.line.track ≠ none)) :
    Orderly { core with assembly } :=
  ⟨h.state, h.absent, h.tagged, sound, h.waits, h.patient⟩

theorem of_line (h : core.Orderly) {line : TrackLine} (track : line.track = core.line.track)
    (tagged : ∀ i, line.valid.get i = true → core.line.track ≠ none) : Orderly { core with line } := by
  rw [← track] at tagged
  exact ⟨h.state, fun absent => track.trans (h.absent absent), tagged,
    fun a found => ⟨(h.assembly a found).1, fun kept => track.symm ▸ (h.assembly a found).2 kept⟩, h.waits, h.patient⟩

theorem of_dropped (assembly : core.assembly = none) (retries : core.retries = 0)
    (state : core.state ≠ .seeking ∧ core.state ≠ .writing)
    (absent : core.state = .disconnected ∨ core.state = .noDisk → core.line.track = none)
    (tagged : ∀ i, core.line.valid.get i = true → core.line.track ≠ none) : core.Orderly :=
  ⟨state, absent, tagged, by simp [assembly], fun some => absurd retries some, retries ▸ UInt32.zero_le⟩

theorem sectorStart (h : core.Orderly) (track sector : UInt8) : (core.sectorStart track sector).Orderly := by
  apply h.of_assembly
  rintro _ ⟨⟩
  refine ⟨Nat.zero_le _, fun kept => ?_⟩
  have there : core.line.track = some track := by simpa using kept
  simp [there]

theorem payload (h : core.Orderly) (byte : UInt8) : (core.payload byte).Orderly := by
  unfold Core.payload
  split
  case h_1 => exact h
  case h_2 a found =>
    split
    case isTrue room =>
      obtain ⟨-, kept⟩ := h.assembly a found
      apply h.of_assembly
      rintro _ ⟨⟩
      exact ⟨by simpa using room, kept⟩
    case isFalse => exact h

theorem sectorEnd (h : core.Orderly) (checksum : UInt8) : (core.sectorEnd checksum).Orderly := by
  have given : Orderly { core with assembly := none } := h.of_assembly nofun
  unfold Core.sectorEnd
  split
  case h_1 => exact h
  case h_2 a found =>
    split
    case isTrue => exact given
    case isFalse kept =>
      have there := (h.assembly a found).2 (by simpa using kept)
      split
      case isTrue =>
        split
        case isTrue => exact given.of_line rfl fun _ _ => there
        case isFalse => exact given
      case isFalse => exact given

theorem transferEnd (h : core.Orderly) : core.transferEnd.Orderly := by
  by_cases reading : core.state = .reading
  · simp only [Core.transferEnd, if_pos reading]
    exact .of_dropped rfl rfl (by simp) (by simp) h.tagged
  · simp only [Core.transferEnd, if_neg reading]
    exact .of_dropped rfl rfl h.state h.absent h.tagged

theorem trackCrc (h : core.Orderly) (crc : UInt32) : (core.trackCrc crc).Orderly := by
  have track : (core.trackCrc crc).line.track = core.line.track := congrArg Prod.fst (core.tag_trackCrc crc)
  have valid : (core.trackCrc crc).line.valid = core.line.valid := by
    rw [line_trackCrc]
    split <;> rfl
  exact h.of_line track fun i set => h.tagged i (valid ▸ set)

theorem announce (h : core.Orderly) (volume : UInt8) : (core.announce volume).Orderly := by
  unfold Core.announce
  split
  case isTrue => exact ⟨h.state, h.absent, h.tagged, h.assembly, h.waits, h.patient⟩
  case isFalse =>
    exact .of_dropped rfl rfl (by simp) (by simp) fun i set => absurd set (invalid_replicate i)

theorem apply (h : core.Orderly) (event : StreamEvent) : (core.apply event).Orderly := by
  cases event with
  | sectorStart track sector => exact h.sectorStart track sector
  | payload byte => exact h.payload byte
  | sectorEnd checksum => exact h.sectorEnd checksum
  | transferEnd => exact h.transferEnd
  | trackCrc crc => exact h.trackCrc crc
  | volume volume => exact h.announce volume
  | error => exact h

theorem take (h : core.Orderly) (burst : List UInt8) : (core.take burst).Orderly := by
  apply List.foldlRecOn _ Core.apply (motive := Orderly)
  · exact ⟨h.state, h.absent, h.tagged, h.assembly, by simp, UInt32.zero_le⟩
  · exact fun core orderly event _ => orderly.apply event

theorem wake (h : core.Orderly) : core.wake.Orderly := by
  unfold Core.wake
  split
  case isTrue off =>
    refine ⟨by simp, fun _ => h.absent (.inl off), h.tagged, h.assembly, fun some => ?_, h.patient⟩
    have reading := h.waits some
    simp [off] at reading
  case isFalse => exact h

theorem wait (h : core.Orderly) : core.wait.Orderly := by
  unfold Core.wait
  split
  case isTrue reading =>
    split
    case isTrue => exact .of_dropped rfl rfl (by simp) (by simp) h.tagged
    case isFalse early => exact ⟨h.state, h.absent, h.tagged, h.assembly, fun _ => reading, UInt32.not_lt.mp early⟩
  case isFalse => exact h

theorem disconnect (h : core.Orderly) : core.disconnect.Orderly := by
  unfold Core.disconnect
  split
  case isTrue => exact h
  case isFalse =>
    exact .of_dropped rfl rfl (by simp) (fun _ => rfl) fun i set => absurd set (invalid_replicate i)

theorem request (h : core.Orderly) (track volume : UInt8) (fits : Bool) : (core.request track volume fits).Orderly := by
  have there : (core.line.retag track volume).track ≠ none := by simp [TrackLine.track_retag]
  unfold Core.request
  split
  case isTrue => exact h
  case isFalse inserted =>
    split
    case isTrue => exact .of_dropped rfl rfl (by simp) (by simp) fun _ _ => there
    case isFalse =>
      have present : ¬ (core.state = .disconnected ∨ core.state = .noDisk) := by simp [not_not.mp inserted]
      exact ⟨h.state, fun absent => absurd absent present, fun _ _ => there,
        fun a found => ⟨(h.assembly a found).1, fun _ => there⟩, h.waits, h.patient⟩

theorem restart (h : core.Orderly) : core.restart.Orderly := by
  obtain ⟨⟨seeking, writing⟩, absent, tagged, -, -, -⟩ := h
  have state : core.restart.state = if core.state = .reading then .inserted else core.state := by
    cases found : core.state <;> simp_all [Core.restart]
  by_cases reading : core.state = .reading
  · rw [if_pos reading] at state
    exact .of_dropped rfl rfl (by simp [state]) (by simp [state]) tagged
  · rw [if_neg reading] at state
    refine .of_dropped rfl rfl ?_ ?_ tagged
    · rw [state]
      exact ⟨seeking, writing⟩
    · rw [state]
      exact absent

theorem of_outside (h : core.Orderly) (volume : UInt8) (inserted : Bool) : Orderly { core with volume, inserted } :=
  ⟨h.state, h.absent, h.tagged, h.assembly, h.waits, h.patient⟩

end Orderly

variable {core : Core}

theorem reading_apply (reading : core.state = .reading) {event : StreamEvent} (goesOn : event ≠ .transferEnd) :
    (core.apply event).state = .reading := by
  have effect := core.effect event
  generalize core.apply event = next at effect ⊢
  cases effect with
  | assembly => exact reading
  | commit => exact reading
  | transferEnd => exact absurd rfl goesOn
  | trackCrc => exact reading
  | announce => rwa [announce, if_pos reading]

theorem resting_foldl (resting : core.state ≠ .reading) (events : List StreamEvent) :
    (events.foldl apply core).state ≠ .reading := by
  apply List.foldlRecOn events apply (motive := fun core => core.state ≠ .reading) resting
  intro core resting event _
  rcases (core.apply_frame event).1 with same | inserted
  · rwa [same]
  · simp [inserted]

theorem resting_take (resting : core.state ≠ .reading) (burst : List UInt8) : (core.take burst).state ≠ .reading := by
  rw [take]
  exact resting_foldl (by exact resting) _

theorem reading_foldl_iff (reading : core.state = .reading) (events : List StreamEvent) :
    (events.foldl apply core).state = .reading ↔ .transferEnd ∉ events := by
  induction events generalizing core with
  | nil => simpa using reading
  | cons event events ih =>
    by_cases ends : event = .transferEnd
    · subst ends
      have stopped : (core.apply .transferEnd).state ≠ .reading := by simp [apply, transferEnd, reading]
      simpa using resting_foldl stopped events
    · rw [List.foldl_cons, ih (reading_apply reading ends), List.mem_cons, not_or]
      exact (and_iff_right (Ne.symm ends)).symm

theorem reading_wait_iff (reading : core.state = .reading) :
    core.wait.state = .reading ↔ ¬ core.retryLimit < core.retries + 1 := by
  rw [wait, if_pos reading]
  split
  case isTrue late => simp [late]
  case isFalse early => simp [early, reading]

theorem resting_wait (resting : core.state ≠ .reading) : core.wait.state ≠ .reading := by
  rwa [wait, if_neg resting]

theorem resting_wake (resting : core.state ≠ .reading) : core.wake.state ≠ .reading := by
  unfold wake
  split
  case isTrue => simp
  case isFalse => exact resting

theorem resting_disconnect (core : Core) : core.disconnect.state ≠ .reading := by
  unfold disconnect
  split
  case isTrue off => simp [off]
  case isFalse => simp

theorem resting_restart (core : Core) : core.restart.state ≠ .reading := by
  cases found : core.state <;> simp [restart, found]

end Core

namespace FetchStats

theorem requests_enter (stats : FetchStats) (entry : Entry) : (stats.enter entry).requests = stats.requests := by
  cases entry with
  | discarded => rfl
  | committed => rfl
  | validated => rfl
  | fault error => cases error <;> rfl

theorem requests_foldl (stats : FetchStats) (entries : List Entry) :
    (entries.foldl enter stats).requests = stats.requests :=
  List.foldlRecOn entries enter (motive := fun next => next.requests = stats.requests) rfl
    fun next same entry _ => (next.requests_enter entry).trans same

end FetchStats

namespace Desk

theorem stats_setState (desk : Desk) (state : DiskState) : (desk.setState state).client.stats = desk.client.stats :=
  (desk.enters_setState state).stats

theorem requests_disconnect (desk : Desk) : desk.disconnect.client.stats.requests = desk.client.stats.requests := by
  unfold disconnect
  split
  case isTrue => rfl
  case isFalse => exact congrArg FetchStats.requests (stats_setState ..)

theorem requests_wait (desk : Desk) : desk.wait.client.stats.requests = desk.client.stats.requests := by
  unfold wait
  split
  case isTrue =>
    dsimp only
    split
    case isTrue => exact (congrArg FetchStats.requests (stats_setState ..)).trans rfl
    case isFalse => rfl
  case isFalse => rfl

theorem requests_take (desk : Desk) (burst : List UInt8) :
    (desk.take burst).client.stats.requests = desk.client.stats.requests := by
  rw [(desk.enters_take burst).1]
  exact FetchStats.requests_foldl ..

end Desk

namespace Client
variable {τ : Type} [Transport τ]

theorem requests_service (client : Client) (transport : τ) (line : TrackLine) (volume : UInt8) :
    (client.service transport line volume).1.client.stats.requests = client.stats.requests := by
  have woken : (client.woken line volume).client.stats.requests = client.stats.requests :=
    congrArg FetchStats.requests (client.enters_woken line volume).1
  unfold service
  dsimp only
  split
  case isTrue => exact Desk.requests_disconnect _
  case isFalse =>
    split
    case h_1 => exact (Desk.requests_wait _).trans woken
    case h_2 => exact (Desk.requests_take ..).trans woken

theorem requests_request (client : Client) (transport : τ) (line : TrackLine) (volume : UInt8) (request : Request) :
    (client.request transport line volume request).2.1.client.stats.requests = client.stats.requests +
      (decide (client.state = .inserted ∧ neededRoom request ≤ Transport.room transport)).toNat := by
  unfold Client.request
  by_cases ready : client.state = .inserted
  · by_cases short : Transport.room transport < neededRoom request
    · simp [ready, short]
    · simp only [ready, short, Nat.le_of_not_lt short]
      rfl
  · simp [ready]

theorem requests_restart (client : Client) : client.restart.1.stats.requests = client.stats.requests := by
  unfold restart
  dsimp only
  split
  · exact congrArg FetchStats.requests (Desk.stats_setState ..)
  · exact congrArg FetchStats.requests (Desk.stats_setState ..)
  · exact congrArg FetchStats.requests (Desk.stats_setState ..)
  · rfl

end Client

namespace Watch

/-- What a service pass comes to: the connection is lost, or nothing came, or something. -/
inductive Pass (w : Watch) (pipe : Bench.Pipe) : Core → Prop
  | offline (off : pipe.online = false) : Pass w pipe w.core.disconnect
  | empty (on : pipe.online = true) (nothing : pipe.received.take Client.burstSize = []) : Pass w pipe w.core.wake.wait
  | burst (on : pipe.online = true) (something : pipe.received.take Client.burstSize ≠ []) :
      Pass w pipe (w.core.wake.take (pipe.received.take Client.burstSize))

theorem pass_step (w : Watch) (pipe : Bench.Pipe) :
    ∃ core, w.Pass pipe core ∧ (w.step (.service pipe)).core = { core with inserted := false } := by
  refine ⟨(w.client.service pipe w.line w.volume).1.core, ?_, rfl⟩
  cases on : pipe.online with
  | false =>
    rw [w.client.core_service_offline pipe w.line w.volume on]
    exact .offline on
  | true =>
    by_cases nothing : pipe.received.take Client.burstSize = []
    · rw [w.client.core_service_nil pipe w.line w.volume on nothing]
      exact .empty on nothing
    · rw [w.client.core_service_cons pipe w.line w.volume on nothing]
      exact .burst on nothing

theorem core_step_request (w : Watch) (pipe : Bench.Pipe) (request : Request) (volume : UInt8) :
    (w.step (.request pipe request volume)).core =
      { (w.client.core w.line volume).request request.track volume
          (decide (Client.neededRoom request ≤ Transport.room pipe)) with
        volume := w.volume, inserted := false } := by
  rw [← Client.core_request]
  rfl

theorem core_step_restart (w : Watch) : (w.step .restart).core = w.core.restart :=
  w.client.core_restart w.line w.volume

variable {w : Watch}

theorem orderly_step (h : w.core.Orderly) (call : Call) : (w.step call).core.Orderly := by
  cases call with
  | service pipe =>
    obtain ⟨core, pass, same⟩ := w.pass_step pipe
    suffices after : core.Orderly from same ▸ after.of_outside core.volume false
    cases pass with
    | offline => exact h.disconnect
    | empty => exact h.wake.wait
    | burst => exact h.wake.take _
  | request pipe request volume =>
    rw [core_step_request]
    exact ((h.of_outside volume false).request ..).of_outside _ _
  | restart =>
    rw [core_step_restart]
    exact h.restart

theorem orderly_run (h : w.core.Orderly) (calls : List Call) : (w.run calls).core.Orderly :=
  List.foldlRecOn calls step (motive := fun w => w.core.Orderly) h fun _ orderly call _ => orderly_step orderly call

theorem retryLimit_step (w : Watch) (call : Call) : (w.step call).core.retryLimit = w.core.retryLimit := by
  cases call with
  | service pipe =>
    obtain ⟨core, pass, same⟩ := w.pass_step pipe
    rw [same]
    cases pass with
    | offline =>
      show w.core.disconnect.retryLimit = _
      unfold Core.disconnect
      split <;> rfl
    | empty =>
      refine Eq.trans ?_ w.core.wake_retryLimit
      show w.core.wake.wait.retryLimit = _
      unfold Core.wait
      split
      case isTrue => split <;> rfl
      case isFalse => rfl
    | burst => exact (Core.retryLimit_foldl ..).trans w.core.wake_retryLimit
  | request pipe request volume =>
    rw [core_step_request]
    unfold Core.request
    split
    case isTrue => rfl
    case isFalse => split <;> rfl
  | restart =>
    rw [core_step_restart]
    rfl

theorem retryLimit_run (w : Watch) (calls : List Call) : (w.run calls).client.retryLimit = w.client.retryLimit :=
  List.foldlRecOn calls step (motive := fun next => next.client.retryLimit = w.client.retryLimit) rfl
    fun next same call _ => (next.retryLimit_step call).trans same

def reads (w : Watch) : Bool := w.client.state = .reading

def sends (w : Watch) : Call → Bool
  | .request pipe request volume => (w.client.request pipe w.line volume request).2.2.sent ≠ pipe.sent
  | _ => false

def leaves (w : Watch) (call : Call) : Bool := w.reads && !(w.step call).reads

def tally (p : Watch → Call → Bool) (w : Watch) : List Call → ℕ
  | [] => 0
  | call :: calls => (p w call).toNat + tally p (w.step call) calls

/-- Why a client stops reading. -/
inductive Cause where
  | endMarker
  | timeout
  | disconnect
  | restart

/-- What there is in a call to make a client stop. -/
def cause? (w : Watch) : Call → Option Cause
  | .service pipe =>
    let burst := pipe.received.take Client.burstSize
    if !w.reads then none
    else if !pipe.online then some .disconnect
    else if burst = [] then
      if w.client.retryLimit < w.client.retries + 1 then some .timeout else none
    else if .transferEnd ∈ (w.client.tokenizer.feed burst).2 then some .endMarker
    else none
  | .request .. => none
  | .restart => if w.reads then some .restart else none

theorem reads_eq {w : Watch} {state : DiskState} (same : w.core.state = state) : w.reads = decide (state = .reading) :=
  same ▸ rfl

theorem sends_request (w : Watch) (pipe : Bench.Pipe) (request : Request) (volume : UInt8) :
    w.sends (.request pipe request volume) = true ↔
      w.client.state = .inserted ∧ Client.neededRoom request ≤ pipe.room := by
  have some : request.encode ≠ [] := List.cons_ne_nil _ _
  have room : Transport.room pipe = pipe.room := rfl
  simp only [sends, Client.request, room]
  by_cases ready : w.client.state = .inserted
  · by_cases short : pipe.room < Client.neededRoom request
    · simp [ready, short]
    · simp [ready, short, Transport.send, some, Nat.le_of_not_lt short]
  · simp [ready]

theorem state_step_request (w : Watch) (pipe : Bench.Pipe) (request : Request) (volume : UInt8) :
    (w.step (.request pipe request volume)).core.state =
      if w.sends (.request pipe request volume) then .reading else w.core.state := by
  have state : (w.client.core w.line volume).state = w.client.state := rfl
  have room : Transport.room pipe = pipe.room := rfl
  simp only [core_step_request, sends_request, Core.request, state, room]
  by_cases ready : w.client.state = .inserted
  · by_cases fits : Client.neededRoom request ≤ pipe.room
    · simp [ready, fits]
    · simp only [ready, fits]
      exact ready.symm
  · rw [if_pos ready, if_neg fun both : _ ∧ _ => ready both.1]
    rfl

theorem leaves_service (w : Watch) (pipe : Bench.Pipe) (reading : w.core.state = .reading) :
    (!(w.step (.service pipe)).reads) = (w.cause? (.service pipe)).isSome := by
  have reads : w.reads = true := decide_eq_true reading
  have woken : w.core.wake = w.core := Core.wake_of_ne (by simp [reading])
  obtain ⟨core, pass, same⟩ := w.pass_step pipe
  have after : (w.step (.service pipe)).core.state = core.state := by rw [same]
  rw [reads_eq after]
  cases pass with
  | offline off => simp [cause?, reads, off, w.core.resting_disconnect]
  | empty on nothing =>
    have late : w.core.wait.state = .reading ↔ ¬ w.client.retryLimit < w.client.retries + 1 :=
      Core.reading_wait_iff reading
    simp only [woken, late, cause?, reads, on, nothing]
    by_cases last : w.client.retryLimit < w.client.retries + 1 <;> simp [last]
  | burst on something =>
    have ends : (w.core.take (pipe.received.take Client.burstSize)).state = .reading ↔
        .transferEnd ∉ (w.client.tokenizer.feed (pipe.received.take Client.burstSize)).2 :=
      Core.reading_foldl_iff (by exact reading) _
    simp only [woken, ends, cause?, reads, on, something]
    by_cases marker : .transferEnd ∈ (w.client.tokenizer.feed (pipe.received.take Client.burstSize)).2 <;> simp [marker]

theorem sends_of_reads {w : Watch} (reads : w.reads = true) (call : Call) : w.sends call = false := by
  cases call with
  | service => rfl
  | request pipe request volume =>
    rw [Bool.eq_false_iff]
    intro sends
    have inserted := ((w.sends_request pipe request volume).mp sends).1
    simp [Watch.reads, inserted] at reads
  | restart => rfl

/-- The end marker, the timeout, the lost connection and the restart are all there is. -/
theorem leaves_eq (w : Watch) (call : Call) : w.leaves call = (w.cause? call).isSome := by
  cases reads : w.reads with
  | true =>
    have reading : w.core.state = .reading := of_decide_eq_true reads
    rw [leaves, reads, Bool.true_and]
    cases call with
    | service pipe => exact w.leaves_service pipe reading
    | request pipe request volume =>
      rw [reads_eq (w.state_step_request pipe request volume), sends_of_reads reads]
      simp [cause?, reading]
    | restart =>
      rw [reads_eq (congrArg Core.state w.core_step_restart)]
      simp [cause?, reads, w.core.resting_restart]
  | false => cases call <;> simp [leaves, cause?, reads]

theorem reads_step {w : Watch} (rests : w.reads = false) (call : Call) : (w.step call).reads = w.sends call := by
  have resting : w.core.state ≠ .reading := of_decide_eq_false rests
  cases call with
  | service pipe =>
    obtain ⟨core, pass, same⟩ := w.pass_step pipe
    have after : (w.step (.service pipe)).core.state = core.state := by rw [same]
    rw [reads_eq after]
    refine decide_eq_false ?_
    cases pass with
    | offline => exact w.core.resting_disconnect
    | empty => exact Core.resting_wait (Core.resting_wake resting)
    | burst => exact Core.resting_take (Core.resting_wake resting) _
  | request pipe request volume =>
    rw [reads_eq (w.state_step_request pipe request volume)]
    cases w.sends (.request pipe request volume) <;> simp [resting]
  | restart =>
    rw [reads_eq (congrArg Core.state w.core_step_restart)]
    exact decide_eq_false w.core.resting_restart

theorem balance_step (w : Watch) (call : Call) :
    w.reads.toNat + (w.sends call).toNat = (w.leaves call).toNat + (w.step call).reads.toNat := by
  cases reads : w.reads with
  | true =>
    rw [sends_of_reads reads, leaves, reads]
    cases (w.step call).reads <;> rfl
  | false => simp [← reads_step reads, leaves, reads]

theorem balance_run (w : Watch) (calls : List Call) :
    w.reads.toNat + w.tally sends calls = w.tally leaves calls + (w.run calls).reads.toNat := by
  induction calls generalizing w with
  | nil => exact Nat.add_comm ..
  | cons call calls ih =>
    have first := w.balance_step call
    have later := ih (w.step call)
    simp only [tally]
    show _ = _ + ((w.step call).run calls).reads.toNat
    omega

theorem requests_step (w : Watch) (call : Call) :
    (w.step call).client.stats.requests = w.client.stats.requests + (w.sends call).toNat := by
  cases call with
  | service pipe => exact w.client.requests_service pipe w.line w.volume
  | request pipe request volume =>
    have sends : w.sends (.request pipe request volume) =
        decide (w.client.state = .inserted ∧ Client.neededRoom request ≤ Transport.room pipe) := by
      rw [Bool.eq_iff_iff, decide_eq_true_iff]
      exact w.sends_request pipe request volume
    rw [sends]
    exact w.client.requests_request pipe w.line volume request
  | restart => exact w.client.requests_restart

theorem requests_run (w : Watch) (calls : List Call) :
    (w.run calls).client.stats.requests = w.client.stats.requests + w.tally sends calls := by
  induction calls generalizing w with
  | nil => rfl
  | cons call calls ih =>
    show ((w.step call).run calls).client.stats.requests = _
    rw [ih, requests_step, tally, Nat.add_assoc]

/-- Whatever comes, whatever room there is and whenever the connection is lost, a client neither seeks nor writes.
Without a disk the line of its drive is for no track and holds nothing. What the line holds is of some track. No more is
received of a sector than belongs to one, and only a client that reads waits, not longer than it may. It has asked as
often as it has stopped reading, and once more if it reads: at most one answer is awaited at a time. -/
theorem lifecycle (retryLimit : UInt32) (wholeTrack : Bool) (trace : Trace) (volume : UInt8) (calls : List Call) :
    let first := start retryLimit wholeTrack trace volume
    let w := first.run calls
    (w.client.state ≠ .seeking ∧ w.client.state ≠ .writing) ∧
      (w.client.state = .disconnected ∨ w.client.state = .noDisk →
        w.line.track = none ∧ ∀ i, w.line.valid.get i = false) ∧
      (∀ i, w.line.valid.get i = true → w.line.track ≠ none) ∧
      (∀ a, w.client.assembly = some a → a.bytes.size ≤ 256) ∧
      (w.client.retries ≠ 0 → w.client.state = .reading) ∧ w.client.retries ≤ retryLimit ∧
      w.client.stats.requests = first.tally sends calls ∧
      first.tally sends calls = first.tally leaves calls + (if w.client.state = .reading then 1 else 0) ∧
      (∀ earlier call later, calls = earlier ++ call :: later →
        (first.run earlier).leaves call = ((first.run earlier).cause? call).isSome) := by
  intro first w
  have idle : first.core.Orderly :=
    .of_dropped rfl rfl ⟨nofun, nofun⟩ (fun _ => rfl) fun i set => absurd set (Core.invalid_replicate i)
  have orderly : w.core.Orderly := orderly_run idle calls
  have limit : w.client.retryLimit = retryLimit := first.retryLimit_run calls
  have requests := first.requests_run calls
  have balance := first.balance_run calls
  refine ⟨orderly.state, fun absent => ⟨orderly.absent absent, fun i => ?_⟩, orderly.tagged,
    fun a found => (orderly.assembly a found).1, orderly.waits, limit ▸ orderly.patient, ?_, ?_, ?_⟩
  · rw [Bool.eq_false_iff]
    exact fun set => orderly.tagged i set (orderly.absent absent)
  · exact requests.trans (Nat.zero_add _)
  · have began : first.reads = false := rfl
    rw [began, Bool.toNat_false, Nat.zero_add] at balance
    rw [balance]
    by_cases reading : w.client.state = .reading <;> simp [w, reads, reading]
  · exact fun earlier call _ _ => leaves_eq _ call

end Watch
end Floppy.Fetch
