import Floppy.Proofs.Fetch.Grammar
import Floppy.Proofs.Fetch.Lifecycle

/-!
# A transfer that stalls

A client that reads puts up with so many empty passes in a row, and with no more. Then it gives the transfer up and
forgets what it holds of it. The rest of a sector may still come, but without its beginning it is never taken over.
-/
namespace Floppy.Fetch

namespace Tokenizer

/-- No sector is in the middle of being announced. -/
def Headless (t : Tokenizer) : Prop := ∀ token, t.token = some token → token.kind ≠ .sectorStart

variable {t : Tokenizer} {byte : UInt8}

theorem headless_scan (h : t.Headless) (other : byte ≠ 35) : (t.scan byte).1.Headless := by
  unfold scan
  split
  case h_1 kind marker =>
    rintro _ ⟨⟩ rfl
    exact other (TokenKind.ofMarker?_eq_some_iff.mp marker)
  case h_2 =>
    split
    case isTrue => exact h
    case isFalse => split <;> exact h

theorem headless_push (h : t.Headless) (other : byte ≠ 35) :
    (t.push byte).1.Headless ∧ ∀ track sector, .sectorStart track sector ∉ (t.push byte).2 := by
  rcases t with ⟨_ | ⟨kind, digits, value⟩, half⟩
  · exact ⟨headless_scan h other, fun track sector => notMem_scan _ byte rfl nofun⟩
  · have kept : kind ≠ .sectorStart := h _ rfl
    have outside : Headless { half } := nofun
    cases digit : Hex.digit? byte with
    | some d =>
      by_cases complete : digits + 1 = kind.digits
      · simp only [push, digit, complete, if_true]
        refine ⟨outside, fun track sector mem => ?_⟩
        cases kind <;> cases List.mem_singleton.mp mem
        exact kept rfl
      · simp only [push, digit, complete, if_false]
        refine ⟨?_, fun _ _ => List.not_mem_nil⟩
        rintro _ ⟨⟩
        exact kept
    | none =>
      simp only [push, digit]
      refine ⟨headless_scan outside other, fun track sector mem => ?_⟩
      rcases List.mem_append.mp mem with cut | scanned
      · exact TokenKind.sectorStart_notMem_cut kind digits value byte track sector cut
      · exact absurd scanned (notMem_scan _ byte rfl nofun)

theorem headless_feed (h : t.Headless) {bytes : List UInt8} (other : 35 ∉ bytes) :
    (t.feed bytes).1.Headless ∧ ∀ track sector, .sectorStart track sector ∉ (t.feed bytes).2 := by
  induction bytes generalizing t with
  | nil => exact ⟨h, fun _ _ => List.not_mem_nil⟩
  | cons byte bytes ih =>
    obtain ⟨first, rest⟩ := List.ne_and_not_mem_of_not_mem_cons other
    obtain ⟨kept, unheard⟩ := headless_push h (Ne.symm first)
    obtain ⟨last, later⟩ := ih kept rest
    refine ⟨last, fun track sector mem => ?_⟩
    rcases List.mem_append.mp mem with now | after
    · exact unheard track sector now
    · exact later track sector after

end Tokenizer

namespace Core

/-- No sector is in reception, and none is being announced. -/
structure Barren (core : Core) : Prop where
  assembly : core.assembly = none
  headless : core.tokenizer.Headless

def Fades (line next : TrackLine) : Prop := ∀ i, next.valid.get i = true → line.valid.get i = true

theorem Fades.trans {a b c : TrackLine} (first : Fades a b) (second : Fades b c) : Fades a c :=
  fun i set => first i (second i set)

theorem Fades.of_invalid (line : TrackLine) {next : TrackLine} (none : next.valid = .replicate 16 false) :
    Fades line next := fun i set => absurd (none ▸ set) (invalid_replicate i)

namespace Barren
variable {core : Core}

theorem of_dropped {core : Core} (assembly : core.assembly = none) (tokenizer : core.tokenizer = {}) : core.Barren :=
  ⟨assembly, fun _ opened => nomatch (congrArg Tokenizer.token tokenizer).symm.trans opened⟩

/-- What comes of a sector that has not begun is not taken over. -/
theorem apply (h : core.Barren) {event : StreamEvent} (other : ∀ track sector, event ≠ .sectorStart track sector) :
    (core.apply event).Barren ∧ Fades core.line (core.apply event).line := by
  have same : Fades core.line core.line := fun _ set => set
  cases event with
  | sectorStart track sector => exact absurd rfl (other track sector)
  | payload byte =>
    rw [Core.apply, payload, h.assembly]
    exact ⟨h, same⟩
  | sectorEnd checksum =>
    rw [Core.apply, sectorEnd, h.assembly]
    exact ⟨h, same⟩
  | transferEnd => exact ⟨⟨rfl, h.headless⟩, same⟩
  | trackCrc crc =>
    refine ⟨⟨h.assembly, h.headless⟩, fun i set => ?_⟩
    rw [Core.apply, line_trackCrc] at set
    split at set <;> exact set
  | volume volume =>
    rw [Core.apply, announce]
    split
    case isTrue => exact ⟨⟨h.assembly, h.headless⟩, same⟩
    case isFalse => exact ⟨.of_dropped rfl rfl, .of_invalid _ rfl⟩
  | error cause => exact ⟨h, same⟩

theorem foldl (h : core.Barren) {events : List StreamEvent}
    (other : ∀ track sector, .sectorStart track sector ∉ events) :
    (events.foldl Core.apply core).Barren ∧ Fades core.line (events.foldl Core.apply core).line := by
  induction events generalizing core with
  | nil => exact ⟨h, fun _ set => set⟩
  | cons event events ih =>
    obtain ⟨kept, first⟩ := h.apply fun track sector same => other track sector (same ▸ List.mem_cons_self)
    obtain ⟨last, later⟩ := ih kept fun track sector mem => other track sector (List.mem_cons_of_mem _ mem)
    exact ⟨last, first.trans later⟩

theorem take (h : core.Barren) {burst : List UInt8} (other : 35 ∉ burst) :
    (core.take burst).Barren ∧ Fades core.line (core.take burst).line := by
  obtain ⟨headless, unheard⟩ := Tokenizer.headless_feed h.headless other
  have opened : Barren { core with tokenizer := (core.tokenizer.feed burst).1, retries := 0 } :=
    ⟨h.assembly, headless⟩
  exact opened.foldl unheard

theorem wake (h : core.Barren) : core.wake.Barren :=
  ⟨core.wake_assembly.trans h.assembly, core.wake_tokenizer ▸ h.headless⟩

theorem wait (h : core.Barren) : core.wait.Barren := by
  unfold Core.wait
  split
  case isTrue =>
    split
    case isTrue => exact .of_dropped rfl rfl
    case isFalse => exact ⟨h.assembly, h.headless⟩
  case isFalse => exact h

theorem disconnect (h : core.Barren) : core.disconnect.Barren ∧ Fades core.line core.disconnect.line := by
  unfold Core.disconnect
  split
  case isTrue => exact ⟨h, fun _ set => set⟩
  case isFalse => exact ⟨.of_dropped rfl rfl, .of_invalid _ rfl⟩

theorem request (h : core.Barren) (track volume : UInt8) (fits : Bool) :
    (core.request track volume fits).Barren ∧ Fades core.line (core.request track volume fits).line := by
  have turned : Fades core.line (core.line.retag track volume) := by
    unfold TrackLine.retag
    split
    case isTrue => exact fun _ set => set
    case isFalse => exact .of_invalid _ rfl
  unfold Core.request
  split
  case isTrue => exact ⟨h, fun _ set => set⟩
  case isFalse =>
    split
    case isTrue => exact ⟨⟨rfl, h.headless⟩, turned⟩
    case isFalse => exact ⟨⟨h.assembly, h.headless⟩, turned⟩

end Barren
end Core

/-- A request that goes out, or a pass in which something comes: if the client reads then, it counts from zero. -/
def Watch.Refreshes (w : Watch) : Call → Prop
  | .service pipe => pipe.online = true ∧ pipe.received ≠ []
  | .request pipe request volume => w.sends (.request pipe request volume) = true
  | .restart => False

/-- A connection on which nothing comes. -/
def IsSilent (pipe : Bench.Pipe) : Prop := pipe.online = true ∧ pipe.received = []

namespace Watch
variable {w : Watch}

theorem retries_of_refreshes {call : Call} (refreshes : w.Refreshes call) : (w.step call).client.retries = 0 := by
  cases call with
  | service pipe =>
    obtain ⟨online, something⟩ := refreshes
    obtain ⟨core, pass, same⟩ := w.pass_step pipe
    have retries : (w.step (.service pipe)).client.retries = core.retries := congrArg Core.retries same
    rw [retries]
    cases pass with
    | offline off => exact nomatch online.symm.trans off
    | empty _ nothing => simp [Client.burstSize, something] at nothing
    | burst => exact Core.retries_foldl rfl _
  | request pipe request volume =>
    obtain ⟨ready, fits⟩ := (w.sends_request pipe request volume).mp refreshes
    have awaited : (w.client.core w.line volume).state = .inserted := ready
    have core := w.core_step_request pipe request volume
    rw [Core.request, if_neg (not_not.mpr awaited), if_pos (by exact decide_eq_true fits)] at core
    exact congrArg Core.retries core
  | restart => exact refreshes.elim

/-- A step that takes nothing over, after which there is still nothing to take over. -/
theorem barren_step (h : w.core.Barren) {call : Call} (other : ∀ pipe, call = .service pipe → 35 ∉ pipe.received) :
    (w.step call).core.Barren ∧ Core.Fades w.line (w.step call).line := by
  cases call with
  | service pipe =>
    have unmarked : 35 ∉ pipe.received.take Client.burstSize := fun mem => other pipe rfl (List.mem_of_mem_take mem)
    obtain ⟨core, pass, same⟩ := w.pass_step pipe
    have line : (w.step (.service pipe)).line = core.line := congrArg Core.line same
    suffices after : core.Barren ∧ Core.Fades w.line core.line by
      rw [same, line]
      exact ⟨⟨after.1.assembly, after.1.headless⟩, after.2⟩
    have woken : w.core.wake.line = w.line := w.core.wake_line
    cases pass with
    | offline => exact h.disconnect
    | empty => exact ⟨h.wake.wait, fun _ set => by rwa [Core.wait_line, woken] at set⟩
    | burst => exact woken ▸ h.wake.take unmarked
  | request pipe request volume =>
    have before : (w.client.core w.line volume).Barren := ⟨h.assembly, h.headless⟩
    obtain ⟨after, fades⟩ := before.request request.track volume
      (decide (Client.neededRoom request ≤ Transport.room pipe))
    have core := w.core_step_request pipe request volume
    have line := congrArg Core.line core
    rw [core]
    exact ⟨⟨after.assembly, after.headless⟩, fun i set => fades i (line ▸ set)⟩
  | restart =>
    rw [core_step_restart]
    exact ⟨.of_dropped rfl rfl, fun _ set => set⟩

theorem barren_run (h : w.core.Barren) {calls : List Call}
    (other : ∀ pipe, .service pipe ∈ calls → 35 ∉ pipe.received) : Core.Fades w.line (w.run calls).line := by
  induction calls generalizing w with
  | nil => exact fun _ set => set
  | cons call calls ih =>
    obtain ⟨kept, first⟩ := barren_step h fun pipe same => other pipe (same ▸ List.mem_cons_self)
    exact first.trans (ih kept fun pipe mem => other pipe (List.mem_cons_of_mem _ mem))

theorem service_silent (reading : w.client.state = .reading) {pipe : Bench.Pipe} (silent : IsSilent pipe) :
    (w.client.service pipe w.line w.volume).1 = (w.client.desk w.line w.volume).wait := by
  rcases pipe with ⟨_, sent, room, _⟩
  obtain ⟨rfl, rfl⟩ := silent
  have awake : w.client.state ≠ .disconnected := by simp [reading]
  unfold Client.service
  dsimp only
  rw [if_neg (by simp [Transport.connected]), if_neg awake]
  rfl

/-- So many passes were counted, and nothing else has changed. -/
structure Waited (w v : Watch) (passes : ℕ) : Prop where
  client : v.client = { w.client with retries := w.client.retries + .ofNat passes }
  line : v.line = w.line
  volume : v.volume = w.volume

/-- The transfer was given up, and of it nothing is left but a count. -/
structure Abandons (w v : Watch) : Prop where
  state : v.client.state = .inserted
  assembly : v.client.assembly = none
  tokenizer : v.client.tokenizer = {}
  stats : v.client.stats = { w.client.stats with timeouts := w.client.stats.timeouts + 1 }
  line : v.line = w.line
  volume : v.volume = w.volume

theorem Waited.trans {u v : Watch} {first second : ℕ} (h : w.Waited v first) (later : v.Waited u second) :
    w.Waited u (first + second) := by
  refine ⟨?_, later.line.trans h.line, later.volume.trans h.volume⟩
  rw [later.client, h.client, UInt32.ofNat_add, UInt32.add_assoc]

theorem Waited.abandons {u v : Watch} {passes : ℕ} (h : w.Waited v passes) (last : v.Abandons u) : w.Abandons u := by
  refine ⟨last.state, last.assembly, last.tokenizer, ?_, last.line.trans h.line, last.volume.trans h.volume⟩
  rw [last.stats, h.client]

theorem waited_step (reading : w.client.state = .reading) (early : w.client.retries.toNat + 1 ≤ w.client.retryLimit.toNat)
    {pipe : Bench.Pipe} (silent : IsSilent pipe) : w.Waited (w.step (.service pipe)) 1 := by
  have waits : (w.client.service pipe w.line w.volume).1 =
      { w.client.desk w.line w.volume with client.retries := w.client.retries + 1 } := by
    rw [service_silent reading silent, Desk.wait, if_pos (by exact reading)]
    exact if_neg (Core.count_within early).2
  exact ⟨congrArg Desk.client waits, congrArg Desk.line waits, congrArg Desk.volume waits⟩

theorem waited_run (reading : w.client.state = .reading) {silence : List Bench.Pipe}
    (silent : ∀ pipe ∈ silence, IsSilent pipe)
    (early : w.client.retries.toNat + silence.length ≤ w.client.retryLimit.toNat) :
    w.Waited (w.run (silence.map .service)) silence.length := by
  induction silence generalizing w with
  | nil =>
    refine ⟨?_, rfl, rfl⟩
    rw [List.length_nil, show UInt32.ofNat 0 = 0 from rfl, UInt32.add_zero]
    rfl
  | cons pipe silence ih =>
    rw [List.length_cons] at early ⊢
    have within : w.client.retries.toNat + 1 ≤ w.client.retryLimit.toNat := by omega
    have first := waited_step reading within (silent pipe List.mem_cons_self)
    have counted : (w.step (.service pipe)).client.retries.toNat = w.client.retries.toNat + 1 :=
      (congrArg (·.retries.toNat) first.client).trans (Core.count_within within).1
    have limit : (w.step (.service pipe)).client.retryLimit = w.client.retryLimit := congrArg (·.retryLimit) first.client
    have later := @ih (w.step (.service pipe)) (by rw [first.client, reading])
      (fun pipe mem => silent pipe (List.mem_cons_of_mem _ mem)) (by rw [counted, limit]; omega)
    rw [Nat.add_comm]
    exact first.trans later

theorem abandons_step (reading : w.client.state = .reading) (late : w.client.retries = w.client.retryLimit)
    (bounded : w.client.retryLimit.toNat < UInt32.size - 1) {pipe : Bench.Pipe} (silent : IsSilent pipe) :
    w.Abandons (w.step (.service pipe)) := by
  have many : w.client.retryLimit < w.client.retries + 1 := by
    have short : w.client.retryLimit.toNat + 1 < 2 ^ 32 := by simpa [UInt32.size] using Nat.add_lt_of_lt_sub bounded
    rw [late, UInt32.lt_iff_toNat_lt, UInt32.toNat_add, UInt32.toNat_one, Nat.mod_eq_of_lt short]
    exact Nat.lt_succ_self _
  have waits := service_silent reading silent
  have core : (w.step (.service pipe)).core = { w.core.dropTransfer with state := .inserted } := by
    have waited := (congrArg Desk.core waits).trans (Desk.core_wait _)
    rw [Core.wait, if_pos (by exact reading), if_pos (by exact many)] at waited
    exact congrArg (fun core : Core => { core with inserted := false }) waited
  have stats : (w.step (.service pipe)).client.stats =
      { w.client.stats with timeouts := w.client.stats.timeouts + 1 } := by
    refine (congrArg (·.client.stats) waits).trans ?_
    rw [Desk.wait, if_pos (by exact reading)]
    dsimp only
    rw [if_pos (by exact many), Desk.stats_setState]
    rfl
  exact ⟨congrArg Core.state core, congrArg Core.assembly core, congrArg Core.tokenizer core, stats,
    congrArg Core.line core, congrArg Core.volume core⟩

theorem abandons_run (reading : w.client.state = .reading) {silence : List Bench.Pipe}
    (silent : ∀ pipe ∈ silence, IsSilent pipe)
    (late : w.client.retries.toNat + silence.length = w.client.retryLimit.toNat + 1)
    (patient : w.client.retries.toNat ≤ w.client.retryLimit.toNat)
    (bounded : w.client.retryLimit.toNat < UInt32.size - 1) : w.Abandons (w.run (silence.map .service)) := by
  obtain rfl | ⟨silence, pipe, rfl⟩ := silence.eq_nil_or_concat'
  · rw [List.length_nil] at late
    omega
  · rw [List.length_append, List.length_singleton] at late
    have waited := waited_run reading (fun pipe mem => silent pipe (List.mem_append_left _ mem))
      (by omega : _ ≤ w.client.retryLimit.toNat)
    rw [List.map_append, run_append]
    refine waited.abandons (abandons_step ?_ ?_ ?_ (silent pipe (by simp)))
    · rw [waited.client, reading]
    · have all : w.client.retryLimit.toNat = w.client.retries.toNat + silence.length := by omega
      rw [waited.client, ← UInt32.toNat_inj, UInt32.toNat_add, UInt32.toNat_ofNat', Nat.add_mod_mod, ← all]
      exact Nat.mod_eq_of_lt (UInt32.toNat_lt _)
    · rw [waited.client]
      exact bounded

/-- A client that was given something to do, or something to read, waits as long as it may, and nothing changes but the
count of empty passes. The next empty pass counts as a timeout, and the client forgets the transfer. After this nothing
is taken over before a `#` announces another sector. -/
theorem stall_abandoned (before : Watch) (call : Call) (refreshes : before.Refreshes call)
    (reading : (before.step call).client.state = .reading) :
    let w := before.step call
    w.client.retries = 0 ∧ ∀ silence : List Bench.Pipe, (∀ pipe ∈ silence, IsSilent pipe) →
      let v := w.run (silence.map .service)
      (silence.length ≤ w.client.retryLimit.toNat → w.Waited v silence.length) ∧
        (w.client.retryLimit.toNat < UInt32.size - 1 → silence.length = w.client.retryLimit.toNat + 1 → w.Abandons v ∧
          ∀ later : List Call, (∀ pipe, .service pipe ∈ later → 35 ∉ pipe.received) →
            ∀ i, (v.run later).line.valid.get i = true → v.line.valid.get i = true) := by
  intro w
  have fresh : w.client.retries = 0 := retries_of_refreshes refreshes
  refine ⟨fresh, fun silence silent => ⟨fun few => ?_, fun bounded many => ?_⟩⟩
  · exact waited_run (w := w) reading silent (by rw [fresh, UInt32.toNat_zero]; omega)
  · have given := abandons_run (w := w) reading silent (by rw [fresh, UInt32.toNat_zero]; omega)
      (by rw [fresh]; exact Nat.zero_le _) bounded
    exact ⟨given, fun later other => barren_run (.of_dropped given.assembly given.tokenizer) other⟩

/-- A whole track is asked for, and nothing comes. -/
theorem stall_abandoned_unanswered :
    let before := (start 2 true {} 254).run [.service { received := [64, 102, 101, 10] }]
    let call := .request {} ⟨17, none⟩ 254
    before.Refreshes call ∧ (before.step call).client.state = .reading ∧
      (before.step call).Waited ((before.step call).run [.service {}, .service {}]) 2 ∧
      (before.step call).Abandons ((before.step call).run [.service {}, .service {}, .service {}]) := by
  intro before call
  have refreshes : before.sends call = true := by decide +kernel
  have reading : (before.step call).client.state = .reading := by decide +kernel
  have limit : (before.step call).client.retryLimit.toNat = 2 := by decide +kernel
  have silent (count : ℕ) : ∀ pipe ∈ List.replicate count ({} : Bench.Pipe), IsSilent pipe :=
    fun pipe mem => List.eq_of_mem_replicate mem ▸ ⟨rfl, rfl⟩
  obtain ⟨-, after⟩ := stall_abandoned before call refreshes reading
  refine ⟨refreshes, reading, (after _ (silent 2)).1 ?_, ((after _ (silent 3)).2 ?_ ?_).1⟩
  · exact limit.ge
  · rw [limit]
    decide
  · exact congrArg (· + 1) limit.symm

end Watch
end Floppy.Fetch
