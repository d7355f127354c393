import Floppy.Proofs.Fetch.Validated

/-!
# A track that is found right in a burst

A burst is too short for a whole sector, and the asterisk before a CRC drops the sector in reception. Once the CRC of a
line was found right, no sector is committed for the rest of the burst: at its end the line is as it was found, or it was
given up altogether.
-/
namespace Floppy.Fetch

def Tokenizer.InCrc (t : Tokenizer) : Prop := ∃ token, t.token = some token ∧ token.kind = .crc

def payloadCount (events : List StreamEvent) : ℕ :=
  events.countP fun
    | .payload _ => true
    | _ => false

theorem payloadCount_append (a b : List StreamEvent) : payloadCount (a ++ b) = payloadCount a + payloadCount b :=
  List.countP_append

theorem payloadCount_of_quiet {events : List StreamEvent} (quiet : ∀ event ∈ events, event.isQuiet = true) :
    payloadCount events = 0 := by
  rw [payloadCount, List.countP_eq_zero]
  intro event mem
  have said := quiet event mem
  cases event with
  | payload byte => cases said
  | _ => exact Bool.false_ne_true

namespace Core

/-- Whenever a CRC comes, no sector is in reception. -/
def Lull : Core → List StreamEvent → Prop
  | _, [] => True
  | core, event :: rest => ((∃ crc, event = .trackCrc crc) → core.assembly = none) ∧ (core.apply event).Lull rest

theorem lull_append {core : Core} {a b : List StreamEvent} :
    core.Lull (a ++ b) ↔ core.Lull a ∧ (a.foldl apply core).Lull b := by
  induction a generalizing core with
  | nil => simp [Lull]
  | cons event a ih => rw [List.cons_append, Lull, Lull, ih, List.foldl_cons, and_assoc]

theorem lull_of_no_crc {core : Core} {events : List StreamEvent} (none : ∀ crc, .trackCrc crc ∉ events) :
    core.Lull events := by
  induction events generalizing core with
  | nil => trivial
  | cons event rest ih =>
    refine ⟨?_, ih fun crc mem => none crc (List.mem_cons_of_mem _ mem)⟩
    rintro ⟨crc, rfl⟩
    exact absurd List.mem_cons_self (none crc)

end Core

namespace Tokenizer
variable {core : Core}

/-- Outside of a token a byte begins a CRC only with the end of a transfer. -/
theorem lull_scan {t : Tokenizer} (outside : t.token = none) (core : Core) (byte : UInt8) :
    core.Lull (t.scan byte).2 ∧
      ((t.scan byte).1.InCrc → ((t.scan byte).2.foldl Core.apply core).assembly = none) := by
  refine ⟨Core.lull_of_no_crc fun crc => notMem_scan t byte rfl nofun, ?_⟩
  rintro ⟨token, opened, crc⟩
  unfold scan at opened ⊢
  split
  case h_1 kind marker =>
    simp only [marker] at opened
    obtain rfl := Option.some.inj opened
    have asterisk : kind = .crc := crc
    rw [if_pos asterisk, List.foldl_append]
    rfl
  case h_2 marker =>
    simp only [marker] at opened
    split at opened
    · exact nomatch outside.symm.trans opened
    · split at opened <;> exact nomatch outside.symm.trans opened

theorem lull_push {t : Tokenizer} (free : t.InCrc → core.assembly = none) (byte : UInt8) :
    core.Lull (t.push byte).2 ∧
      ((t.push byte).1.InCrc → ((t.push byte).2.foldl Core.apply core).assembly = none) := by
  rcases t with ⟨_ | ⟨kind, digits, value⟩, half⟩
  · exact lull_scan rfl core byte
  · have mid (asterisk : kind = .crc) : core.assembly = none := free ⟨_, rfl, asterisk⟩
    cases digit : Hex.digit? byte with
    | some d =>
      simp only [push, digit]
      split
      · refine ⟨⟨?_, trivial⟩, ?_⟩
        · rintro ⟨crc, said⟩
          refine mid ?_
          cases kind with
          | crc => rfl
          | _ => cases said
        · rintro ⟨token, opened, -⟩
          cases opened
      · refine ⟨trivial, ?_⟩
        rintro ⟨token, opened, crc⟩
        obtain rfl := Option.some.inj opened
        exact mid crc
    | none =>
      simp only [push, digit]
      obtain ⟨scanned, begun⟩ := lull_scan (t := { half }) rfl ((kind.cut digits value byte).foldl Core.apply core) byte
      rw [List.foldl_append]
      refine ⟨Core.lull_append.mpr ⟨?_, scanned⟩, begun⟩
      cases kind with
      | crc =>
        cases digits with
        | zero => trivial
        | succ => exact ⟨fun _ => mid rfl, trivial⟩
      | _ => exact Core.lull_of_no_crc (by simp [TokenKind.cut])

theorem lull_feed {t : Tokenizer} (free : t.InCrc → core.assembly = none) (bytes : List UInt8) :
    core.Lull (t.feed bytes).2 ∧
      ((t.feed bytes).1.InCrc → ((t.feed bytes).2.foldl Core.apply core).assembly = none) := by
  induction bytes generalizing t core with
  | nil => exact ⟨trivial, free⟩
  | cons byte bytes ih =>
    obtain ⟨first, free⟩ := lull_push free byte
    obtain ⟨later, free⟩ := ih free
    exact ⟨Core.lull_append.mpr ⟨first, later⟩, by rwa [feed, List.foldl_append]⟩

theorem payloadCount_scan (t : Tokenizer) (byte : UInt8) :
    2 * payloadCount (t.scan byte).2 + (t.scan byte).1.half.isSome.toNat ≤ 1 + t.half.isSome.toNat := by
  have dangling := payloadCount_of_quiet t.quiet_dangling
  unfold scan
  split
  case h_1 kind _ =>
    have ended : payloadCount (if kind = .crc then [.transferEnd] else []) = 0 := by split <;> rfl
    simp [payloadCount_append, dangling, ended]
  case h_2 =>
    split
    case isTrue => simp [dangling]
    case isFalse =>
      split
      case h_1 high => simp [payloadCount, high]
      case h_2 none => simp [payloadCount, none]
      case h_3 => simp [payloadCount]

theorem payloadCount_push (t : Tokenizer) (byte : UInt8) :
    2 * payloadCount (t.push byte).2 + (t.push byte).1.half.isSome.toNat ≤ 1 + t.half.isSome.toNat := by
  rcases t with ⟨_ | ⟨kind, digits, value⟩, half⟩
  · exact payloadCount_scan _ byte
  · cases digit : Hex.digit? byte with
    | some d =>
      simp only [push, digit]
      split
      · cases kind <;> simp [payloadCount, TokenKind.meaning]
      · simp [payloadCount]
    | none =>
      have scanned := payloadCount_scan { half } byte
      have cut : payloadCount (kind.cut digits value byte) = 0 := by cases kind <;> cases digits <;> rfl
      simpa only [push, digit, payloadCount_append, cut, Nat.zero_add] using scanned

theorem payloadCount_feed (t : Tokenizer) (bytes : List UInt8) :
    2 * payloadCount (t.feed bytes).2 ≤ bytes.length + t.half.isSome.toNat := by
  induction bytes generalizing t with
  | nil => exact Nat.zero_le _
  | cons byte bytes ih =>
    have first := t.payloadCount_push byte
    have later := ih (t.push byte).1
    rw [feed, payloadCount_append, List.length_cons]
    omega

theorem payloadCount_after {t : Tokenizer} {burst : List UInt8} (short : burst.length ≤ Client.burstSize)
    {before after : List StreamEvent} {event : StreamEvent} (split : (t.feed burst).2 = before ++ event :: after) :
    payloadCount after < sectorSize := by
  have payloads := t.payloadCount_feed burst
  have digits : t.half.isSome.toNat ≤ 1 := Bool.toNat_le _
  rw [split, ← List.singleton_append, payloadCount_append, payloadCount_append] at payloads
  have size : Client.burstSize = 256 := rfl
  have whole : sectorSize = 256 := rfl
  omega

end Tokenizer

namespace Core

/-- The other line holds the same sectors of the same track, or it was given up. -/
def Stays (line next : TrackLine) : Prop :=
  next.track = none ∨ (next.track = line.track ∧ next.valid = line.valid ∧ next.sectors = line.sectors)

theorem Stays.trans {a b c : TrackLine} (first : Stays a b) (second : Stays b c) : Stays a c := by
  rcases second with gone | ⟨track, valid, sectors⟩
  · exact .inl gone
  · rcases first with gone | ⟨track', valid', sectors'⟩
    · exact .inl (track.trans gone)
    · exact .inr ⟨track.trans track', valid.trans valid', sectors.trans sectors'⟩

theorem stays_trackCrc (core : Core) (crc : UInt32) : Stays core.line (core.trackCrc crc).line := by
  refine .inr ?_
  rw [line_trackCrc]
  split <;> exact ⟨rfl, rfl, rfl⟩

def received (core : Core) : ℕ := core.assembly.elim 0 (·.bytes.size)

/-- As long as less than a sector has been received, an event commits none. -/
theorem stays_apply (core : Core) (event : StreamEvent) (few : core.received + payloadCount [event] < sectorSize) :
    Stays core.line (core.apply event).line ∧ (core.apply event).received ≤ core.received + payloadCount [event] := by
  have same : Stays core.line core.line := .inr ⟨rfl, rfl, rfl⟩
  cases event with
  | sectorStart track sector => exact ⟨same, Nat.zero_le _⟩
  | payload byte =>
    rw [apply, payload]
    cases begun : core.assembly with
    | none => exact ⟨same, Nat.le_add_right _ _⟩
    | some a =>
      have size : core.received = a.bytes.size := by rw [received, begun]; rfl
      have room : a.bytes.size < sectorSize := by omega
      simp only [room, if_true]
      refine ⟨same, ?_⟩
      rw [size]
      exact (Array.size_push byte).le
  | sectorEnd checksum =>
    rw [apply, sectorEnd]
    cases begun : core.assembly with
    | none => exact ⟨same, Nat.le_add_right _ _⟩
    | some a =>
      have size : core.received = a.bytes.size := by rw [received, begun]; rfl
      have short : a.bytes.size ≠ sectorSize := by omega
      simp only [short, dif_neg, not_false_eq_true, ite_self]
      exact ⟨same, Nat.zero_le _⟩
  | transferEnd => exact ⟨same, Nat.zero_le _⟩
  | trackCrc crc => exact ⟨core.stays_trackCrc crc, Nat.le_add_right _ _⟩
  | volume volume =>
    rw [apply, announce]
    split
    · exact ⟨same, Nat.le_add_right _ _⟩
    · exact ⟨.inl rfl, Nat.zero_le _⟩
  | error cause => exact ⟨same, Nat.le_add_right _ _⟩

theorem stays_foldl {core : Core} {events : List StreamEvent} (few : core.received + payloadCount events < sectorSize) :
    Stays core.line (events.foldl apply core).line := by
  induction events generalizing core with
  | nil => exact .inr ⟨rfl, rfl, rfl⟩
  | cons event rest ih =>
    have count := payloadCount_append [event] rest
    rw [List.singleton_append] at count
    obtain ⟨stays, grown⟩ := core.stays_apply event (by omega)
    exact stays.trans (ih (by omega))

theorem stays_after {core : Core} (idle : core.assembly = none) (crc : UInt32) {after : List StreamEvent}
    (few : payloadCount after < sectorSize) : Stays core.line (after.foldl apply (core.trackCrc crc)).line := by
  have none : (core.trackCrc crc).received = 0 :=
    congrArg (fun assembly : Option Assembly => assembly.elim 0 (·.bytes.size)) idle
  exact (core.stays_trackCrc crc).trans (stays_foldl (by rwa [none, Nat.zero_add]))

theorem validatedTrack_of_other (core : Core) {event : StreamEvent} (other : ∀ crc, event ≠ .trackCrc crc) :
    validatedTrack (core.entryOf? event).toList = none := by
  cases event with
  | sectorStart track sector =>
    rw [entryOf?]
    split <;> rfl
  | payload byte =>
    rw [entryOf?]
    split
    · rfl
    · split <;> rfl
  | sectorEnd checksum =>
    rw [entryOf?]
    split
    · rfl
    · dsimp only
      split <;> (try split) <;> (try split) <;> rfl
  | transferEnd => rfl
  | trackCrc crc => exact absurd rfl (other crc)
  | volume volume => rfl
  | error cause => rfl

/-- A track is reported because of a CRC that is the one of the line. -/
theorem exists_crc {core : Core} {events : List StreamEvent} (found : (validatedTrack (core.entries events)).isSome) :
    ∃ before crc after, events = before ++ .trackCrc crc :: after ∧
      (before.foldl apply core).line.isComplete = true ∧ (before.foldl apply core).line.crc = crc := by
  induction events generalizing core with
  | nil => cases found
  | cons event rest ih =>
    by_cases later : (validatedTrack ((core.apply event).entries rest)).isSome
    · obtain ⟨before, crc, after, split, complete, right⟩ := ih later
      exact ⟨event :: before, crc, after, by rw [split, List.cons_append], complete, right⟩
    · rw [entries, validatedTrack_append, Option.not_isSome_iff_eq_none.mp later, Option.none_or] at found
      by_cases asterisk : ∃ crc, event = .trackCrc crc
      · obtain ⟨crc, rfl⟩ := asterisk
        refine ⟨[], crc, rest, rfl, ?_⟩
        by_cases complete : core.line.isComplete = true
        · by_cases right : core.line.crc = crc
          · exact ⟨complete, right⟩
          · simp [complete, right, validatedTrack, entryOf?, Entry.track?] at found
        · simp [complete, validatedTrack, entryOf?] at found
      · rw [validatedTrack_of_other core (not_exists.mp asterisk)] at found
        cases found

/-- While the digits of a CRC come, no sector is in reception. -/
def Clear (core : Core) : Prop := core.tokenizer.InCrc → core.assembly = none

/-- A CRC that is right is heard while no sector is in reception, and what comes after it in the burst is less than
a sector. -/
theorem confirmed {core : Core} {burst : List UInt8} (short : burst.length ≤ Client.burstSize) (clear : core.Clear)
    (found : (validatedTrack (core.entries (core.tokenizer.feed burst).2)).isSome) {track : UInt8}
    (kept : (core.take burst).line.track = some track) :
    (core.take burst).line.isComplete = true ∧ ∃ before after,
      (core.tokenizer.feed burst).2 = before ++ .trackCrc (core.take burst).line.crc :: after ∧
        (before.foldl apply core).line.track = some track := by
  obtain ⟨before, crc, after, split, complete, right⟩ := exists_crc found
  have taken : (core.take burst).line = (after.foldl apply ((before.foldl apply core).trackCrc crc)).line := by
    have line := congrArg Core.line (core.bare_take burst)
    rwa [split, List.foldl_append, List.foldl_cons] at line
  have idle : (before.foldl apply core).assembly = none := by
    obtain ⟨lull, -⟩ := Tokenizer.lull_feed clear burst
    rw [split] at lull
    exact (lull_append.mp lull).2.1 ⟨crc, rfl⟩
  have stays := stays_after idle crc (Tokenizer.payloadCount_after short split)
  rw [← taken] at stays
  obtain gone | ⟨same, valid, sectors⟩ := stays
  · exact nomatch gone.symm.trans kept
  · have data : (core.take burst).line.crc = crc := by
      rw [← right, TrackLine.crc_eq, TrackLine.crc_eq, TrackLine.data, TrackLine.data, sectors]
    refine ⟨?_, before, after, by rw [data, split], same.symm.trans kept⟩
    rwa [TrackLine.isComplete, valid]

theorem Clear.of_dropped {core : Core} (dropped : core.assembly = none) : core.Clear := fun _ => dropped

theorem Clear.wake {core : Core} (h : core.Clear) : core.wake.Clear := by
  rwa [Clear, wake_tokenizer, wake_assembly]

theorem Clear.wait {core : Core} (h : core.Clear) : core.wait.Clear := by
  unfold Core.wait
  split
  · split
    · exact .of_dropped rfl
    · exact h
  · exact h

theorem Clear.disconnect {core : Core} (h : core.Clear) : core.disconnect.Clear := by
  unfold Core.disconnect
  split
  · exact h
  · exact .of_dropped rfl

theorem Clear.request {core : Core} (h : core.Clear) (track volume : UInt8) (fits : Bool) :
    (core.request track volume fits).Clear := by
  unfold Core.request
  split
  · exact h
  · split
    · exact .of_dropped rfl
    · exact h

theorem Clear.take {core : Core} (h : core.Clear) (before : core.inserted = false) (burst : List UInt8) :
    (core.take burst).Clear := by
  intro crc
  rw [tokenizer_take before] at crc
  split at crc
  · obtain ⟨token, opened, -⟩ := crc
    cases opened
  · have assembly := congrArg Core.assembly (core.bare_take burst)
    exact assembly.trans ((Tokenizer.lull_feed h burst).2 crc)

theorem track_take (core : Core) (burst : List UInt8) :
    (core.take burst).line.track = core.line.track ∨ (core.take burst).line.track = none := by
  refine List.foldlRecOn _ apply
    (motive := fun next : Core => next.line.track = core.line.track ∨ next.line.track = none) (.inl rfl) ?_
  intro next kept event _
  rcases next.line_apply event with ⟨crc, rfl⟩ | ⟨-, same | flushed | ⟨sector, bytes, committed⟩⟩
  · rwa [apply, ← TrackLine.track_tag, tag_trackCrc]
  · rwa [same]
  · exact .inr (congrArg TrackLine.track flushed)
  · rwa [committed]

end Core

namespace Client
variable {τ : Type} [Transport τ]

theorem clear_service {client : Client} {line : TrackLine} {volume : UInt8} (h : (client.core line volume).Clear)
    (transport : τ) : (client.service transport line volume).1.core.Clear := by
  by_cases online : Transport.connected transport = true
  · by_cases nothing : (Transport.read transport burstSize).1 = []
    · rw [core_service_nil client transport line volume online nothing]
      exact h.wake.wait
    · rw [core_service_cons client transport line volume online nothing]
      exact h.wake.take (Core.wake_inserted _) _
  · rw [core_service_offline client transport line volume (by simpa using online)]
    exact h.disconnect

theorem track_service (client : Client) (transport : τ) (line : TrackLine) (volume : UInt8) :
    (client.service transport line volume).1.line.track = line.track ∨
      (client.service transport line volume).1.line.track = none := by
  have woken : (client.core line volume).wake.line.track = line.track :=
    congrArg TrackLine.track (client.core line volume).wake_line
  by_cases online : Transport.connected transport = true
  · by_cases nothing : (Transport.read transport burstSize).1 = []
    · have waited := congrArg Core.line (core_service_nil client transport line volume online nothing)
      rw [Core.wait_line] at waited
      exact .inl ((congrArg TrackLine.track waited).trans woken)
    · have taken := congrArg Core.line (core_service_cons client transport line volume online nothing)
      rcases Core.track_take (client.core line volume).wake (Transport.read transport burstSize).1 with same | gone
      · exact .inl ((congrArg TrackLine.track taken).trans (same.trans woken))
      · exact .inr ((congrArg TrackLine.track taken).trans gone)
  · have left := congrArg Core.line
      (core_service_offline client transport line volume (by simpa using online))
    unfold Core.disconnect at left
    split at left
    · exact .inl (congrArg TrackLine.track left)
    · exact .inr (congrArg TrackLine.track left)

/-- In the pass the CRC comes for the track while the line holds it. -/
def Hears (client : Client) (transport : τ) (line : TrackLine) (volume track : UInt8) (crc : UInt32) : Prop :=
  Transport.connected transport = true ∧ ∃ before after,
    (client.tokenizer.feed (Transport.read transport burstSize).1).2 = before ++ .trackCrc crc :: after ∧
      (before.foldl Desk.apply (client.woken line volume)).line.track = some track

theorem validatedTrack_wait (desk : Desk) : desk.wait.outcome.validatedTrack = desk.outcome.validatedTrack := by
  unfold Desk.wait
  dsimp only
  split
  · split
    · exact (Desk.enters_setState _ .inserted).outcome
    · rfl
  · rfl

theorem validatedTrack_disconnect (desk : Desk) :
    desk.disconnect.outcome.validatedTrack = desk.outcome.validatedTrack := by
  unfold Desk.disconnect
  split
  · rfl
  · exact (Desk.enters_setState _ .disconnected).outcome

theorem online_of_reported {client : Client} {transport : τ} {line : TrackLine} {volume : UInt8}
    (reported : (client.service transport line volume).1.outcome.validatedTrack.isSome) :
    Transport.connected transport = true ∧ (Transport.read transport burstSize).1 ≠ [] := by
  unfold service at reported
  split at reported
  case isTrue =>
    have report := validatedTrack_disconnect (client.desk line volume)
    exact absurd reported (by rw [Option.not_isSome_iff_eq_none]; exact report)
  case isFalse online =>
    refine ⟨by simpa using online, ?_⟩
    intro nothing
    rcases found : Transport.read transport burstSize with ⟨burst, rest⟩
    rw [found] at nothing reported
    cases nothing
    have report := validatedTrack_wait (client.woken line volume)
    rw [(client.enters_woken line volume).2] at report
    exact absurd reported (by rw [Option.not_isSome_iff_eq_none]; exact report)

/-- After a pass that reports a track, a line that still holds one is complete, and its CRC came for it. -/
theorem confirmed {client : Client} {transport : τ} {line : TrackLine} {volume track : UInt8}
    (within : (Transport.read transport burstSize).1.length ≤ burstSize) (clear : (client.core line volume).Clear)
    (reported : (client.service transport line volume).1.outcome.validatedTrack.isSome)
    (kept : (client.service transport line volume).1.line.track = some track) :
    (client.service transport line volume).1.line.isComplete = true ∧
      client.Hears transport line volume track (client.service transport line volume).1.line.crc := by
  obtain ⟨online, something⟩ := online_of_reported reported
  have line_eq := congrArg Core.line (client.core_service_cons transport line volume online something)
  change (client.service transport line volume).1.line = _ at line_eq
  rw [(client.enters_service transport line volume online something).2] at reported
  rw [line_eq] at kept ⊢
  have found : (validatedTrack ((client.core line volume).wake.entries
      ((client.core line volume).wake.tokenizer.feed (Transport.read transport burstSize).1).2)).isSome := by
    rwa [Core.wake_tokenizer]
  obtain ⟨complete, before, after, heard, held⟩ := Core.confirmed within clear.wake found kept
  rw [Core.wake_tokenizer] at heard
  refine ⟨complete, online, before, after, heard, ?_⟩
  have said := congrArg Core.line (Desk.core_foldl before (client.woken line volume))
  rw [core_woken] at said
  exact (congrArg TrackLine.track said).trans held

end Client
end Floppy.Fetch
