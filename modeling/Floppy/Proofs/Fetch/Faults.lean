import Floppy.Proofs.Fetch.Counters
import Floppy.System.Basic

/-!
# What a fault costs

An event that is at fault is counted once. It costs the sector that it ends, if it ends one, and nothing else: what the
line of the drive holds stays, and a sector that goes on after a fault is taken over in the end. The line of the other
drive is not within the reach of a client.
-/
namespace Floppy.Fetch

/-- What faults are counted as. -/
inductive Fault where
  | checksum
  | framing
  | timeout
  | crc
deriving DecidableEq, Repr

def FetchError.fault : FetchError → Fault
  | sectorChecksum .. => .checksum
  | trackCrc .. => .crc
  | timeout _ => .timeout
  | _ => .framing

namespace FetchStats

/-- The four counts of faults. -/
def faults (stats : FetchStats) : Fault → ℕ
  | .checksum => stats.checksumFailures
  | .framing => stats.framingErrors
  | .timeout => stats.timeouts
  | .crc => stats.crcMismatches

theorem faults_count (stats : FetchStats) (error : FetchError) :
    (Desk.count stats error).faults = Function.update stats.faults error.fault (stats.faults error.fault + 1) := by
  funext fault
  cases error <;> cases fault <;> rfl

end FetchStats

namespace StreamEvent

def endsSector : StreamEvent → Bool
  | sectorEnd _ => true
  | _ => false

def isInner : StreamEvent → Bool
  | payload _ | trackCrc _ | error _ => true
  | _ => false

def payload? : StreamEvent → Option UInt8
  | payload byte => some byte
  | _ => none

def crc? : StreamEvent → Option UInt32
  | trackCrc crc => some crc
  | _ => none

end StreamEvent

namespace Core
variable {core : Core}

/-- A fault drops the sector that it ends, and of a track it leaves the CRC that was heard. -/
theorem apply_of_fault {event : StreamEvent} {error : FetchError} (faulty : core.entryOf? event = some (.fault error)) :
    core.apply event = { core with
      line := { core.line with lastCrc := event.crc?.or core.line.lastCrc }
      assembly := if event.endsSector then none else core.assembly } := by
  rcases core with ⟨state, tokenizer, assembly, retries, retryLimit, wholeTrack, line, volume, inserted⟩
  cases event with
  | sectorStart track sector =>
    rw [entryOf?] at faulty
    split at faulty <;> cases faulty
  | payload byte =>
    cases assembly with
    | none => rfl
    | some a =>
      have full : ¬ a.bytes.size < sectorSize := fun room => by simp [entryOf?, room] at faulty
      exact if_neg full
  | sectorEnd checksum =>
    cases assembly with
    | none => rfl
    | some a =>
      rw [entryOf?] at faulty
      dsimp only at faulty
      rw [apply, sectorEnd]
      dsimp only
      split
      case isTrue => rfl
      case isFalse kept =>
        split
        case isTrue size =>
          have wrong : Gcr.checksum a.bytes.toList ≠ checksum := fun right => by simp [kept, size, right] at faulty
          exact if_neg wrong
        case isFalse => rfl
  | transferEnd => cases faulty
  | trackCrc crc =>
    rw [entryOf?] at faulty
    have apart : ¬ (line.isComplete = true ∧ line.crc = crc) := fun right => by simp [right] at faulty
    unfold apply trackCrc
    dsimp only
    rw [if_neg (by exact apart)]
    rfl
  | volume volume => cases faulty
  | error cause => rfl

/-- What comes between the beginning of a sector and its end is kept as far as there is room, whatever faults there are
in between. -/
theorem foldl_inner {a : Assembly} (here : core.assembly = some a) (fits : a.bytes.size ≤ sectorSize)
    {events : List StreamEvent} (inner : ∀ event ∈ events, event.isInner = true) :
    ∃ bytes : Array UInt8, (events.foldl apply core).assembly = some { a with bytes } ∧
      bytes.toList = (a.bytes.toList ++ events.filterMap StreamEvent.payload?).take sectorSize := by
  induction events generalizing core a with
  | nil => exact ⟨a.bytes, here, by simp [fits]⟩
  | cons event events ih =>
    have later : ∀ event ∈ events, event.isInner = true := fun event mem => inner event (List.mem_cons_of_mem _ mem)
    rw [List.foldl_cons]
    cases event with
    | payload byte =>
      by_cases room : a.bytes.size < sectorSize
      · have pushed : (core.apply (.payload byte)).assembly = some { a with bytes := a.bytes.push byte } := by
          rw [apply, payload, here]
          exact congrArg assembly (if_pos room)
        obtain ⟨bytes, kept, held⟩ := ih pushed (by simpa using room) later
        exact ⟨bytes, kept, by simpa [StreamEvent.payload?] using held⟩
      · have full : a.bytes.toList.length = sectorSize := by
          rw [Array.length_toList]
          omega
        have refused : (core.apply (.payload byte)).assembly = some a := by
          rw [apply, payload, here]
          exact (congrArg assembly (if_neg room)).trans here
        obtain ⟨bytes, kept, held⟩ := ih refused fits later
        refine ⟨bytes, kept, held.trans ?_⟩
        rw [List.take_left' full, List.take_left' full]
    | trackCrc crc => exact ih here fits later
    | error cause => exact ih here fits later
    | _ => exact absurd (inner _ List.mem_cons_self) Bool.false_ne_true

theorem sectorEnd_of_right {a : Assembly} (here : core.assembly = some a) (kept : a.discard = false)
    (size : a.bytes.size = sectorSize) :
    core.apply (.sectorEnd (Gcr.checksum a.bytes.toList)) =
      { core with assembly := none, line := core.line.commit a.sector ⟨a.bytes, size⟩ } := by
  rw [apply, sectorEnd, here]
  simp [kept, size]

end Core

namespace Desk
variable {desk : Desk}

/-- With its own checksum the sector is taken over, and counted. -/
structure TakesOver (desk : Desk) (sector : UInt8) (content : Sector) : Prop where
  core : (desk.apply (.sectorEnd (Gcr.checksum content.toList))).core =
    { desk.core with assembly := none, line := desk.line.commit sector content }
  stats : (desk.apply (.sectorEnd (Gcr.checksum content.toList))).client.stats =
    { desk.client.stats with sectorsCommitted := desk.client.stats.sectorsCommitted + 1 }

theorem takesOver {a : Assembly} (here : desk.client.assembly = some a) (kept : a.discard = false)
    (size : a.bytes.size = sectorSize) : desk.TakesOver a.sector ⟨a.bytes, size⟩ := by
  have entered : desk.core.entryOf? (.sectorEnd (Gcr.checksum a.bytes.toList)) = some .committed := by
    have held : desk.core.assembly = some a := here
    simp [Core.entryOf?, held, kept, size]
  have stats := (desk.enters_apply (.sectorEnd (Gcr.checksum a.bytes.toList))).stats
  rw [entered] at stats
  exact ⟨(desk.core_apply _).trans (Core.sectorEnd_of_right here kept size), stats⟩

def faults (desk : Desk) : Fault → ℕ := desk.client.stats.faults

theorem faults_apply (desk : Desk) (event : StreamEvent) :
    ((∀ error, desk.core.entryOf? event ≠ some (.fault error)) ∧ (desk.apply event).faults = desk.faults) ∨
      ∃ error, desk.core.entryOf? event = some (.fault error) ∧
        (desk.apply event).faults = Function.update desk.faults error.fault (desk.faults error.fault + 1) := by
  have stats := (desk.enters_apply event).stats
  rw [faults, stats]
  cases entered : desk.core.entryOf? event with
  | none => exact .inl ⟨nofun, rfl⟩
  | some entry =>
    cases entry with
    | fault error => exact .inr ⟨error, rfl, FetchStats.faults_count ..⟩
    | _ => exact .inl ⟨nofun, funext fun fault => by cases fault <;> rfl⟩

/-- An event is no fault and counts as none, or it is one and counts as what it is. Then nothing is lost but the sector
that it ends, if it ends one; any other sector is taken over if its checksum comes next. So a sector that is received
through all sorts of faults is taken over with the first bytes that came for it. The line of the internal drive stays as
it is in every pass. -/
theorem faults_contained {ρ τ δ : Type} [Transport τ] (desk : Desk) :
    (∀ event, let next := desk.apply event
      ((∀ error, desk.core.entryOf? event ≠ some (.fault error)) ∧ next.faults = desk.faults) ∨
        ∃ error, desk.core.entryOf? event = some (.fault error) ∧
          next.faults = Function.update desk.faults error.fault (desk.faults error.fault + 1) ∧
          next.core = { desk.core with
            line := { desk.line with lastCrc := event.crc?.or desk.line.lastCrc }
            assembly := if event.endsSector then none else desk.client.assembly } ∧
          ∀ a, desk.client.assembly = some a → event.endsSector = false → a.discard = false →
            ∀ size : a.bytes.size = sectorSize, next.TakesOver a.sector ⟨a.bytes, size⟩) ∧
      (∀ (track sector : UInt8) (events : List StreamEvent), desk.line.track = some track →
        (∀ event ∈ events, event.isInner = true) →
        let payload := events.filterMap StreamEvent.payload?
        sectorSize ≤ payload.length →
          ∃ content : Sector, content.toList = payload.take sectorSize ∧
            (events.foldl apply (desk.sectorStart track sector)).TakesOver sector content) ∧
      ∀ system : DiskSystem ρ τ δ, system.fetchPass.2.context.cache.internal = system.cache.internal := by
  refine ⟨?_, ?_, fun _ => rfl⟩
  · intro event next
    rcases desk.faults_apply event with none | ⟨error, faulty, counted⟩
    · exact .inl none
    · have core := (desk.core_apply event).trans (Core.apply_of_fault faulty)
      refine .inr ⟨error, faulty, counted, core, fun a here goesOn kept size => takesOver ?_ kept size⟩
      have assembly := congrArg Core.assembly core
      rw [goesOn] at assembly
      exact assembly.trans here
  · intro track sector events there inner payload long
    have begun : (desk.sectorStart track sector).core.assembly = some { track, sector, discard := false } := by
      have here : desk.core.line.track = some track := there
      rw [core_sectorStart]
      simp [Core.sectorStart, here]
    obtain ⟨bytes, kept, held⟩ := Core.foldl_inner begun (Nat.zero_le _) inner
    have size : bytes.size = sectorSize := by
      rw [← Array.length_toList, held]
      simpa using long
    rw [← core_foldl] at kept
    exact ⟨⟨bytes, size⟩, held, takesOver kept rfl size⟩

end Desk
end Floppy.Fetch
