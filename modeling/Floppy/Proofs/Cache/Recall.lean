import Floppy.Proofs.Cache

/-!
# What a cache recalls

Lines are turned to tracks, sectors committed and lines flushed in any order. What can be read for a drive was committed
after its line was last turned, and of several commits of one sector it is the latest. Old bytes stay in a line when it
is turned, but they never come back, and what is done for one drive is nothing to the other.
-/
namespace Floppy

/-- A change to the cache. -/
inductive CacheCall where
  | retag (slot : DriveSlot) (track volume : UInt8)
  | commit (slot : DriveSlot) (sector : UInt8) (bytes : Sector)
  | flush (slot : DriveSlot)
  | validate (slot : DriveSlot) (crc : UInt32)
  | setLastCrc (slot : DriveSlot) (crc : UInt32)

namespace CacheCall

def slot : CacheCall → DriveSlot
  | retag slot .. | commit slot .. | flush slot | validate slot _ | setLastCrc slot _ => slot

/-- What becomes of the line of the drive. -/
def onLine (line : TrackLine) : CacheCall → TrackLine
  | retag _ track volume => line.retag track volume
  | commit _ sector bytes => line.commit sector bytes
  | flush _ => line.flush
  | validate _ crc => line.validate crc
  | setLastCrc _ crc => line.setLastCrc crc

/-- The line is turned to another track or volume, or away from any. -/
def Turns (line : TrackLine) : CacheCall → Prop
  | retag _ track volume => line.retags track volume = true
  | flush _ => True
  | _ => False

/-- What is committed for a sector. Only the low four bits of its number count. -/
def committed? (sector : UInt8) : CacheCall → Option Sector
  | commit _ number bytes => if number &&& 0x0F = sector &&& 0x0F then some bytes else none
  | _ => none

variable {call : CacheCall} {line : TrackLine}

theorem isTagged_of_not_turns {slot : DriveSlot} {track volume : UInt8}
    (rests : ¬ (retag slot track volume).Turns line) : line.isTagged track volume = true := by
  simpa [Turns, TrackLine.retags] using rests

theorem tag_onLine (rests : ¬ call.Turns line) : (call.onLine line).tag = line.tag := by
  cases call with
  | retag slot track volume => exact congrArg TrackLine.tag (TrackLine.retag_of_tagged (isTagged_of_not_turns rests))
  | flush => exact absurd trivial rests
  | _ => rfl

/-- A line that stays where it is takes a sector over, or it gives out what it gave before. -/
theorem sector?_onLine (rests : ¬ call.Turns line) {track volume : UInt8} (tag : line.tag = (some track, volume))
    (sector : UInt8) :
    (call.onLine line).sector? track volume sector =
      (call.committed? sector).or (line.sector? track volume sector) := by
  cases call with
  | retag slot track' volume' =>
    rw [onLine, TrackLine.retag_of_tagged (isTagged_of_not_turns rests)]
    rfl
  | commit slot number bytes =>
    rw [onLine, TrackLine.sector?_commit, if_pos ((line.isTagged_iff track volume).mpr tag), committed?]
    by_cases same : sectorIndex sector = sectorIndex number
    · rw [if_pos same, if_pos ((sectorIndex_eq_iff ..).mp same).symm, Option.some_or]
    · have apart : number &&& 0x0F ≠ sector &&& 0x0F := fun low => same ((sectorIndex_eq_iff ..).mpr low.symm)
      rw [if_neg same, if_neg apart, Option.none_or]
  | flush => exact absurd trivial rests
  | _ => rfl

end CacheCall

namespace TrackCache

def call (cache : TrackCache) : CacheCall → TrackCache
  | .retag slot track volume => cache.retag slot track volume
  | .commit slot sector bytes => cache.commit slot sector bytes
  | .flush slot => cache.flush slot
  | .validate slot crc => cache.validate slot crc
  | .setLastCrc slot crc => cache.setLastCrc slot crc

def run (cache : TrackCache) (calls : List CacheCall) : TrackCache := calls.foldl call cache

def Rests (slot : DriveSlot) : TrackCache → List CacheCall → Prop
  | _, [] => True
  | cache, call :: calls => (call.slot = slot → ¬ call.Turns (cache.get slot)) ∧ Rests slot (cache.call call) calls

/-- What is committed for a sector of a drive, oldest first. -/
def commits (slot : DriveSlot) (sector : UInt8) (calls : List CacheCall) : List Sector :=
  calls.filterMap fun call => if call.slot = slot then call.committed? sector else none

variable {cache : TrackCache} {slot : DriveSlot} {call : CacheCall} {calls : List CacheCall} {track volume : UInt8}

theorem get_call (cache : TrackCache) (call : CacheCall) :
    (cache.call call).get call.slot = call.onLine (cache.get call.slot) := by
  cases call <;> exact cache.get_set_self _ _

theorem get_call_of_ne (other : call.slot ≠ slot) : (cache.call call).get slot = cache.get slot := by
  cases call <;> exact cache.get_set_of_ne (Ne.symm other) _

theorem run_split (cache : TrackCache) (before : List CacheCall) (call : CacheCall) (after : List CacheCall) :
    cache.run (before ++ call :: after) = ((cache.run before).call call).run after := by
  rw [run, List.foldl_append, List.foldl_cons]
  rfl

theorem retags_iff (cache : TrackCache) (slot : DriveSlot) (track volume : UInt8) :
    cache.retags slot track volume = true ↔
      ((cache.retag slot track volume).get slot).tag ≠ (cache.get slot).tag := by
  rw [retag, PerDrive.modify, PerDrive.get_set_self, TrackLine.tag_retag, retags, TrackLine.retags, Bool.not_eq_true',
    ← Bool.not_eq_true, TrackLine.isTagged_iff, ne_comm]

theorem tag_call (rests : call.slot = slot → ¬ call.Turns (cache.get slot)) :
    ((cache.call call).get slot).tag = (cache.get slot).tag := by
  by_cases own : call.slot = slot
  · subst own
    rw [get_call]
    exact CacheCall.tag_onLine (rests rfl)
  · rw [get_call_of_ne own]

theorem tag_run (rests : Rests slot cache calls) : ((cache.run calls).get slot).tag = (cache.get slot).tag := by
  induction calls generalizing cache with
  | nil => rfl
  | cons call calls ih => exact (ih rests.2).trans (tag_call rests.1)

theorem sector?_call (rests : call.slot = slot → ¬ call.Turns (cache.get slot))
    (tag : (cache.get slot).tag = (some track, volume)) (sector : UInt8) :
    (cache.call call).sector? slot track volume sector =
      (commits slot sector [call]).getLast?.or (cache.sector? slot track volume sector) := by
  by_cases own : call.slot = slot
  · subst own
    have taken := CacheCall.sector?_onLine (rests rfl) tag sector
    have single : (commits call.slot sector [call]).getLast? = call.committed? sector := by
      cases found : call.committed? sector <;> simp [commits, found]
    rw [sector?, get_call, taken, single]
    rfl
  · have none : commits slot sector [call] = [] := by simp [commits, own]
    rw [sector?, get_call_of_ne own, none]
    rfl

theorem sector?_run (rests : Rests slot cache calls) (tag : (cache.get slot).tag = (some track, volume))
    (sector : UInt8) :
    (cache.run calls).sector? slot track volume sector =
      (commits slot sector calls).getLast?.or (cache.sector? slot track volume sector) := by
  induction calls generalizing cache with
  | nil => rfl
  | cons call calls ih =>
    have later := ih rests.2 ((tag_call rests.1).trans tag)
    have split : commits slot sector (call :: calls) = commits slot sector [call] ++ commits slot sector calls := by
      rw [commits, ← List.singleton_append, List.filterMap_append]
      rfl
    rw [split, List.getLast?_append, Option.or_assoc, ← sector?_call rests.1 tag sector]
    exact later

theorem exists_turn (slot : DriveSlot) (cache : TrackCache) (calls : List CacheCall) :
    Rests slot cache calls ∨ ∃ before call after, calls = before ++ call :: after ∧ call.slot = slot ∧
      call.Turns ((cache.run before).get slot) ∧ Rests slot ((cache.run before).call call) after := by
  induction calls generalizing cache with
  | nil => exact .inl trivial
  | cons call calls ih =>
    rcases ih (cache.call call) with rests | ⟨before, turn, after, split, own, turns, rests⟩
    · by_cases turned : call.slot = slot ∧ call.Turns (cache.get slot)
      · exact .inr ⟨[], call, calls, rfl, turned.1, turned.2, rests⟩
      · exact .inl ⟨fun own turns => turned ⟨own, turns⟩, rests⟩
    · exact .inr ⟨call :: before, turn, after, by rw [split]; rfl, own, turns, rests⟩

theorem sector?_turned {before after : List CacheCall} (turned : (cache.run before).retags slot track volume = true)
    (rests : Rests slot ((cache.run before).retag slot track volume) after) (sector : UInt8) :
    (cache.run (before ++ .retag slot track volume :: after)).sector? slot track volume sector =
      (commits slot sector after).getLast? := by
  have line : ((cache.run before).retag slot track volume).get slot =
      ((cache.run before).get slot).retag track volume := PerDrive.get_set_self ..
  have untagged : ((cache.run before).get slot).isTagged track volume = false := by
    simpa [retags, TrackLine.retags] using turned
  have unreadable : ((cache.run before).retag slot track volume).sector? slot track volume sector = none := by
    rw [sector?, line, TrackLine.sector?_retag_of_ne untagged]
  have tag := (congrArg TrackLine.tag line).trans (TrackLine.tag_retag ..)
  rw [run_split, call, sector?_run rests tag, unreadable, Option.or_none]

/-- Behind what can be read there is a call that turned the line to the track. -/
theorem exists_retag {sector : UInt8} {bytes : Sector}
    (readable : (empty.run calls).sector? slot track volume sector = some bytes) :
    ∃ before after, calls = before ++ .retag slot track volume :: after ∧
      (empty.run before).retags slot track volume = true ∧
      Rests slot ((empty.run before).retag slot track volume) after := by
  have tag := ((TrackLine.sector?_eq_some_iff ..).mp readable).1
  rcases exists_turn slot empty calls with rests | ⟨before, turn, after, rfl, rfl, turns, rests⟩
  · have untagged := (tag_run rests).symm.trans tag
    cases slot <;> exact absurd untagged nofun
  · rw [run_split, tag_run rests, get_call] at tag
    cases turn with
    | retag slot track' volume' =>
      have same := (TrackLine.tag_retag ..).symm.trans tag
      obtain ⟨rfl, rfl⟩ : track' = track ∧ volume' = volume := by simpa using same
      exact ⟨before, after, rfl, turns, rests⟩
    | flush slot => exact absurd tag nofun
    | _ => exact turns.elim

/-- What can be read for a drive was committed for the sector since its line was turned to the track, latest of all, and
no later call turned or flushed the line. The other drive has no part in it, and pointing a line at a track reports a
change exactly if the line gets another tag. -/
theorem recalls_latest (calls : List CacheCall) :
    let cache := empty.run calls
    (∀ slot track volume sector bytes, cache.sector? slot track volume sector = some bytes ↔
      ∃ before after, calls = before ++ .retag slot track volume :: after ∧
        (empty.run before).retags slot track volume = true ∧
        Rests slot ((empty.run before).retag slot track volume) after ∧
        (commits slot sector after).getLast? = some bytes) ∧
      (∀ call slot, call.slot ≠ slot → ∀ track volume sector,
        (cache.call call).sector? slot track volume sector = cache.sector? slot track volume sector) ∧
      ∀ slot track volume, cache.retags slot track volume = true ↔
        ((cache.retag slot track volume).get slot).tag ≠ (cache.get slot).tag := by
  intro cache
  refine ⟨fun slot track volume sector bytes => ⟨fun readable => ?_, ?_⟩,
    fun call slot other track volume sector => ?_, cache.retags_iff⟩
  · obtain ⟨before, after, rfl, turned, rests⟩ := exists_retag readable
    exact ⟨before, after, rfl, turned, rests, (sector?_turned turned rests sector).symm.trans readable⟩
  · rintro ⟨before, after, rfl, turned, rests, latest⟩
    exact (sector?_turned turned rests sector).trans latest
  · rw [sector?, get_call_of_ne other]
    rfl

end TrackCache
end Floppy
