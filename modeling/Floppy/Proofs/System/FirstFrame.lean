import Floppy.Proofs.Controller.Arm
import Floppy.Proofs.System.FillSteps

/-!
# From an empty cache to the first frame

Every run of a loop goes through the stages in their order. Once the answer has come in full the number of
fillers is final.
-/
namespace Floppy.FillLoop
open Gcr Fetch Bench Controller
variable {δ : Type} {e : WantedSector} {loop : FillLoop δ} {fillers : ℕ}

/-- How far a loop has come. -/
inductive Stage (e : WantedSector) (loop : FillLoop δ) : Prop where
  | quiet (h : Quiet e loop)
  | fed (fillers : ℕ) (events : List StreamEvent) (h : Fed e fillers events loop)
  | done (fillers : ℕ) (h : Done e fillers loop)

theorem Done.step (h : Done e fillers loop) (move : Move) : Done e fillers (loop.step move) := by
  cases move with
  | drive shown spare => exact h.drive shown spare
  | fetch => exact h.fetch
  | answer count => exact ⟨h.asked, h.played⟩
  | deliver count => exact ⟨h.asked, h.played⟩

theorem Stage.step (h : Stage e loop) (move : Move) (patient : (loop.step move).idle ≤ e.limit.toNat) :
    Stage e (loop.step move) := by
  cases h with
  | quiet h =>
    cases move with
    | drive shown spare =>
      rcases h.drive shown spare with quiet | ⟨events, fed⟩
      · exact .quiet quiet
      · exact .fed 1 events fed
    | fetch => exact .quiet h.fetch
    | answer count => exact .quiet (h.answer count)
    | deliver count => exact .quiet (h.deliver count)
  | fed fillers events h =>
    cases move with
    | drive shown spare =>
      rcases h.drive shown spare with fed | ⟨fed, -⟩ | done
      · exact .fed _ _ fed
      · exact .fed _ _ fed
      · exact .done _ done
    | fetch =>
      obtain ⟨rest, fed, -⟩ := h.fetch patient
      exact .fed _ rest fed
    | answer count => exact .fed _ _ (h.answer count)
    | deliver count => exact .fed _ _ (h.deliver count)
  | done fillers h => exact .done fillers (h.step move)

/-- The number of fillers is final: the answer has come to its end, or the frame has. -/
def Settled (e : WantedSector) (fillers : ℕ) (loop : FillLoop δ) : Prop :=
  Fed e fillers [] loop ∨ Done e fillers loop

theorem Settled.step (h : Settled e fillers loop) (move : Move) (patient : (loop.step move).idle ≤ e.limit.toNat) :
    Settled e fillers (loop.step move) := by
  rcases h with h | h
  · cases move with
    | drive shown spare =>
      rcases h.drive shown spare with fed | ⟨-, more⟩ | done
      · exact .inl fed
      · exact absurd rfl more
      · exact .inr done
    | fetch =>
      obtain ⟨rest, fed, ended⟩ := h.fetch patient
      rw [ended rfl] at fed
      exact .inl fed
    | answer count => exact .inl (h.answer count)
    | deliver count => exact .inl (h.deliver count)
  · exact .inr (h.step move)

theorem opens_of_begun {position : Position} {frame : List UInt8} {head : Head} {written : List UInt8}
    (h : Begun position frame fillers head written) :
    Opens fillers frame written ∧ fillers ≤ written.length := by
  rcases h with waits | ⟨playback, sends⟩
  · rw [waits.written]
    exact ⟨.inl (List.prefix_append _ _), by simp⟩
  · rw [sends.written]
    exact ⟨.inl ((List.prefix_append_right_inj _).mpr (List.take_prefix _ _)), by simp⟩

theorem Settled.opens (h : Settled e fillers loop) :
    Opens fillers e.frame loop.written ∧ fillers ≤ loop.written.length := by
  rcases h with h | h
  · exact opens_of_begun h.begun
  · refine ⟨.inr h.played, ?_⟩
    have long := h.played.length_le
    rw [List.length_append, List.length_replicate] at long
    omega

theorem Stage.opens (h : Stage e loop) : ∃ fillers, Opens fillers e.frame loop.written := by
  cases h with
  | quiet h => exact ⟨0, .inl (by rw [written, h.unwritten]; exact List.nil_prefix)⟩
  | fed fillers events h => exact ⟨fillers, (opens_of_begun h.begun).1⟩
  | done fillers h => exact ⟨fillers, .inr h.played⟩

theorem Stage.asked (h : Stage e loop) (active : loop.written ≠ [] ∨ loop.wire ≠ []) :
    e.request.encode <+: loop.wire := by
  cases h with
  | quiet h =>
    rcases active with some | some
    · exact absurd (by rw [written, h.unwritten]) some
    · exact absurd h.unsent some
  | fed fillers events h => rw [h.sent]
  | done fillers h => exact h.asked

theorem Stage.settled (h : Stage e loop) (answered : loop.Answered) : ∃ fillers, Settled e fillers loop := by
  cases h with
  | quiet h => exact absurd h.unsent answered.asked
  | fed fillers events h =>
    have nothing : loop.ahead = [] := by
      have read : loop.unread = [] := List.drop_eq_nil_of_le answered.read.ge
      rw [ahead, answered.received, answered.channel, read]
      rfl
    have ended := h.ahead
    rw [nothing] at ended
    obtain ⟨-, rfl⟩ := Prod.mk.inj ended
    exact ⟨fillers, .inl h⟩
  | done fillers h => exact ⟨fillers, .inr h⟩

/-- What a fresh loop is about is settled by where the arm stands and by the hint. -/
theorem Fresh.quiet {volume : UInt8} {position : Position} (fresh : Fresh volume position loop) :
    ∃ e : WantedSector, e.position = position ∧ e.volume = volume ∧ Quiet e loop := by
  have onDisk : position.track.toNat < trackCount := fresh.track ▸ Drive.OnDisk.track_lt fresh.arm
  obtain ⟨bytes, found⟩ :=
    Option.isSome_iff_exists.mp (loop.source.image.isSome_sector? onDisk position.sector)
  refine ⟨⟨position, volume, loop.source.image, bytes, loop.system.client.wholeTrack,
    loop.system.client.retryLimit, onDisk, fresh.sector, found⟩, rfl, rfl, ?_⟩
  exact {
    online := fresh.online
    track := fresh.track
    disk := fresh.disk
    limit := rfl
    inserted := fresh.inserted
    wholeTrack := rfl
    hint := fresh.hint
    missing := fresh.uncached position.sector
    elsewhere := fresh.elsewhere
    unwritten := fresh.unwritten
    unsent := fresh.unsent
    unread := fresh.unread
    source := fresh.source
    image := rfl
    blank := fresh.blank }

theorem Opens.whole {fillers : ℕ} {frame written : List UInt8} (opens : Opens fillers frame written)
    (long : fillers + frame.length ≤ written.length) : List.replicate fillers syncByte ++ frame <+: written := by
  rcases opens with short | whole
  · rw [short.eq_of_length_le (by rwa [List.length_append, List.length_replicate])]
  · exact whole

/-- A new disk is inserted, the external drive stays selected, and no phase is energized. Then, in whatever
order the passes of the system and the moves of the source come, in whatever bursts the answer is delivered,
and whatever the register lines show: in each pass that wants a byte there is one written at least, and before
the first of them the sector under the arm is asked for, alone or with its track; what is written are fillers
up to the frame of that sector, with its bytes on the image; and from when the answer has come in full, no
filler is written before the frame any more, and as many passes that want a byte as it has bytes write it to
its end. -/
theorem first_frame {volume : UInt8} {position : Position} (fresh : Fresh volume position loop)
    (moves : List Move) (patient : loop.Patient moves) :
    ∃ bytes, loop.source.image.sector? position.track position.sector = some bytes ∧
      ((loop.run moves).written ≠ [] ∨ (loop.run moves).wire ≠ [] ∨ (∃ move ∈ moves, move.demands = true) →
        (loop.system.client.requestFor position.track position.sector).encode <+: (loop.run moves).wire) ∧
      (∃ fillers, Opens fillers (Frame.encode (Frame.address volume position.track position.sector) bytes)
        (loop.run moves).written) ∧
      ∀ before after, moves = before ++ after →
        (loop.run before).written <+: (loop.run moves).written ∧
        (loop.run before).written.length + after.countP Move.demands ≤ (loop.run moves).written.length ∧
        ((loop.run before).Answered → ∃ fillers ≤ (loop.run before).written.length,
          Opens fillers (Frame.encode (Frame.address volume position.track position.sector) bytes)
            (loop.run moves).written ∧
          (Frame.size ≤ after.countP Move.demands → List.replicate fillers syncByte ++
            Frame.encode (Frame.address volume position.track position.sector) bytes <+: (loop.run moves).written)) := by
  obtain ⟨e, rfl, rfl, quiet⟩ := fresh.quiet
  rw [Patient, quiet.limit] at patient
  have request : loop.system.client.requestFor e.position.track e.position.sector = e.request := by
    rw [Client.requestFor, quiet.wholeTrack]
    rfl
  have found := e.found
  rw [← quiet.image] at found
  have stage := run_induction (fun _ move h => Stage.step h move) (Stage.quiet quiet) moves patient
  refine ⟨e.bytes, found, ?_, stage.opens, ?_⟩
  · rw [request]
    rintro (some | some | ⟨move, mem, demands⟩)
    · exact stage.asked (.inl some)
    · exact stage.asked (.inr some)
    · have grown := (loop.written_run moves).2
      have wants : 0 < moves.countP Move.demands := List.countP_pos_iff.mpr ⟨move, mem, demands⟩
      exact stage.asked (.inl (List.length_pos_iff.mp (by omega)))
  rintro before after rfl
  obtain ⟨kept, grown⟩ := (loop.run before).written_run after
  rw [← run_append] at kept grown
  refine ⟨kept, grown, fun answered => ?_⟩
  have reached := run_induction (fun _ move h => Stage.step h move) (Stage.quiet quiet) before
    fun first short => patient first (short.trans (List.prefix_append before after))
  obtain ⟨fillers, settled⟩ := reached.settled answered
  have later : ∀ next, next <+: after → ((loop.run before).run next).idle ≤ e.limit.toNat := by
    intro next short
    rw [← run_append]
    exact patient _ ((List.prefix_append_right_inj before).mpr short)
  have ended := run_induction (fun _ move h => Settled.step h move) settled after later
  rw [← run_append] at ended
  have few := settled.opens.2
  have opens := ended.opens.1
  refine ⟨fillers, few, opens, fun enough => opens.whole ?_⟩
  rw [WantedSector.frame, frameOf, Frame.length_encode]
  omega

/-- The arm stands on track 0, and the host wants sector 5. -/
def sample : FillLoop Unit where
  system :=
    { DiskSystem.new {} {} ({ hint := some ⟨0, 5⟩ } : Levers) ({} : Pipe) () with
      client := { state := .inserted } }
  source := { image := .pattern, volume := defaultVolume }

def wanting : Show := ⟨⟨true, true, false⟩, 0, 0, 1, []⟩

/-- The answer is given and comes in three bursts. -/
def answering : List Move := .answer 5 :: .deliver 1000 :: List.replicate 3 .fetch

/-- A byte is wanted, the answer comes, and so many bytes are wanted as a frame has. -/
def exchange : List Move := [.drive wanting 0] ++ answering ++ List.replicate Frame.size (.drive wanting 58)

theorem answered_sample : (sample.run ([.drive wanting 0] ++ answering)).Answered := by
  let asking := sample.run [.drive wanting 0]
  have wire : asking.wire = Request.encode ⟨0, some 5⟩ := by decide +kernel
  have received : asking.system.transport.received = [] := by decide +kernel
  have length : asking.ahead.length = 531 := by
    change (asking.system.transport.received ++ [] ++ replies sample.source asking.wire).length = 531
    rw [received, wire, replies, ImageSource.feed_request _ rfl _ (by decide), List.flatten_singleton]
    exact sample.source.length_reply_sector 0 5
  have unread : asking.unread.length ≤ 5 := by
    change asking.wire.length ≤ 5
    rw [wire]
    decide
  have asked : asking.wire ≠ [] := by
    rw [wire]
    decide
  have online : asking.system.transport.online = true := by decide +kernel
  have read : asking.read ≤ asking.wire.length := Nat.zero_le _
  have delivered : asking.ahead.length ≤ 1000 := by omega
  have taken : asking.ahead.length ≤ 3 * Client.burstSize := by
    rw [length]
    decide
  rw [run_append]
  exact answered_of_moves online asked read unread delivered taken

theorem first_frame_sample :
    Fresh defaultVolume ⟨0, 5⟩ sample ∧ sample.Patient exchange ∧
      ∃ bytes, sample.source.image.sector? 0 5 = some bytes ∧
        [60, 48, 48, 53, 10] <+: (sample.run exchange).wire ∧
        ∃ fillers, List.replicate fillers syncByte ++ Frame.encode (Frame.address defaultVolume 0 5) bytes <+:
          (sample.run exchange).written := by
  have fresh : Fresh defaultVolume ⟨0, 5⟩ sample :=
    { online := rfl
      inserted := rfl
      disk := rfl
      arm := by decide
      track := rfl
      hint := rfl
      sector := by decide
      uncached := fun _ => rfl
      elsewhere := nofun
      unwritten := rfl
      unsent := rfl
      unread := rfl
      source := rfl
      blank := rfl }
  have patient : sample.Patient exchange := patient_of_length rfl (by decide +kernel)
  obtain ⟨bytes, found, asked, -, rest⟩ := first_frame fresh exchange patient
  obtain ⟨-, -, answered⟩ :=
    rest ([.drive wanting 0] ++ answering) (List.replicate Frame.size (.drive wanting 58)) rfl
  obtain ⟨fillers, -, -, whole⟩ := answered answered_sample
  have all : (List.replicate Frame.size (.drive wanting 58)).countP Move.demands = Frame.size := by
    rw [List.countP_replicate]
    rfl
  have wants : ∃ move ∈ exchange, move.demands = true := ⟨.drive wanting 0, List.mem_cons_self, rfl⟩
  exact ⟨fresh, patient, bytes, found, asked (.inr (.inr wants)), fillers, whole all.ge⟩

end Floppy.FillLoop
