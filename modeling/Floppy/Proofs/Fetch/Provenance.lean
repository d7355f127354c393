import Floppy.Proofs.Fetch.Mistagging

/-!
# Where the bytes of a sector come from

A sector that can be read was announced in the stream for this very track, its payload and checksum followed,
and the line has kept its tag ever since. One call can break this: a request that points the line elsewhere
beneath a sector in reception and then finds no room. `traced_iff` says that there is no other way.
-/
namespace Floppy.Fetch.Watch
variable {w : Watch}

/-- A request that uproots a sector leaves it to be read as one of the new track. -/
theorem untraced_of_uproots (h : Faithful w.history w.core) {call : Call} (uproots : w.Uproots call) :
    ∃ pipes : List Bench.Pipe, ¬ ((w.step call).run (pipes.map .service)).Traced := by
  cases call with
  | service => exact uproots.elim
  | restart => exact uproots.elim
  | request pipe request volume =>
    obtain ⟨ready, room, turned, a, here, taken⟩ := uproots
    have pending := h.pending a here taken
    have other : w.line.tag ≠ (some request.track, volume) := by
      rw [ne_eq, ← w.line.isTagged_iff]
      simp [turned]
    have refused : (w.client.request pipe w.line volume request).2.1.core =
        { w.client.core w.line volume with line := w.line.retag request.track volume } := by
      have ready' : (w.client.core w.line volume).state = .inserted := ready
      have room' : ¬ Client.neededRoom request ≤ Transport.room pipe := Nat.not_le.mpr room
      rw [Client.core_request, Core.request]
      simp [ready', room']
      rfl
    have astray :
        Astray w.history a (some request.track, volume) (w.step (.request pipe request volume)) := by
      refine ⟨(congrArg Core.state refused).trans ready, (congrArg Core.assembly refused).trans here,
        taken, ?_, [⟨none, _⟩], rfl, by simp⟩
      exact (congrArg (fun core : Core => core.line.tag) refused).trans (TrackLine.tag_retag ..)
    obtain ⟨bursts, sector, bytes, readable, silent⟩ := astray.complete pending.size_le rfl
    refine ⟨bursts.map fun burst => { received := burst }, fun traced => ?_⟩
    rw [List.map_map] at traced
    exact silent.not_announced pending other sector bytes (traced _ _ _ _ readable)

/-- Whatever is received, asked and restarted, everything that can be read was announced for its track, and
the line was left alone since: exactly as long as no request that finds no room turns the line away from
beneath a sector in reception. After such a request the rest of the sector is enough to break it. -/
theorem traced_iff (retryLimit : UInt32) (wholeTrack : Bool) (trace : Trace) (volume : UInt8) (calls : List Call) :
    (∀ before after, calls = before ++ after → ∀ pipes : List Bench.Pipe,
        ((start retryLimit wholeTrack trace volume).run (before ++ pipes.map .service)).Traced) ↔
      ∀ before call after, calls = before ++ call :: after →
        ¬ ((start retryLimit wholeTrack trace volume).run before).Uproots call := by
  have first := faithful_start retryLimit wholeTrack trace volume
  constructor
  · intro traced
    have rooted (before : List Call) (call : Call) (after : List Call)
        (split : calls = before ++ call :: after)
        (faithful : Faithful ((start retryLimit wholeTrack trace volume).run before).history
          ((start retryLimit wholeTrack trace volume).run before).core) :
        ¬ ((start retryLimit wholeTrack trace volume).run before).Uproots call := by
      intro uproots
      obtain ⟨pipes, broken⟩ := untraced_of_uproots faithful uproots
      have fine := traced (before ++ [call]) after (by simp [split]) pipes
      rw [run_append, run_append] at fine
      exact broken fine
    have faithful (before : List Call) : ∀ after, calls = before ++ after →
        Faithful ((start retryLimit wholeTrack trace volume).run before).history
          ((start retryLimit wholeTrack trace volume).run before).core := by
      induction before using List.reverseRecOn with
      | nil => exact fun _ _ => first
      | append_singleton before call ih =>
        intro after split
        have before_split : calls = before ++ call :: after := by simp [split]
        have so_far := ih (call :: after) before_split
        rw [run_append]
        exact faithful_step so_far call (rooted before call after before_split so_far)
    exact fun before call after split => rooted before call after split (faithful before _ split)
  · intro rooted before after split pipes
    rw [run_append]
    have so_far := faithful_run before first fun early call late earlier =>
      rooted early call (late ++ after) (by simp [split, earlier])
    refine (faithful_run (pipes.map .service) so_far fun early call late passes => ?_).cached
    have pass : call ∈ pipes.map Call.service := by simp [passes]
    obtain ⟨pipe, -, rfl⟩ := List.mem_map.mp pass
    exact not_false

/-- Sector 5 of track 1 begins to arrive, a request for track 2 finds no room, and the rest arrives. -/
def strayCalls : List Call :=
  [.service { received := [64, 102, 101, 10] }, .request {} ⟨1, some 0⟩ 254,
    .service { received := [42, 10] },
    .service { received := [35, 48, 49, 53, 10] }, .request { room := 0 } ⟨2, some 5⟩ 254,
    .service { received := .replicate 256 49 }, .service { received := .replicate 256 49 },
    .service { received := [61, 48, 48, 10] }]

/-- It can then be read as sector 5 of track 2, which was never announced. -/
theorem untraced_stray : ∃ bytes,
    ((start 1000 false {} 254).run strayCalls).line.sector? 2 254 5 = some bytes ∧
      ¬ Announced ((start 1000 false {} 254).run strayCalls).history 2 254 5 bytes := by
  have readable : (((start 1000 false {} 254).run strayCalls).line.sector? 2 254 5).isSome = true := by
    decide +kernel
  have silent : ((start 1000 false {} 254).run strayCalls).history.all
      (fun m => m.event != some (.sectorStart 2 5)) = true := by decide +kernel
  obtain ⟨bytes, read⟩ := Option.isSome_iff_exists.mp readable
  refine ⟨bytes, read, fun ⟨before, payload, after, split, _⟩ => ?_⟩
  rw [split, List.all_eq_true] at silent
  exact absurd (silent ⟨some (.sectorStart 2 (5 &&& 0x0F)), (some 2, 254)⟩ (by simp)) (by decide)

end Floppy.Fetch.Watch
