import Mathlib.Tactic
import Floppy.Controller

/-!
# Fillers and frames

What a head sends is made of pieces: a single sync byte, or a frame from its first byte up to where it is cut
off. A frame is that of a sector which could be read when its first byte was sent, and all its bytes are sent
for the same drive with the arm on the same track. The head stands between pieces or inside the last one.
-/
namespace Floppy
open Gcr

namespace Playback
variable {size : ℕ}

theorem next?_of_lt (p : Playback size) (h : p.position < size) :
    p.next? = some (p.bytes[p.position], ⟨p.bytes, p.position + 1, h⟩) := by
  simp [next?, h]

theorem take_next (p : Playback size) (h : p.position < size) :
    p.bytes.toList.take p.position ++ [p.bytes[p.position]] = p.bytes.toList.take (p.position + 1) := by
  rw [← Vector.getElem_toList]
  exact List.take_append_getElem (by simpa using h)

end Playback

/-- A byte in the data register: the drive that the poll selects, the track and volume there, and the lines
of the cache at the time. -/
structure Deposit where
  byte : UInt8
  slot : DriveSlot
  track : UInt8
  volume : UInt8
  cache : TrackCache

/-- What a run of bytes in the data register is. -/
inductive Piece where
  | filler (deposit : Deposit)
  /-- The first bytes of the frame of a logical sector, at least one. -/
  | frame (sector : UInt8) (bytes : Sector) (first : Deposit) (rest : List Deposit)

namespace Piece

def deposits : Piece → List Deposit
  | filler d => [d]
  | frame _ _ first rest => first :: rest

def isFiller : Piece → Bool
  | filler _ => true
  | frame .. => false

def isFrame (piece : Piece) : Bool := !piece.isFiller

def isWhole (piece : Piece) : Bool := piece.isFrame && piece.deposits.length = Frame.size

@[simp] theorem isFiller_filler (d : Deposit) : (filler d).isFiller = true := rfl

@[simp] theorem isFrame_filler (d : Deposit) : (filler d).isFrame = false := rfl

@[simp] theorem isWhole_filler (d : Deposit) : (filler d).isWhole = false := rfl

@[simp] theorem isFiller_frame (sector : UInt8) (bytes : Sector) (first : Deposit) (rest : List Deposit) :
    (frame sector bytes first rest).isFiller = false := rfl

@[simp] theorem isFrame_frame (sector : UInt8) (bytes : Sector) (first : Deposit) (rest : List Deposit) :
    (frame sector bytes first rest).isFrame = true := rfl

@[simp] theorem isWhole_frame (sector : UInt8) (bytes : Sector) (first : Deposit) (rest : List Deposit) :
    (frame sector bytes first rest).isWhole = decide (rest.length + 1 = Frame.size) := rfl

/-- A filler is a sync byte. The sector of a frame was read from the cache when the first byte was written,
and the drive and the track stay until the last. -/
def Sound : Piece → Prop
  | filler d => d.byte = syncByte
  | frame sector bytes first rest =>
    first.cache.sector? first.slot first.track first.volume sector = some bytes ∧
      (first :: rest).map (·.byte) <+: Frame.encode (Frame.address first.volume first.track sector) bytes ∧
      ∀ d ∈ rest, d.slot = first.slot ∧ d.track = first.track

end Piece

/-- The bytes are whole pieces, as many of each kind as the head has counted. -/
def Unspliced (stats : HeadStats) (deposits : List Deposit) : Prop :=
  ∃ pieces : List Piece, deposits = pieces.flatMap (·.deposits) ∧ (∀ p ∈ pieces, p.Sound) ∧
    stats.headersSent = pieces.countP (·.isFrame) ∧ stats.sectorsSent = pieces.countP (·.isWhole) ∧
    stats.fillersSent = pieces.countP (·.isFiller)

/-- The head stands inside this piece: it sends the rest of the frame, for the same drive and track. -/
structure Open (head : Head) (sector : UInt8) (bytes : Sector) (first : Deposit) (rest : List Deposit)
    (frame : Playback Frame.size) : Prop where
  state : head.state = .sending frame
  content : frame.bytes.toList = Frame.encode (Frame.address first.volume first.track sector) bytes
  position : frame.position = rest.length + 1
  position_lt : frame.position < Frame.size
  slot : head.slot = some first.slot
  track : head.track = first.track

/-- The pieces that were written so far, with the head between pieces or inside the last one. -/
structure Woven (head : Head) (pieces : List Piece) : Prop where
  sound : ∀ p ∈ pieces, p.Sound
  headers : head.stats.headersSent = pieces.countP (·.isFrame)
  sectors : head.stats.sectorsSent = pieces.countP (·.isWhole)
  fillers : head.stats.fillersSent = pieces.countP (·.isFiller)
  state : head.state = .inactive ∨ ∃ before sector bytes first rest frame,
    pieces = before ++ [.frame sector bytes first rest] ∧ Open head sector bytes first rest frame

namespace Woven
variable {head : Head} {pieces : List Piece}

theorem fresh : Woven {} [] := ⟨by simp, rfl, rfl, rfl, .inl rfl⟩

theorem unspliced (h : Woven head pieces) : Unspliced head.stats (pieces.flatMap (·.deposits)) :=
  ⟨pieces, rfl, h.sound, h.headers, h.sectors, h.fillers⟩

theorem of_inactive (h : Woven head pieces) {idle : Head} (state : idle.state = .inactive)
    (headers : idle.stats.headersSent = head.stats.headersSent)
    (sectors : idle.stats.sectorsSent = head.stats.sectorsSent)
    (fillers : idle.stats.fillersSent = head.stats.fillersSent) : Woven idle pieces where
  sound := h.sound
  headers := headers.trans h.headers
  sectors := sectors.trans h.sectors
  fillers := fillers.trans h.fillers
  state := .inl state

theorem abandon (h : Woven head pieces) : Woven head.abandon pieces := by
  unfold Head.abandon
  split
  · exact h.of_inactive rfl rfl rfl rfl
  · exact h

theorem abandon_state (head : Head) : head.abandon.state = .inactive := by
  unfold Head.abandon Head.isActive
  split
  · rfl
  · simp_all

theorem reset (h : Woven head pieces) (sector : UInt8) : Woven (head.reset sector) pieces :=
  h.abandon.of_inactive (abandon_state head) rfl rfl rfl

theorem moveTo (h : Woven head pieces) (track : UInt8) : Woven (head.moveTo track) pieces := by
  unfold Head.moveTo
  split
  · exact h.abandon
  · exact h

end Woven

theorem Head.send_slot (head : Head) (frame : Playback Frame.size) :
    (head.send frame).1.slot = head.slot := by
  unfold Head.send
  split
  · rfl
  · split <;> rfl

theorem Head.start_slot (head : Head) (slot : DriveSlot) (drive : Drive) (cache : TrackCache) :
    (head.start slot drive cache).head.slot = head.slot := by
  unfold Head.start
  split
  · rfl
  · exact Head.send_slot _ _

theorem Head.send_track (head : Head) (frame : Playback Frame.size) :
    (head.send frame).1.track = head.track := by
  unfold Head.send
  split
  · rfl
  · split <;> rfl

theorem Head.start_track (head : Head) (slot : DriveSlot) (drive : Drive) (cache : TrackCache) :
    (head.start slot drive cache).head.track = head.track := by
  unfold Head.start
  split
  · rfl
  · exact Head.send_track _ _

theorem Head.send_of_lt (head : Head) (frame : Playback Frame.size) (h : frame.position + 1 < Frame.size) :
    head.send frame = ({ head with state := .sending ⟨frame.bytes, frame.position + 1, h.le⟩ },
      .byte frame.bytes[frame.position]) := by
  simp [Head.send, frame.next?_of_lt (by omega), Playback.isDone, h.ne]

theorem Head.send_of_eq (head : Head) (frame : Playback Frame.size) (h : frame.position + 1 = Frame.size) :
    head.send frame = ({ head with
      state := .inactive
      sector := (head.sector - 1) &&& 0x0F
      stats.sectorsSent := head.stats.sectorsSent + 1 }, .byte frame.bytes[frame.position]) := by
  simp [Head.send, frame.next?_of_lt (by omega), Playback.isDone, h]

namespace Gcr.Frame

theorem content_play (address : AddressField) (bytes : Sector) :
    (play address bytes).bytes.toList = encode address bytes := by
  simp [play, Playback.ofVector]

theorem more_play (address : AddressField) (bytes : Sector) : (play address bytes).position + 1 < size := by
  show 0 + 1 < 366
  decide

end Gcr.Frame

theorem Head.start_of_cached (head : Head) {slot : DriveSlot} {drive : Drive} {cache : TrackCache}
    {bytes : Sector}
    (cached : cache.sector? slot drive.track drive.volume head.sector = some bytes) :
    let frame := Frame.play (Frame.address drive.volume drive.track head.sector) bytes
    have more : frame.position + 1 < Frame.size := Frame.more_play _ _
    head.start slot drive cache = {
      head := { head with
        state := .sending ⟨frame.bytes, frame.position + 1, more.le⟩
        stats.headersSent := head.stats.headersSent + 1 }
      output := .byte frame.bytes[frame.position] } := by
  intro frame more
  simp only [Head.start, cached]
  rw [Head.send_of_lt _ _ more]

namespace Woven
variable {head : Head} {pieces before : List Piece} {sector : UInt8} {bytes : Sector} {first d : Deposit}
  {rest : List Deposit} {frame : Playback Frame.size}

theorem sound_append (h : ∀ p ∈ pieces, p.Sound) {piece : Piece} (sound : piece.Sound) :
    ∀ p ∈ pieces ++ [piece], p.Sound := by
  intro p hp
  rcases List.mem_append.mp hp with hp | hp
  · exact h p hp
  · rw [List.mem_singleton.mp hp]
    exact sound

/-- A sound beginning of a frame goes on with the next byte of the frame. -/
theorem sound_snoc (sound : (Piece.frame sector bytes first rest).Sound)
    (o : Open head sector bytes first rest frame) (lt : frame.position < Frame.size)
    (hbyte : d.byte = frame.bytes[frame.position]) (hslot : d.slot = first.slot)
    (htrack : d.track = first.track) : (Piece.frame sector bytes first (rest ++ [d])).Sound := by
  obtain ⟨cached, onset, same⟩ := sound
  let whole := Frame.encode (Frame.address first.volume first.track sector) bytes
  refine ⟨cached, ?_, ?_⟩
  · have bound : rest.length + 1 < whole.length := by
      rw [Frame.length_encode, ← o.position]
      exact lt
    have prior : (first :: rest).map (·.byte) = whole.take (rest.length + 1) := by
      simpa using List.prefix_iff_eq_take.mp onset
    have next : d.byte = whole[rest.length + 1] := by
      simp only [whole, ← o.content, ← o.position, Vector.getElem_toList, hbyte]
    rw [← List.cons_append, List.map_append, prior, List.map_singleton, next, List.take_append_getElem]
    exact List.take_prefix _ _
  · intro e he
    rcases List.mem_append.mp he with he | he
    · exact same e he
    · rw [List.mem_singleton.mp he]
      exact ⟨hslot, htrack⟩

/-- Sending a byte makes the last piece longer by one. -/
theorem send (h : Woven head (before ++ [.frame sector bytes first rest]))
    (o : Open head sector bytes first rest frame) (hbyte : d.byte = (head.send frame).2.value)
    (hslot : d.slot = first.slot) (htrack : d.track = first.track) :
    Woven (head.send frame).1 (before ++ [.frame sector bytes first (rest ++ [d])]) := by
  have lt := o.position_lt
  have headers := h.headers
  have sectors := h.sectors
  have fillers := h.fillers
  have partly : rest.length + 1 ≠ Frame.size := by
    rw [← o.position]
    exact lt.ne
  simp only [List.countP_append, List.countP_singleton, Piece.isFrame_frame, Piece.isWhole_frame,
    Piece.isFiller_frame, partly] at headers sectors fillers
  have sound (hbyte : d.byte = frame.bytes[frame.position]) :
      ∀ p ∈ before ++ [Piece.frame sector bytes first (rest ++ [d])], p.Sound :=
    sound_append (fun p hp => h.sound p (by simp [hp]))
      (sound_snoc (h.sound _ (by simp)) o lt hbyte hslot htrack)
  by_cases last : frame.position + 1 = Frame.size
  · rw [Head.send_of_eq _ _ last] at hbyte ⊢
    have whole : rest.length + 1 + 1 = Frame.size := by rw [← o.position, last]
    exact {
      sound := sound hbyte
      headers := by simpa using headers
      sectors := by simpa [whole] using sectors
      fillers := by simpa using fillers
      state := .inl rfl }
  · have more : frame.position + 1 < Frame.size := by omega
    rw [Head.send_of_lt _ _ more] at hbyte ⊢
    have short : rest.length + 1 + 1 ≠ Frame.size := by rw [← o.position]; exact last
    exact {
      sound := sound hbyte
      headers := by simpa using headers
      sectors := by simpa [short] using sectors
      fillers := by simpa using fillers
      state := .inr ⟨before, sector, bytes, first, rest ++ [d], _, rfl, {
        state := rfl
        content := o.content
        position := by simp [o.position]
        position_lt := more
        slot := o.slot
        track := o.track }⟩ }

/-- An idle head begins a frame or sends a filler. -/
theorem start (h : Woven head pieces) (idle : head.state = .inactive) {slot : DriveSlot} {drive : Drive}
    (cache : TrackCache) (hslot : head.slot = some slot) (htrack : head.track = drive.track) :
    ∃ piece : Piece, piece.deposits =
        [⟨(head.start slot drive cache).output.value, slot, drive.track, drive.volume, cache⟩] ∧
      Woven (head.start slot drive cache).head (pieces ++ [piece]) := by
  cases cached : cache.sector? slot drive.track drive.volume head.sector with
  | none =>
    refine ⟨.filler ⟨_, slot, drive.track, drive.volume, cache⟩, rfl, ?_⟩
    simp only [Head.start, cached]
    exact {
      sound := sound_append h.sound rfl
      headers := by simpa using h.headers
      sectors := by simpa using h.sectors
      fillers := by simpa using h.fillers
      state := .inl idle }
  | some bytes =>
    let frame := Frame.play (Frame.address drive.volume drive.track head.sector) bytes
    have content := Frame.content_play (Frame.address drive.volume drive.track head.sector) bytes
    have more := Frame.more_play (Frame.address drive.volume drive.track head.sector) bytes
    have lt : frame.position < Frame.size := Nat.lt_of_succ_lt more
    have onset : [frame.bytes[frame.position]] <+:
        Frame.encode (Frame.address drive.volume drive.track head.sector) bytes := by
      have nonempty : 0 < frame.bytes.toList.length := by simp
      rw [← content, List.singleton_prefix_iff_head?_eq_some, List.head?_eq_getElem?,
        List.getElem?_eq_getElem nonempty, Vector.getElem_toList]
      rfl
    refine ⟨.frame head.sector bytes ⟨_, slot, drive.track, drive.volume, cache⟩ [], rfl, ?_⟩
    rw [Head.start_of_cached head cached]
    exact {
      sound := sound_append h.sound ⟨cached, onset, by simp⟩
      headers := by simpa using h.headers
      sectors := by simpa [show 1 ≠ Frame.size by decide] using h.sectors
      fillers := by simpa using h.fillers
      state := .inr ⟨pieces, head.sector, bytes, _, [], _, rfl, {
        state := rfl
        content := content
        position := rfl
        position_lt := more
        slot := hslot
        track := htrack }⟩ }

theorem arrive (h : Woven head pieces) (idle : head.state = .inactive) (slot : DriveSlot) (track : UInt8)
    (hint : Option Position) : Woven (head.arrive slot track hint) pieces ∧
      (head.arrive slot track hint).state = .inactive ∧ (head.arrive slot track hint).slot = some slot ∧
      (head.arrive slot track hint).track = track := by
  unfold Head.arrive
  split
  case isTrue here => exact ⟨h, idle, here.1, here.2⟩
  case isFalse => exact ⟨h.of_inactive idle rfl rfl rfl, idle, rfl, rfl⟩

theorem moveTo_track (head : Head) (track : UInt8) :
    (head.moveTo track).state = .inactive ∨ (head.moveTo track = head ∧ head.track = track) := by
  unfold Head.moveTo
  split
  · exact .inl (abandon_state head)
  · exact .inr ⟨rfl, by simp_all⟩

theorem next_of_inactive (h : Woven head pieces) (slot : DriveSlot) (drive : Drive) (cache : TrackCache)
    (hint : Option Position) (idle : (head.moveTo drive.track).state = .inactive) :
    ∃ piece : Piece, piece.deposits =
        [⟨(head.next slot drive cache hint).output.value, slot, drive.track, drive.volume, cache⟩] ∧
      Woven (head.next slot drive cache hint).head (pieces ++ [piece]) ∧
      (head.next slot drive cache hint).head.slot = some slot := by
  obtain ⟨woven, still, hslot, htrack⟩ := (h.moveTo drive.track).arrive idle slot drive.track hint
  obtain ⟨piece, same, grown⟩ := woven.start still cache hslot htrack
  have began : (head.next slot drive cache hint).head =
      (((head.moveTo drive.track).arrive slot drive.track hint).start slot drive cache).head ∧
      (head.next slot drive cache hint).output =
        (((head.moveTo drive.track).arrive slot drive.track hint).start slot drive cache).output := by
    simp only [Head.next, idle, and_self]
  rw [began.1, began.2]
  exact ⟨piece, same, grown, (Head.start_slot _ _ _ _).trans hslot⟩

/-- The byte that passes next begins a piece or goes on with the last one. -/
theorem next (h : Woven head pieces) {slot : DriveSlot}
    (hslot : head.state = .inactive ∨ head.slot = some slot) (drive : Drive) (cache : TrackCache)
    (hint : Option Position) :
    ∃ grown : List Piece, grown.flatMap (·.deposits) = pieces.flatMap (·.deposits) ++
        [⟨(head.next slot drive cache hint).output.value, slot, drive.track, drive.volume, cache⟩] ∧
      Woven (head.next slot drive cache hint).head grown ∧
      (head.next slot drive cache hint).head.slot = some slot := by
  obtain idle | ⟨here, htrack⟩ := moveTo_track head drive.track
  · obtain ⟨piece, same, woven, hslot⟩ := h.next_of_inactive slot drive cache hint idle
    exact ⟨pieces ++ [piece], by simp [same], woven, hslot⟩
  · obtain idle | ⟨before, sector, bytes, first, rest, frame, rfl, o⟩ := h.state
    · obtain ⟨piece, same, woven, hslot⟩ := h.next_of_inactive slot drive cache hint (by rw [here, idle])
      exact ⟨pieces ++ [piece], by simp [same], woven, hslot⟩
    · have sent : (head.next slot drive cache hint).head = (head.send frame).1 ∧
          (head.next slot drive cache hint).output = (head.send frame).2 := by
        simp only [Head.next, here, o.state, and_self]
      have owner : head.slot = some slot := hslot.resolve_left (by simp [o.state])
      have firstSlot : slot = first.slot := Option.some.inj (owner.symm.trans o.slot)
      rw [sent.1, sent.2]
      refine ⟨_, ?_, h.send o (d := ⟨(head.send frame).2.value, slot, drive.track, drive.volume, cache⟩)
        rfl firstSlot (htrack.symm.trans o.track), (Head.send_slot _ _).trans owner⟩
      simp [Piece.deposits]

end Woven

theorem Head.arrive_at (head : Head) (slot : DriveSlot) (track : UInt8) (hint : Option Position) :
    (head.arrive slot track hint).slot = some slot ∧ (head.arrive slot track hint).track = track := by
  unfold Head.arrive
  split
  case isTrue here => exact here
  case isFalse => exact ⟨rfl, rfl⟩

theorem Head.arrive_kept (head : Head) (slot : DriveSlot) (track : UInt8) (hint : Option Position) :
    (head.arrive slot track hint).state = head.state ∧ (head.arrive slot track hint).stats = head.stats := by
  unfold Head.arrive
  split
  · exact ⟨rfl, rfl⟩
  · exact ⟨rfl, rfl⟩

/-- After a byte the head is at the drive and the track that it was read from, unless it was busy with the other
drive. -/
theorem Head.next_at (head : Head) {slot : DriveSlot} (own : head.state ≠ .inactive → head.slot = some slot)
    (drive : Drive) (cache : TrackCache) (hint : Option Position) :
    (head.next slot drive cache hint).head.slot = some slot ∧
      (head.next slot drive cache hint).head.track = drive.track := by
  have there : (head.moveTo drive.track).state ≠ .inactive →
      (head.moveTo drive.track).slot = some slot ∧ (head.moveTo drive.track).track = drive.track := by
    intro busy
    obtain idle | ⟨stays, track⟩ := Woven.moveTo_track head drive.track
    · exact absurd idle busy
    · rw [stays] at busy ⊢
      exact ⟨own busy, track⟩
  unfold Head.next
  dsimp only
  split
  case h_1 =>
    have arrived := (head.moveTo drive.track).arrive_at slot drive.track hint
    exact ⟨(Head.start_slot ..).trans arrived.1, (Head.start_track ..).trans arrived.2⟩
  case h_2 frame sending =>
    have there := there (by rw [sending]; nofun)
    exact ⟨(Head.send_slot ..).trans there.1, (Head.send_track ..).trans there.2⟩
  case h_3 reader receiving => exact there (by rw [receiving]; nofun)

end Floppy
