import Floppy.Proofs.Controller.Frames
import Floppy.Proofs.Head.Passing

/-!
# Bytes that frame themselves

What receives the bytes of a controller keeps in step by the ones among their bits, and finds a field by its prologue
alone. Wherever frames are torn, no three zeros follow each other, and no prologue is found but those of frames.
-/
namespace Floppy
open Gcr

namespace Gcr

def bits (byte : UInt8) : List Bool := [7, 6, 5, 4, 3, 2, 1, 0].map byte.toBitVec.getLsbD

/-- A byte that keeps a receiver in step. -/
def Clocked (byte : UInt8) : Prop := 0x80 ≤ byte ∧ ¬ [false, false, false] <:+: bits byte

instance : DecidablePred Clocked := fun _ => inferInstanceAs (Decidable (_ ∧ _))

theorem head?_bits {byte : UInt8} (top : 0x80 ≤ byte) : (bits byte).head? = some true :=
  forall_byte (p := fun b => 0x80 ≤ b → (bits b).head? = some true) (by decide) byte top

theorem eq_true_of_mem_head? {bytes : List UInt8} (clocked : ∀ byte ∈ bytes, Clocked byte) {bit : Bool}
    (first : bit ∈ (bytes.flatMap bits).head?) : bit = true := by
  cases bytes with
  | nil => cases first
  | cons byte bytes =>
    have top := head?_bits (clocked byte List.mem_cons_self).1
    rw [List.flatMap_cons, List.head?_append, top, Option.some_or] at first
    exact (Option.mem_some.mp first).symm

/-- The next byte begins with a one, so zeros do not add up from byte to byte. -/
theorem not_three_zeros {bytes : List UInt8} (clocked : ∀ byte ∈ bytes, Clocked byte) :
    ¬ [false, false, false] <:+: bytes.flatMap bits := by
  induction bytes with
  | nil => decide
  | cons byte bytes ih =>
    obtain ⟨own, others⟩ := List.forall_mem_cons.mp clocked
    rw [List.flatMap_cons, List.infix_append_iff]
    rintro (inside | later | ⟨zeros, more, same, ends, begins⟩)
    · exact own.2 inside
    · exact ih others later
    · cases more with
      | nil =>
        rw [List.append_nil] at same
        exact own.2 (same ▸ ends.isInfix)
      | cons bit more =>
        obtain ⟨rest, whole⟩ := begins
        have one : bit = true := eq_true_of_mem_head? others (by rw [← whole]; rfl)
        have zero : bit ∈ [false, false, false] := by simp [same]
        rw [one] at zero
        exact absurd zero (by decide)

theorem clocked_oddEvenPair (value : UInt8) : ∀ byte ∈ AddressField.oddEvenPair value, Clocked byte := by
  have both : Clocked (oddEvenEncode value).1 ∧ Clocked (oddEvenEncode value).2 :=
    forall_byte (p := fun v => Clocked (oddEvenEncode v).1 ∧ Clocked (oddEvenEncode v).2) (by decide +kernel) value
  simpa [AddressField.oddEvenPair] using both

theorem clocked_translate (symbol : UInt8) : Clocked (translate symbol) :=
  have all : ∀ place : Fin 64, Clocked (diskBytes.get place) := by decide
  all _

theorem clocked_chain (last : UInt8) (symbols : List UInt8) : ∀ byte ∈ DataField.chain last symbols, Clocked byte := by
  induction symbols generalizing last with
  | nil => simpa [DataField.chain] using clocked_translate last
  | cons symbol symbols ih => simpa [DataField.chain] using ⟨clocked_translate _, ih symbol⟩

namespace Frame

theorem clocked_encode (address : AddressField) (sector : Sector) :
    ∀ byte ∈ encode address sector, Clocked byte := by
  have sync : Clocked syncByte := by decide
  have fixed : (AddressField.marker ++ AddressField.trailer ++ DataField.marker ++ DataField.trailer).all
      fun byte => Clocked byte := by decide
  simp only [List.all_append, Bool.and_eq_true, List.all_eq_true, decide_eq_true_eq] at fixed
  obtain ⟨⟨⟨opens, closes⟩, opens'⟩, closes'⟩ := fixed
  simp only [encode, AddressField.header, AddressField.encode, DataField.encode, List.cons_append, List.forall_mem_cons,
    List.forall_mem_append]
  refine ⟨sync, sync, ⟨⟨⟨⟨⟨opens, ?_⟩, ?_⟩, ?_⟩, ?_⟩, closes⟩, sync, ⟨opens', clocked_chain 0 _⟩, closes'⟩
  all_goals exact clocked_oddEvenPair _

abbrev addressStart : ℕ := 2

abbrev dataStart : ℕ := 17

theorem drop_addressStart (address : AddressField) (sector : Sector) :
    (encode address sector).drop addressStart = address.encode ++ DataField.encode sector := rfl

theorem drop_dataStart (address : AddressField) (sector : Sector) :
    (encode address sector).drop dataStart = DataField.marker ++ DataField.body sector := by
  rw [encode_eq]
  rfl

end Frame
end Gcr

def stream (pieces : List Piece) : List UInt8 := (pieces.flatMap (·.deposits)).map (·.byte)

namespace Piece
variable {piece : Piece}

def bytes (piece : Piece) : List UInt8 := piece.deposits.map (·.byte)

theorem Sound.onset (sound : piece.Sound) : ∃ address sector, piece.bytes <+: Frame.encode address sector := by
  cases piece with
  | filler deposit =>
    refine ⟨⟨0, 0, 0⟩, Vector.replicate _ 0, ?_⟩
    rw [bytes, deposits, List.map_singleton, show deposit.byte = syncByte from sound]
    exact ⟨_, rfl⟩
  | frame sector bytes first rest => exact ⟨_, _, sound.2.1⟩

theorem Sound.head? (sound : piece.Sound) : piece.bytes.head? = some syncByte := by
  cases piece with
  | filler deposit => exact congrArg some sound
  | frame sector bytes first rest =>
    obtain ⟨whole, same⟩ := sound.2.1
    have first := congrArg List.head? same
    exact first

theorem isFrame_of_offset {offset : ℕ} (inside : offset < piece.bytes.length) (later : offset ≠ 0) :
    piece.isFrame = true := by
  cases piece with
  | filler deposit => exact absurd (Nat.lt_one_iff.mp inside) later
  | frame => rfl

/-- The byte that opens a prologue is one of two in a frame. -/
theorem Sound.opener_iff (sound : piece.Sound) {offset : ℕ} (inside : offset < piece.bytes.length) :
    piece.bytes[offset]? = some 0xD5 ↔
      piece.isFrame = true ∧ (offset = Frame.addressStart ∨ offset = Frame.dataStart) := by
  obtain ⟨address, sector, torn, whole⟩ := sound.onset
  have same : piece.bytes[offset]? = (Frame.encode address sector)[offset]? := by
    rw [← whole, List.getElem?_append_left inside]
  rw [same]
  constructor
  · intro opens
    have places := Frame.place_of_opener opens
    exact ⟨isFrame_of_offset inside (by omega), places⟩
  · rintro ⟨-, rfl | rfl⟩
    · rfl
    · rfl

end Piece

variable {pieces : List Piece} {place offset length : ℕ}

/-- From this place of the stream on, so many bytes are those of a frame, from an offset in it on. -/
def Framed (pieces : List Piece) (place offset length : ℕ) : Prop :=
  ∃ before piece after, pieces = before ++ piece :: after ∧ piece.isFrame = true ∧
    place = (stream before).length + offset ∧ offset + length ≤ piece.bytes.length

theorem stream_append (before after : List Piece) : stream (before ++ after) = stream before ++ stream after := by
  simp [stream]

theorem stream_cons (piece : Piece) (after : List Piece) : stream (piece :: after) = piece.bytes ++ stream after := by
  simp [stream, Piece.bytes]

theorem head?_stream (sound : ∀ piece ∈ pieces, piece.Sound) {byte : UInt8} (first : byte ∈ (stream pieces).head?) :
    byte = syncByte := by
  cases pieces with
  | nil => cases first
  | cons piece pieces =>
    rw [stream_cons, List.head?_append, (sound piece List.mem_cons_self).head?, Option.some_or] at first
    exact (Option.mem_some.mp first).symm

theorem exists_piece (inside : place < (stream pieces).length) :
    ∃ before piece after offset, pieces = before ++ piece :: after ∧ place = (stream before).length + offset ∧
      offset < piece.bytes.length := by
  induction pieces generalizing place with
  | nil => cases inside
  | cons piece pieces ih =>
    by_cases own : place < piece.bytes.length
    · exact ⟨[], piece, pieces, place, rfl, (Nat.zero_add _).symm, own⟩
    · rw [stream_cons, List.length_append] at inside
      obtain ⟨before, piece', after, offset, rfl, same, within⟩ := @ih (place - piece.bytes.length) (by omega)
      refine ⟨piece :: before, piece', after, offset, rfl, ?_, within⟩
      rw [stream_cons, List.length_append]
      omega

theorem drop_stream (before after : List Piece) (piece : Piece) (inside : offset ≤ piece.bytes.length) :
    (stream (before ++ piece :: after)).drop ((stream before).length + offset) =
      piece.bytes.drop offset ++ stream after := by
  rw [stream_append, stream_cons, ← List.drop_drop, List.drop_left, List.drop_append_of_le_length inside]

theorem opener_iff (sound : ∀ piece ∈ pieces, piece.Sound) : (stream pieces)[place]? = some 0xD5 ↔
    Framed pieces place Frame.addressStart 1 ∨ Framed pieces place Frame.dataStart 1 := by
  have byte {before after : List Piece} {piece : Piece} {offset : ℕ} (inside : offset < piece.bytes.length) :
      (stream (before ++ piece :: after))[(stream before).length + offset]? = piece.bytes[offset]? := by
    rw [stream_append, stream_cons, List.getElem?_append_right (Nat.le_add_right ..), Nat.add_sub_cancel_left,
      List.getElem?_append_left inside]
  constructor
  · intro opens
    obtain ⟨before, piece, after, offset, rfl, rfl, inside⟩ := exists_piece (List.getElem?_eq_some_iff.mp opens).1
    rw [byte inside, (sound piece (by simp)).opener_iff inside] at opens
    obtain ⟨frame, rfl | rfl⟩ := opens
    · exact .inl ⟨before, piece, after, rfl, frame, rfl, inside⟩
    · exact .inr ⟨before, piece, after, rfl, frame, rfl, inside⟩
  · rintro (⟨before, piece, after, rfl, frame, rfl, inside⟩ | ⟨before, piece, after, rfl, frame, rfl, inside⟩)
    · rw [byte inside, (sound piece (by simp)).opener_iff inside]
      exact ⟨frame, .inl rfl⟩
    · rw [byte inside, (sound piece (by simp)).opener_iff inside]
      exact ⟨frame, .inr rfl⟩

/-- A prologue that is cut off is followed by the sync byte of another piece, and that makes no other prologue. -/
theorem prologue_iff {front behind rest : List UInt8} {third other : UInt8}
    (onset : front <+: 0xD5 :: 0xAA :: third :: rest) (seam : ∀ byte ∈ behind.head?, byte = syncByte)
    (apart : other ≠ syncByte) : [0xD5, 0xAA, other] <+: front ++ behind ↔ other = third ∧ 3 ≤ front.length := by
  have torn {byte : UInt8} {more : List UInt8} (apart : byte ≠ syncByte) : ¬ byte :: more <+: behind := by
    rintro ⟨_, rfl⟩
    exact apart (seam byte rfl)
  match front with
  | [] => simpa using torn (by decide)
  | [a] => simpa using fun _ => torn (by decide)
  | [a, b] => simpa using fun _ _ => torn apart
  | a :: b :: c :: front =>
    simp only [List.cons_prefix_cons] at onset
    obtain ⟨rfl, rfl, rfl, -⟩ := onset
    simp

theorem opens_piece_iff {start : ℕ} {third other : UInt8}
    (begins : ∀ address sector, ∃ rest, (Frame.encode address sector).drop start = 0xD5 :: 0xAA :: third :: rest)
    {before after : List Piece} {piece : Piece} (sound : ∀ p ∈ before ++ piece :: after, p.Sound)
    (inside : start + 1 ≤ piece.bytes.length) (apart : other ≠ syncByte) :
    [0xD5, 0xAA, other] <+: (stream (before ++ piece :: after)).drop ((stream before).length + start) ↔
      other = third ∧ start + 3 ≤ piece.bytes.length := by
  obtain ⟨address, sector, onset⟩ := (sound piece (by simp)).onset
  obtain ⟨rest, field⟩ := begins address sector
  have front := onset.drop start
  rw [field] at front
  rw [drop_stream before after piece (Nat.le_of_succ_le inside),
    prologue_iff front (fun _ => head?_stream fun p mem => sound p (by simp [mem])) apart, List.length_drop,
    Nat.le_sub_iff_add_le' (Nat.le_of_succ_le inside)]

/-- Two prologues are found in the stream, each at its place in a frame and whole. -/
theorem opens_iff (sound : ∀ piece ∈ pieces, piece.Sound) {other : UInt8} (apart : other ≠ syncByte) :
    [0xD5, 0xAA, other] <+: (stream pieces).drop place ↔
      other = 0x96 ∧ Framed pieces place Frame.addressStart 3 ∨
        other = 0xAD ∧ Framed pieces place Frame.dataStart 3 := by
  have address (field : AddressField) (sector : Sector) :
      ∃ rest, (Frame.encode field sector).drop Frame.addressStart = 0xD5 :: 0xAA :: 0x96 :: rest :=
    ⟨_, Frame.drop_addressStart field sector⟩
  have data (field : AddressField) (sector : Sector) :
      ∃ rest, (Frame.encode field sector).drop Frame.dataStart = 0xD5 :: 0xAA :: 0xAD :: rest :=
    ⟨_, Frame.drop_dataStart field sector⟩
  constructor
  · intro opens
    have opener : (stream pieces)[place]? = some 0xD5 := by
      obtain ⟨rest, same⟩ := opens
      rw [← List.head?_drop, ← same]
      rfl
    obtain ⟨before, piece, after, rfl, frame, rfl, inside⟩ | ⟨before, piece, after, rfl, frame, rfl, inside⟩ :=
      (opener_iff sound).mp opener
    · have whole := (opens_piece_iff address sound inside apart).mp opens
      exact .inl ⟨whole.1, before, piece, after, rfl, frame, rfl, whole.2⟩
    · have whole := (opens_piece_iff data sound inside apart).mp opens
      exact .inr ⟨whole.1, before, piece, after, rfl, frame, rfl, whole.2⟩
  · rintro (⟨rfl, before, piece, after, rfl, frame, rfl, whole⟩ | ⟨rfl, before, piece, after, rfl, frame, rfl, whole⟩)
    · exact (opens_piece_iff address sound (by omega) apart).mpr ⟨rfl, whole⟩
    · exact (opens_piece_iff data sound (by omega) apart).mpr ⟨rfl, whole⟩

theorem clocked_stream (sound : ∀ piece ∈ pieces, piece.Sound) : ∀ byte ∈ stream pieces, Clocked byte := by
  intro byte mem
  simp only [stream, List.mem_map, List.mem_flatMap] at mem
  obtain ⟨deposit, ⟨piece, own, there⟩, rfl⟩ := mem
  obtain ⟨address, sector, onset⟩ := (sound piece own).onset
  exact Frame.clocked_encode address sector _ (onset.subset (List.mem_map_of_mem there))

namespace Controller
variable {ρ : Type} [Registers ρ]

/-- All that was written, through every reset. -/
def Tape.deposits (tape : Tape) : List Deposit := tape.sessions.flatMap (·.2)

theorem exists_pieces_of_unspliced {sessions : List (HeadStats × List Deposit)}
    (unspliced : ∀ session ∈ sessions, Unspliced session.1 session.2) :
    ∃ pieces : List Piece, pieces.flatMap (·.deposits) = sessions.flatMap (·.2) ∧ ∀ piece ∈ pieces, piece.Sound := by
  induction sessions with
  | nil => exact ⟨[], rfl, List.forall_mem_nil _⟩
  | cons session sessions ih =>
    obtain ⟨⟨first, own, sound, -⟩, others⟩ := List.forall_mem_cons.mp unspliced
    obtain ⟨pieces, rest, sounds⟩ := ih others
    refine ⟨first ++ pieces, ?_, List.forall_mem_append.mpr ⟨sound, sounds⟩⟩
    rw [List.flatMap_append, List.flatMap_cons, own, rest]

theorem Tape.Sound.exists_pieces {tape : Tape} (h : tape.Sound) :
    ∃ pieces : List Piece, pieces.flatMap (·.deposits) = tape.deposits ∧ ∀ piece ∈ pieces, piece.Sound := by
  obtain ⟨finished, last, same, woven⟩ := h
  obtain ⟨pieces, before, sounds⟩ := exists_pieces_of_unspliced finished
  refine ⟨pieces ++ last, ?_, List.forall_mem_append.mpr ⟨sounds, woven.sound⟩⟩
  rw [List.flatMap_append, before, same, Tape.deposits, Tape.sessions, List.flatMap_append, List.flatMap_singleton]

/-- Whatever the registers show, whatever the cache holds, and whenever the controller is reset: each byte begins with a
one, no three zeros follow each other, and the stream is made of fillers and beginnings of frames so that the byte that
opens prologues, and the prologues themselves, are found only where a frame has them. -/
theorem stream_framed (volume : UInt8) (settings : ControllerSettings) (events : List (Event ρ)) :
    let tape := Tape.run { controller := .ofVolume volume settings } events
    let bytes := tape.deposits.map (·.byte)
    (∀ byte ∈ bytes, 0x80 ≤ byte) ∧ ¬ [false, false, false] <:+: bytes.flatMap bits ∧
    ∃ pieces : List Piece, pieces.flatMap (·.deposits) = tape.deposits ∧ (∀ piece ∈ pieces, piece.Sound) ∧ ∀ place,
      (bytes[place]? = some 0xD5 ↔ Framed pieces place Frame.addressStart 1 ∨ Framed pieces place Frame.dataStart 1) ∧
      (AddressField.marker <+: bytes.drop place ↔ Framed pieces place Frame.addressStart 3) ∧
      (DataField.marker <+: bytes.drop place ↔ Framed pieces place Frame.dataStart 3) := by
  intro tape bytes
  have start : Tape.Sound { controller := ofVolume volume settings } := ⟨by simp, [], rfl, .fresh⟩
  obtain ⟨pieces, same, sound⟩ := (start.run events).exists_pieces
  have whole : bytes = stream pieces := congrArg (List.map (·.byte)) same.symm
  have clocked := clocked_stream sound
  rw [whole]
  refine ⟨fun byte mem => (clocked byte mem).1, not_three_zeros clocked, pieces, same, sound, fun place =>
    ⟨opener_iff sound, ?_, ?_⟩⟩
  · rw [AddressField.marker, opens_iff sound (by decide)]
    simp
  · rw [DataField.marker, opens_iff sound (by decide)]
    simp

def wantedByte : Event Bench.Levers :=
  .poll { lines := { phase := 0, motor := true, drive := .external, wanted := true, pending := false } }
    ((TrackCache.empty.retag .external 0 defaultVolume).commit .external 0 .zero)

/-- A frame is cut off inside the first prologue, and another one is begun. -/
def cutOff : List (Event Bench.Levers) := List.replicate 4 wantedByte ++ .reset :: List.replicate 5 wantedByte

theorem stream_framed_cutOff :
    let tape := Tape.run { controller := .ofVolume defaultVolume { burst := false } } cutOff
    tape.deposits.map (·.byte) = [0xFF, 0xFF, 0xD5, 0xAA, 0xFF, 0xFF, 0xD5, 0xAA, 0x96] ∧
      ∃ pieces : List Piece, (∀ piece ∈ pieces, piece.Sound) ∧ ¬ Framed pieces 2 Frame.addressStart 3 ∧
        Framed pieces 6 Frame.addressStart 3 := by
  intro tape
  have written : tape.deposits.map (·.byte) = [0xFF, 0xFF, 0xD5, 0xAA, 0xFF, 0xFF, 0xD5, 0xAA, 0x96] := by
    decide +kernel
  obtain ⟨-, -, pieces, -, sound, places⟩ := stream_framed defaultVolume { burst := false } cutOff
  have first := (places 2).2.1
  have second := (places 6).2.1
  rw [written] at first second
  refine ⟨written, pieces, sound, fun whole => ?_, second.mp (by decide)⟩
  exact absurd (first.mpr whole) (by decide)

end Controller
end Floppy
