import Floppy.Fetch.Message
import Floppy.Proofs.Byte

/-!
# Reading what was written

The tokenizer takes the text of a message apart into the events that the message stands for, wherever the
text is cut, and stands idle after it.
-/
namespace Floppy

namespace Hex

theorem digit?_digit (n : UInt8) : digit? (digit n) = some (n &&& 0x0F) := forall_byte (by decide) n

theorem join_halves (b : UInt8) : (((b >>> 4) &&& 0x0F) <<< 4) ||| (b &&& 0x0F) = b :=
  forall_byte (by decide) b

end Hex

namespace Fetch

theorem TokenKind.digit?_eq_none {byte : UInt8}
    (separates : (ofMarker? byte).isSome = true ∨ byte = 32 ∨ byte = 9 ∨ byte = 13 ∨ byte = 10) :
    Hex.digit? byte = none := by
  revert separates
  exact forall_byte (p := fun b => ((ofMarker? b).isSome = true ∨ b = 32 ∨ b = 9 ∨ b = 13 ∨ b = 10) →
    Hex.digit? b = none) (by decide) byte

theorem TokenKind.of_digit? {byte d : UInt8} (read : Hex.digit? byte = some d) :
    ofMarker? byte = none ∧ ¬ (byte = 32 ∨ byte = 9 ∨ byte = 13 ∨ byte = 10) := by
  have apart : ¬ ((ofMarker? byte).isSome = true ∨ byte = 32 ∨ byte = 9 ∨ byte = 13 ∨ byte = 10) :=
    fun separates => nomatch read.symm.trans (digit?_eq_none separates)
  obtain ⟨marker, blank⟩ := not_or.mp apart
  exact ⟨Option.not_isSome_iff_eq_none.mp marker, blank⟩

/-- The events that a message stands for. -/
def Message.events : Message → List StreamEvent
  | sector track number bytes =>
    .sectorStart track (number &&& 0x0F) ::
      bytes.toList.map .payload ++ [.sectorEnd (Gcr.checksum bytes.toList)]
  | transferEnd crc => .transferEnd :: crc.toList.map .trackCrc
  | volume v => [.volume v]

theorem Message.length_payload (bytes : List UInt8) :
    (payload bytes).length = 2 * bytes.length + bytes.length / 32 := by
  have text (bytes : List UInt8) : (Hex.text bytes).length = 2 * bytes.length := by
    simp [Hex.text, Hex.pair, List.length_flatMap, Nat.mul_comm]
  induction bytes using payload.induct with
  | case1 => simp [payload]
  | case2 b rest ih =>
    rw [payload]
    simp only [List.length_append, text, ih, List.length_take, List.length_drop]
    split
    case isTrue long =>
      rw [List.length_singleton]
      omega
    case isFalse short =>
      rw [List.length_nil]
      omega

theorem Message.length_encode_sector (track number : UInt8) (bytes : Sector) :
    (sector track number bytes).encode.length = 529 := by
  simp [encode, length_payload, Hex.pair, sectorSize]

def StreamEvent.isQuiet : StreamEvent → Bool
  | .transferEnd | .error _ => true
  | _ => false

def appendDigit (value : UInt32) (n : UInt8) : UInt32 := (value <<< 4) ||| (n &&& 0x0F).toUInt32

theorem toNat_appendDigit (value : UInt32) (n : UInt8) :
    (appendDigit value n).toNat = (16 * value.toNat + n.toNat % 16) % 2 ^ 32 := by
  have low : (n &&& 0x0F).toNat = n.toNat % 16 := by
    rw [UInt8.toNat_and]
    exact Nat.and_two_pow_sub_one_eq_mod n.toNat 4
  have high : (value <<< 4).toNat = 2 ^ 4 * (value.toNat % 2 ^ 28) := by
    rw [UInt32.toNat_shiftLeft]
    have h : UInt32.toNat 4 % 32 = 4 := rfl
    rw [h, Nat.shiftLeft_eq]
    omega
  have small : n.toNat % 16 < 2 ^ 4 := by omega
  rw [appendDigit, UInt32.toNat_or, UInt8.toNat_toUInt32, low, high, ← Nat.two_pow_add_eq_or_of_lt small]
  omega

theorem toNat_high (b : UInt8) : (b >>> 4).toNat % 16 = b.toNat / 16 := forall_byte (by decide) b

/-- The value of a token with the two digits of one more byte. -/
def appendByte (value : UInt32) (b : UInt8) : UInt32 := appendDigit (appendDigit value (b >>> 4)) b

theorem toNat_appendByte (value : UInt32) (b : UInt8) :
    (appendByte value b).toNat = (256 * value.toNat + b.toNat) % 2 ^ 32 := by
  rw [appendByte, toNat_appendDigit, toNat_appendDigit, toNat_high]
  omega

namespace TokenKind

theorem meaning_sectorStart (track sector : UInt8) :
    meaning .sectorStart (appendDigit (appendByte 0 track) sector) =
      .sectorStart track (sector &&& 0x0F) := by
  have value : (appendDigit (appendByte 0 track) sector).toNat = 16 * track.toNat + sector.toNat % 16 := by
    rw [toNat_appendDigit, toNat_appendByte]
    have := track.toNat_lt
    simp
    omega
  have first : ((appendDigit (appendByte 0 track) sector) >>> 4).toUInt8 = track := by
    apply UInt8.toNat.inj
    rw [UInt32.toNat_toUInt8, UInt32.toNat_shiftRight, value, Nat.shiftRight_eq_div_pow]
    have := track.toNat_lt
    simp
    omega
  have last : ((appendDigit (appendByte 0 track) sector) &&& 0x0F).toUInt8 = sector &&& 0x0F := by
    apply UInt8.toNat.inj
    rw [UInt32.toNat_toUInt8, UInt32.toNat_and, value, UInt8.toNat_and]
    have high := Nat.and_two_pow_sub_one_eq_mod (16 * track.toNat + sector.toNat % 16) 4
    have low := Nat.and_two_pow_sub_one_eq_mod sector.toNat 4
    simp at high low ⊢
    omega
  rw [meaning, first, last]

theorem toUInt8_appendByte (b : UInt8) : (appendByte 0 b).toUInt8 = b := by
  apply UInt8.toNat.inj
  rw [UInt32.toNat_toUInt8, toNat_appendByte]
  have := b.toNat_lt
  simp

theorem meaning_checksum (checksum : UInt8) :
    meaning .checksum (appendByte 0 checksum) = .sectorEnd checksum := by
  rw [meaning, toUInt8_appendByte]

theorem meaning_volume (volume : UInt8) : meaning .volume (appendByte 0 volume) = .volume volume := by
  rw [meaning, toUInt8_appendByte]

theorem low_of_meaning {kind : TokenKind} {value : UInt32} {track sector : UInt8}
    (h : kind.meaning value = .sectorStart track sector) : sector &&& 0x0F = sector := by
  cases kind with
  | sectorStart =>
    simp only [meaning, StreamEvent.sectorStart.injEq] at h
    rw [← h.2, UInt32.toUInt8_and, UInt8.and_assoc]
    rfl
  | checksum => cases h
  | volume => cases h
  | crc => cases h

theorem sectorStart_notMem_cut (kind : TokenKind) (digits : ℕ) (value : UInt32) (byte track sector : UInt8) :
    .sectorStart track sector ∉ kind.cut digits value byte := by
  cases kind <;> cases digits <;> simp [cut]

theorem meaning_crc (crc : UInt32) :
    meaning .crc (appendByte (appendByte (appendByte (appendByte 0 (crc >>> 24).toUInt8)
      (crc >>> 16).toUInt8) (crc >>> 8).toUInt8) crc.toUInt8) = .trackCrc crc := by
  rw [meaning]
  congr 1
  apply UInt32.toNat.inj
  have := crc.toNat_lt
  simp [toNat_appendByte, UInt32.toNat_toUInt8, UInt32.toNat_shiftRight, Nat.shiftRight_eq_div_pow]
  omega

end TokenKind

namespace Tokenizer

theorem push_first {byte d : UInt8} (read : Hex.digit? byte = some d) :
    ({} : Tokenizer).push byte = ({ half := some d }, []) := by
  obtain ⟨marker, blank⟩ := TokenKind.of_digit? read
  simp only [push, scan, marker, blank, read, if_false]

theorem push_second {byte d : UInt8} (read : Hex.digit? byte = some d) (high : UInt8) :
    ({ half := some high } : Tokenizer).push byte = ({}, [.payload ((high <<< 4) ||| d)]) := by
  obtain ⟨marker, blank⟩ := TokenKind.of_digit? read
  simp only [push, scan, marker, blank, read, if_false]

theorem push_token (kind : TokenKind) (digits : ℕ) (value : UInt32) (n : UInt8) :
    ({ token := some ⟨kind, digits, value⟩ } : Tokenizer).push (Hex.digit n) =
      if digits + 1 = kind.digits then ({}, [kind.meaning (appendDigit value n)])
      else ({ token := some ⟨kind, digits + 1, appendDigit value n⟩ }, []) := by
  simp only [push, Hex.digit?_digit]
  rfl

theorem feed_pair (b : UInt8) : ({} : Tokenizer).feed (Hex.pair b) = ({}, [.payload b]) := by
  have first := push_first (Hex.digit?_digit (b >>> 4))
  have second := push_second (Hex.digit?_digit b) ((b >>> 4) &&& 0x0F)
  simp only [Hex.pair, feed, first, second, Hex.join_halves, List.append_nil, List.nil_append]

theorem feed_text (bytes : List UInt8) :
    ({} : Tokenizer).feed (Hex.text bytes) = ({}, bytes.map .payload) := by
  induction bytes with
  | nil => rfl
  | cons b bytes ih =>
    rw [Hex.text, List.flatMap_cons, feed_append, feed_pair, ← Hex.text, ih]
    rfl

theorem feed_newline : ({} : Tokenizer).feed [10] = ({}, []) := by decide

theorem feed_payload (bytes : List UInt8) :
    ({} : Tokenizer).feed (Message.payload bytes) = ({}, bytes.map .payload) := by
  induction bytes using Message.payload.induct with
  | case1 =>
    rw [Message.payload]
    rfl
  | case2 b rest ih =>
    have ends : ({} : Tokenizer).feed (if 32 ≤ (b :: rest).length then [10] else []) = ({}, []) := by
      split
      case isTrue => exact feed_newline
      case isFalse => rfl
    rw [Message.payload, feed_append, feed_append, feed_text, ends, ih]
    simp only [List.append_nil, ← List.map_append, List.take_append_drop]

theorem feed_sectorStart (track sector : UInt8) :
    ({} : Tokenizer).feed (35 :: (Hex.pair track ++ [Hex.digit sector])) =
      ({}, [.sectorStart track (sector &&& 0x0F)]) := by
  have opens : ({} : Tokenizer).push 35 = ({ token := some ⟨.sectorStart, 0, 0⟩ }, []) := by decide
  have meant := TokenKind.meaning_sectorStart track sector
  simp only [appendByte] at meant
  simp [Hex.pair, feed, opens, push_token, TokenKind.digits, meant]

theorem feed_checksum (checksum : UInt8) :
    ({} : Tokenizer).feed (61 :: Hex.pair checksum) = ({}, [.sectorEnd checksum]) := by
  have opens : ({} : Tokenizer).push 61 = ({ token := some ⟨.checksum, 0, 0⟩ }, []) := by decide
  have meant := TokenKind.meaning_checksum checksum
  simp only [appendByte] at meant
  simp [Hex.pair, feed, opens, push_token, TokenKind.digits, meant]

theorem feed_volume (volume : UInt8) :
    ({} : Tokenizer).feed (64 :: Hex.pair volume) = ({}, [.volume volume]) := by
  have opens : ({} : Tokenizer).push 64 = ({ token := some ⟨.volume, 0, 0⟩ }, []) := by decide
  have meant := TokenKind.meaning_volume volume
  simp only [appendByte] at meant
  simp [Hex.pair, feed, opens, push_token, TokenKind.digits, meant]

theorem feed_word (crc : UInt32) :
    ({} : Tokenizer).feed (42 :: Hex.word crc) = ({}, [.transferEnd, .trackCrc crc]) := by
  have opens : ({} : Tokenizer).push 42 = ({ token := some ⟨.crc, 0, 0⟩ }, [.transferEnd]) := by decide
  have meant := TokenKind.meaning_crc crc
  simp only [appendByte] at meant
  simp [Hex.word, Hex.pair, feed, opens, push_token, TokenKind.digits, meant]

/-- A message is read as what it stands for. -/
theorem feed_encode (message : Message) : ({} : Tokenizer).feed message.encode = ({}, message.events) := by
  cases message with
  | sector track number bytes =>
    have text : Message.encode (.sector track number bytes) =
        (35 :: (Hex.pair track ++ [Hex.digit number])) ++ ([10] ++ (Message.payload bytes.toList ++
          ((61 :: Hex.pair (Gcr.checksum bytes.toList)) ++ [10]))) := by
      simp [Message.encode]
    simp only [text, feed_append, feed_sectorStart, feed_newline, feed_payload, feed_checksum]
    rfl
  | transferEnd crc =>
    cases crc with
    | none => decide
    | some crc =>
      have text : Message.encode (.transferEnd (some crc)) = (42 :: Hex.word crc) ++ [10] := by
        simp [Message.encode]
      simp only [text, feed_append, feed_word, feed_newline]
      rfl
  | volume v =>
    have text : Message.encode (.volume v) = (64 :: Hex.pair v) ++ [10] := rfl
    simp only [text, feed_append, feed_volume, feed_newline]
    rfl

theorem feed_messages (messages : List Message) :
    ({} : Tokenizer).feed (messages.flatMap Message.encode) = ({}, messages.flatMap Message.events) := by
  induction messages with
  | nil => rfl
  | cons message messages ih => simp only [List.flatMap_cons, feed_append, feed_encode, ih]

/-- A marker or white space closes whatever is open. At most faults are heard before it, and the CRC that it
cuts short. -/
theorem push_separator (t : Tokenizer) {byte : UInt8}
    (separates : (TokenKind.ofMarker? byte).isSome ∨ byte = 32 ∨ byte = 9 ∨ byte = 13 ∨ byte = 10) :
    ∃ marks, (∀ event ∈ marks, (∃ cause, event = .error cause) ∨ ∃ crc, event = .trackCrc crc) ∧
      t.push byte = ((({} : Tokenizer).push byte).1, marks ++ (({} : Tokenizer).push byte).2) := by
  have digit : Hex.digit? byte = none := TokenKind.digit?_eq_none separates
  have scanned (half : Option UInt8) : ({ half } : Tokenizer).scan byte =
      ((({} : Tokenizer).scan byte).1, ({ half } : Tokenizer).dangling ++ (({} : Tokenizer).scan byte).2) := by
    cases marker : TokenKind.ofMarker? byte with
    | some kind => simp [scan, marker, dangling]
    | none =>
      have blank : byte = 32 ∨ byte = 9 ∨ byte = 13 ∨ byte = 10 := separates.resolve_left (by simp [marker])
      simp [scan, marker, blank, dangling]
  have lost (half : Option UInt8) (event : StreamEvent) (mem : event ∈ ({ half } : Tokenizer).dangling) :
      ∃ cause, event = .error cause := by
    cases half with
    | none => cases mem
    | some high => exact ⟨_, List.mem_singleton.mp mem⟩
  rcases t with ⟨_ | ⟨kind, digits, value⟩, half⟩
  · exact ⟨_, fun event mem => .inl (lost half event mem), scanned half⟩
  · refine ⟨kind.cut digits value byte ++ ({ half } : Tokenizer).dangling, ?_, ?_⟩
    · intro event mem
      rcases List.mem_append.mp mem with cut | dropped
      · cases kind <;> cases digits <;> simp [TokenKind.cut] at cut <;> simp [cut]
      · exact .inl (lost half event dropped)
    · simp only [push, digit, scanned half, List.append_assoc]

theorem feed_newline_of_any (t : Tokenizer) :
    (t.feed [10]).1 = {} ∧
      ∀ event ∈ (t.feed [10]).2, (∃ cause, event = .error cause) ∨ ∃ crc, event = .trackCrc crc := by
  have alone : ({} : Tokenizer).push 10 = ({}, []) := by decide
  obtain ⟨marks, faults, pushed⟩ := @push_separator t 10 (by decide)
  simp only [feed, pushed, alone, List.append_nil]
  exact ⟨trivial, faults⟩

/-- A first digit is held only outside tokens. -/
def Tidy (t : Tokenizer) : Prop := t.token = none ∨ t.half = none

theorem tidy_scan {t : Tokenizer} (outside : t.token = none) (byte : UInt8) : (t.scan byte).1.Tidy := by
  unfold scan
  split
  case h_1 => exact .inr rfl
  case h_2 =>
    split
    case isTrue => exact .inr rfl
    case isFalse =>
      split
      case h_1 => exact .inr rfl
      case h_2 => exact .inl outside
      case h_3 => exact .inl outside

theorem tidy_push {t : Tokenizer} (h : t.Tidy) (byte : UInt8) : (t.push byte).1.Tidy := by
  unfold push
  split
  case h_1 outside => exact tidy_scan outside byte
  case h_2 inside =>
    have full : t.half = none := h.resolve_left (by simp [inside])
    split
    case h_1 =>
      dsimp only
      split
      case isTrue => exact .inl rfl
      case isFalse => exact .inr full
    case h_2 => exact tidy_scan rfl byte

theorem tidy_feed {t : Tokenizer} (h : t.Tidy) (bytes : List UInt8) : (t.feed bytes).1.Tidy := by
  induction bytes generalizing t with
  | nil => exact h
  | cons byte bytes ih => exact ih (tidy_push h byte)

theorem quiet_dangling (t : Tokenizer) : ∀ event ∈ t.dangling, event.isQuiet = true := by
  rw [dangling]
  split
  case isTrue => simp [StreamEvent.isQuiet]
  case isFalse => simp

/-- Outside of tokens, only a digit that completes a byte is heard as more than the end or a fault. -/
theorem scan_events (t : Tokenizer) (byte : UInt8) :
    (∀ event ∈ (t.scan byte).2, event.isQuiet = true) ∨
      Hex.digit? byte ≠ none ∧ ∃ value, (t.scan byte).2 = [.payload value] := by
  unfold scan
  split
  case h_1 kind _ =>
    left
    intro event mem
    rcases List.mem_append.mp mem with dangling | ended
    · exact quiet_dangling t event dangling
    · split at ended
      case isTrue =>
        rw [List.mem_singleton.mp ended]
        rfl
      case isFalse => cases ended
  case h_2 =>
    split
    case isTrue => exact .inl (quiet_dangling t)
    case isFalse =>
      split
      case h_1 digit _ => exact .inr ⟨by simp [digit], _, rfl⟩
      case h_2 => exact .inl nofun
      case h_3 => exact .inl (by simp [StreamEvent.isQuiet])

theorem notMem_scan (t : Tokenizer) (byte : UInt8) {event : StreamEvent} (loud : event.isQuiet = false)
    (other : ∀ value, event ≠ .payload value) : event ∉ (t.scan byte).2 := by
  intro mem
  rcases t.scan_events byte with quiet | ⟨-, value, single⟩
  · exact Bool.false_ne_true (loud.symm.trans (quiet event mem))
  · rw [single] at mem
    exact other value (List.mem_singleton.mp mem)

theorem low_of_mem_push {t : Tokenizer} {byte track sector : UInt8}
    (h : .sectorStart track sector ∈ (t.push byte).2) : sector &&& 0x0F = sector := by
  unfold push at h
  split at h
  case h_1 => exact absurd h (notMem_scan _ _ rfl nofun)
  case h_2 kind digits value _ =>
    split at h
    case h_1 d _ =>
      dsimp only at h
      split at h
      case isTrue => exact TokenKind.low_of_meaning (List.mem_singleton.mp h).symm
      case isFalse => cases h
    case h_2 =>
      rcases List.mem_append.mp h with cut | scanned
      · exact absurd cut (TokenKind.sectorStart_notMem_cut _ _ _ _ _ _)
      · exact absurd scanned (notMem_scan _ _ rfl nofun)

theorem low_of_mem_feed {t : Tokenizer} {bytes : List UInt8} {track sector : UInt8}
    (h : .sectorStart track sector ∈ (t.feed bytes).2) : sector &&& 0x0F = sector := by
  induction bytes generalizing t with
  | nil => cases h
  | cons byte bytes ih =>
    rcases List.mem_append.mp h with first | later
    · exact low_of_mem_push first
    · exact ih later

end Tokenizer
end Fetch
end Floppy
