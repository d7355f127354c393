import Floppy.Proofs.Fetch.Stream

/-!
# Messages behind garbage

Every message begins with a marker, and a marker closes whatever is open before it. So whatever came first, at
most one more event is due to it, and then the messages are read as what they stand for.
-/
namespace Floppy.Fetch

/-- The byte that a message begins with. -/
def Message.marker : Message → UInt8
  | sector .. => 35
  | transferEnd _ => 42
  | volume _ => 64

theorem Message.exists_encode (message : Message) : ∃ text, message.encode = message.marker :: text := by
  cases message <;> exact ⟨_, rfl⟩

/-- What a marker draws from a tokenizer that is not idle: the first digit of a byte is lost, a token is cut
short, or the CRC ends with the digits that it has. -/
inductive Leftover (marker : UInt8) : Tokenizer → List StreamEvent → Prop
  | idle : Leftover marker {} []
  | nibble (high : UInt8) : Leftover marker { half := some high } [.error .danglingNibble]
  | token {kind : TokenKind} (other : kind ≠ .crc) (digits : ℕ) (value : UInt32) :
      Leftover marker { token := some ⟨kind, digits, value⟩ } [.error (.malformedToken kind.marker marker)]
  | bareEnd (value : UInt32) : Leftover marker { token := some ⟨.crc, 0, value⟩ } []
  | shortCrc (digits : ℕ) (value : UInt32) :
      Leftover marker { token := some ⟨.crc, digits + 1, value⟩ } [.trackCrc value]

namespace Leftover
variable {marker : UInt8} {t : Tokenizer} {left : List StreamEvent}

theorem length_le_one (h : Leftover marker t left) : left.length ≤ 1 := by cases h <;> simp

theorem of_tidy (tidy : t.Tidy) (marker : UInt8) : ∃ left, Leftover marker t left := by
  rcases t with ⟨_ | ⟨kind, digits, value⟩, half⟩
  · cases half with
    | none => exact ⟨_, .idle⟩
    | some high => exact ⟨_, .nibble high⟩
  · obtain rfl : half = none := tidy.resolve_left (by simp)
    by_cases crc : kind = .crc
    · subst crc
      cases digits with
      | zero => exact ⟨_, .bareEnd value⟩
      | succ digits => exact ⟨_, .shortCrc digits value⟩
    · exact ⟨_, .token crc digits value⟩

theorem push (h : Leftover marker t left) (begins : (TokenKind.ofMarker? marker).isSome = true) :
    t.push marker = ((({} : Tokenizer).push marker).1, left ++ (({} : Tokenizer).push marker).2) := by
  obtain ⟨opened, known⟩ := Option.isSome_iff_exists.mp begins
  have digit : Hex.digit? marker = none := TokenKind.digit?_eq_none (.inl begins)
  cases h with
  | idle => rfl
  | nibble high => simp [Tokenizer.push, Tokenizer.scan, known, Tokenizer.dangling]
  | @token kind other digits value =>
    cases kind with
    | crc => exact absurd rfl other
    | sectorStart | checksum | volume => simp only [Tokenizer.push, digit, TokenKind.cut]
  | bareEnd value => simp only [Tokenizer.push, digit, TokenKind.cut]
  | shortCrc digits value => simp only [Tokenizer.push, digit, TokenKind.cut]

theorem feed (h : Leftover marker t left) (begins : (TokenKind.ofMarker? marker).isSome = true)
    (text : List UInt8) :
    t.feed (marker :: text) =
      ((({} : Tokenizer).feed (marker :: text)).1, left ++ (({} : Tokenizer).feed (marker :: text)).2) := by
  simp only [Tokenizer.feed, h.push begins, List.append_assoc]

end Leftover

/-- Whatever came first, messages are read as what they stand for, after at most one more event. -/
theorem resynchronizes (garbage : List UInt8) (first : Message) (rest : List Message) :
    ∃ left, Leftover first.marker (({} : Tokenizer).feed garbage).1 left ∧ left.length ≤ 1 ∧
      ({} : Tokenizer).feed (garbage ++ (first :: rest).flatMap Message.encode) =
        ({}, (({} : Tokenizer).feed garbage).2 ++ left ++ (first :: rest).flatMap Message.events) := by
  have tidy : (({} : Tokenizer).feed garbage).1.Tidy := Tokenizer.tidy_feed (.inl rfl) garbage
  obtain ⟨left, leftover⟩ := Leftover.of_tidy tidy first.marker
  refine ⟨left, leftover, leftover.length_le_one, ?_⟩
  have begins : (TokenKind.ofMarker? first.marker).isSome = true := by cases first <;> rfl
  obtain ⟨text, spelled⟩ : ∃ text, (first :: rest).flatMap Message.encode = first.marker :: text := by
    obtain ⟨text, spelled⟩ := first.exists_encode
    exact ⟨text ++ rest.flatMap Message.encode, by rw [List.flatMap_cons, spelled, List.cons_append]⟩
  rw [Tokenizer.feed_append, spelled, leftover.feed begins text, ← spelled, Tokenizer.feed_messages,
    List.append_assoc]

example : ({} : Tokenizer).feed ([35, 48] ++ (Message.volume 254).encode) =
    ({}, [.error (.malformedToken (TokenKind.sectorStart).marker 64), .volume 254]) := by decide

end Floppy.Fetch
