import Floppy.Proofs.Fetch.Stream

/-!
# The language of the response stream

`Means` says which byte strings are well formed and what they mean: a string splits from left to right into
white space, payload bytes of two digits, and tokens, each a marker with its digits. Values are read as numbers
to the base sixteen. The tokenizer reads exactly these strings without an error and to the end.
-/
namespace Floppy

namespace Hex

def IsDigit (byte : UInt8) : Prop := (digit? byte).isSome = true

instance : DecidablePred IsDigit := fun byte => inferInstanceAs (Decidable ((digit? byte).isSome = true))

def value (digits : List UInt8) : ℕ :=
  digits.foldl (fun value byte => 16 * value + ((digit? byte).getD 0).toNat) 0

theorem value_append (digits : List UInt8) (byte : UInt8) :
    value (digits ++ [byte]) = 16 * value digits + ((digit? byte).getD 0).toNat := by
  simp [value]

theorem toNat_digit?_lt (byte : UInt8) : ((digit? byte).getD 0).toNat < 16 := forall_byte (by decide) byte

/-- The digits at the head of a text, as many as there are up to a limit. -/
theorem exists_digits (limit : ℕ) (text : List UInt8) :
    ∃ digits rest, text = digits ++ rest ∧ (∀ d ∈ digits, IsDigit d) ∧ digits.length ≤ limit ∧
      (digits.length = limit ∨ ∀ byte ∈ rest.head?, ¬ IsDigit byte) := by
  induction limit generalizing text with
  | zero => exact ⟨[], text, rfl, by simp, le_rfl, .inl rfl⟩
  | succ limit ih =>
    cases text with
    | nil => exact ⟨[], [], rfl, by simp, Nat.zero_le _, .inr (by simp)⟩
    | cons byte text =>
      by_cases digit : IsDigit byte
      · obtain ⟨digits, rest, split, all, short, longest⟩ := ih text
        refine ⟨byte :: digits, rest, by rw [split, List.cons_append], ?_, Nat.succ_le_succ short, ?_⟩
        · simpa using ⟨digit, all⟩
        · exact longest.imp_left (congrArg Nat.succ)
      · exact ⟨[], byte :: text, rfl, by simp, Nat.zero_le _, .inr (by simpa using digit)⟩

end Hex

namespace Fetch

namespace TokenKind

def byte (kind : TokenKind) : UInt8 := .ofNat kind.marker.toNat

def opening : TokenKind → List StreamEvent
  | crc => [.transferEnd]
  | _ => []

/-- What the number behind the marker means. -/
def event : TokenKind → ℕ → StreamEvent
  | sectorStart, number => .sectorStart (.ofNat (number / 16)) (.ofNat (number % 16))
  | checksum, number => .sectorEnd (.ofNat number)
  | volume, number => .volume (.ofNat number)
  | crc, number => .trackCrc (.ofNat number)

theorem ofMarker?_eq_some_iff {b : UInt8} {kind : TokenKind} : ofMarker? b = some kind ↔ b = kind.byte := by
  cases kind <;> exact forall_byte (p := fun b => ofMarker? b = some _ ↔ b = byte _) (by decide) b

theorem digits_pos (kind : TokenKind) : 0 < kind.digits := by cases kind <;> decide

theorem cut_crc (digits : List UInt8) (number : UInt32) (b : UInt8) :
    crc.cut digits.length number b = if digits = [] then [] else [.trackCrc number] := by cases digits <;> rfl

theorem error_mem_cut {kind : TokenKind} (other : kind ≠ crc) (digits : ℕ) (number : UInt32) (b : UInt8) :
    .error (.malformedToken kind.marker b) ∈ kind.cut digits number b := by
  cases kind with
  | crc => exact absurd rfl other
  | sectorStart | checksum | volume => simp [cut]

theorem meaning_ofNat (kind : TokenKind) (number : ℕ) : kind.meaning (.ofNat number) = kind.event number := by
  cases kind with
  | sectorStart =>
    have high : ((UInt32.ofNat number) >>> 4).toUInt8 = UInt8.ofNat (number / 16) := by
      apply UInt8.toNat.inj
      simp [UInt32.toNat_toUInt8, UInt32.toNat_shiftRight, Nat.shiftRight_eq_div_pow]
      omega
    have low : ((UInt32.ofNat number) &&& 0x0F).toUInt8 = UInt8.ofNat (number % 16) := by
      apply UInt8.toNat.inj
      have bits := Nat.and_two_pow_sub_one_eq_mod (number % 4294967296) 4
      rw [UInt32.toNat_toUInt8, UInt32.toNat_and, UInt32.toNat_ofNat', UInt8.toNat_ofNat']
      simp at bits ⊢
      omega
    simp only [meaning, event, high, low]
  | checksum => simp [meaning, event]
  | volume => simp [meaning, event]
  | crc => rfl

end TokenKind

open Hex

/-- A well-formed byte string with the events that its tokens mean. The digits behind the end of a transfer go
on for as long as there are any, up to eight; if they are fewer, another byte has to follow. -/
inductive Means : List UInt8 → List StreamEvent → Prop
  | nil : Means [] []
  | blank {byte : UInt8} {rest : List UInt8} {events : List StreamEvent}
      (blank : byte = 32 ∨ byte = 9 ∨ byte = 13 ∨ byte = 10) (later : Means rest events) :
      Means (byte :: rest) events
  | payload {high low : UInt8} {rest : List UInt8} {events : List StreamEvent}
      (first : IsDigit high) (second : IsDigit low) (later : Means rest events) :
      Means (high :: low :: rest) (.payload (.ofNat (value [high, low])) :: events)
  | token {kind : TokenKind} {digits rest : List UInt8} {events : List StreamEvent}
      (all : ∀ d ∈ digits, IsDigit d) (whole : digits.length = kind.digits) (later : Means rest events) :
      Means (kind.byte :: (digits ++ rest)) (kind.opening ++ kind.event (value digits) :: events)
  | shortEnd {digits rest : List UInt8} {byte : UInt8} {events : List StreamEvent}
      (all : ∀ d ∈ digits, IsDigit d) (short : digits.length < TokenKind.crc.digits)
      (stop : ¬ IsDigit byte) (later : Means (byte :: rest) events) :
      Means (TokenKind.crc.byte :: (digits ++ byte :: rest))
        (.transferEnd :: ((if digits = [] then [] else [.trackCrc (.ofNat (value digits))]) ++ events))

namespace Tokenizer

theorem isIdle_iff {t : Tokenizer} : t.isIdle = true ↔ t = {} := by
  rcases t with ⟨_ | token, _ | half⟩ <;> simp [isIdle]

/-- The tokenizer in a token of which some digits have been read. -/
def within (kind : TokenKind) (digits : List UInt8) : Tokenizer :=
  { token := some ⟨kind, digits.length, .ofNat (value digits)⟩ }

theorem push_marker (kind : TokenKind) : ({} : Tokenizer).push kind.byte = (within kind [], kind.opening) := by
  cases kind <;> decide

theorem push_blank {byte : UInt8} (blank : byte = 32 ∨ byte = 9 ∨ byte = 13 ∨ byte = 10) :
    ({} : Tokenizer).push byte = ({}, []) := by
  rcases blank with rfl | rfl | rfl | rfl <;> decide

theorem shift_or (number : ℕ) (byte : UInt8) :
    (UInt32.ofNat number <<< 4) ||| ((digit? byte).getD 0).toUInt32 =
      .ofNat (16 * number + ((digit? byte).getD 0).toNat) := by
  have small := toNat_digit?_lt byte
  have low : (digit? byte).getD 0 &&& 0x0F = (digit? byte).getD 0 := forall_byte (by decide) byte
  have appended := toNat_appendDigit (.ofNat number) ((digit? byte).getD 0)
  rw [appendDigit, low] at appended
  apply UInt32.toNat.inj
  rw [appended, UInt32.toNat_ofNat', UInt32.toNat_ofNat']
  omega

theorem push_digit (kind : TokenKind) (digits : List UInt8) {byte : UInt8} (digit : IsDigit byte) :
    (within kind digits).push byte =
      if digits.length + 1 = kind.digits then ({}, [kind.event (value (digits ++ [byte]))])
      else (within kind (digits ++ [byte]), []) := by
  obtain ⟨d, read⟩ := Option.isSome_iff_exists.mp digit
  have appended := shift_or (value digits) byte
  rw [← value_append, read] at appended
  have grown : (UInt32.ofNat (value digits) <<< 4) ||| d.toUInt32 = .ofNat (value (digits ++ [byte])) := appended
  simp only [push, within, read, grown, TokenKind.meaning_ofNat, List.length_append, List.length_singleton]

theorem push_stop (kind : TokenKind) (digits : List UInt8) {byte : UInt8} (stop : ¬ IsDigit byte) :
    (within kind digits).push byte =
      ((({} : Tokenizer).push byte).1,
        kind.cut digits.length (.ofNat (value digits)) byte ++ (({} : Tokenizer).push byte).2) := by
  have none : digit? byte = none := Option.not_isSome_iff_eq_none.mp stop
  simp only [push, within, none]

theorem feed_digits {kind : TokenKind} {digits more : List UInt8} (all : ∀ d ∈ more, IsDigit d)
    (short : digits.length + more.length < kind.digits) :
    (within kind digits).feed more = (within kind (digits ++ more), []) := by
  induction more generalizing digits with
  | nil => rw [List.append_nil, feed]
  | cons byte more ih =>
    rw [List.forall_mem_cons] at all
    rw [List.length_cons] at short
    have pushed := push_digit kind digits all.1
    rw [if_neg (by omega)] at pushed
    have rest : (within kind (digits ++ [byte])).feed more = (within kind (digits ++ [byte] ++ more), []) :=
      ih all.2 (by simp; omega)
    simp only [feed, pushed, rest, List.append_assoc, List.singleton_append, List.append_nil]

theorem feed_partly {kind : TokenKind} {digits : List UInt8} (all : ∀ d ∈ digits, IsDigit d)
    (short : digits.length < kind.digits) :
    ({} : Tokenizer).feed (kind.byte :: digits) = (within kind digits, kind.opening) := by
  have rest : (within kind []).feed digits = (within kind digits, []) := feed_digits all (by simpa using short)
  simp only [feed, push_marker, rest, List.append_nil]

theorem feed_token {kind : TokenKind} {digits : List UInt8} (all : ∀ d ∈ digits, IsDigit d)
    (whole : digits.length = kind.digits) :
    ({} : Tokenizer).feed (kind.byte :: digits) = ({}, kind.opening ++ [kind.event (value digits)]) := by
  rcases List.eq_nil_or_concat' digits with rfl | ⟨front, last, rfl⟩
  · exact absurd whole (Nat.ne_of_lt kind.digits_pos)
  · rw [List.length_append, List.length_singleton] at whole
    rw [List.forall_mem_append] at all
    have before : ({} : Tokenizer).feed (kind.byte :: front) = (within kind front, kind.opening) :=
      feed_partly all.1 (by omega)
    have pushed := push_digit kind front (all.2 last (List.mem_singleton_self last))
    rw [if_pos whole] at pushed
    rw [← List.cons_append, feed_append, before]
    simp only [feed, pushed, List.append_nil]

theorem error_mem_push_of_half {byte : UInt8} (stop : ¬ IsDigit byte) (high : UInt8) :
    ∃ cause, .error cause ∈ (({ half := some high } : Tokenizer).push byte).2 := by
  have none : digit? byte = none := Option.not_isSome_iff_eq_none.mp stop
  rcases marker : TokenKind.ofMarker? byte with _ | kind
  · by_cases blank : byte = 32 ∨ byte = 9 ∨ byte = 13 ∨ byte = 10
    · exact ⟨.danglingNibble, by simp [push, scan, marker, blank, dangling]⟩
    · exact ⟨.framing byte, by simp [push, scan, marker, blank, none]⟩
  · exact ⟨.danglingNibble, by simp [push, scan, marker, dangling]⟩

theorem push_other {byte : UInt8} (marker : TokenKind.ofMarker? byte = none)
    (blank : ¬ (byte = 32 ∨ byte = 9 ∨ byte = 13 ∨ byte = 10)) (digit : ¬ IsDigit byte) :
    ({} : Tokenizer).push byte = ({}, [.error (.framing byte)]) := by
  have none : digit? byte = none := Option.not_isSome_iff_eq_none.mp digit
  simp only [push, scan, marker, blank, none, if_false]

theorem feed_two {high low : UInt8} (first : IsDigit high) (second : IsDigit low) :
    ({} : Tokenizer).feed [high, low] = ({}, [.payload (.ofNat (value [high, low]))]) := by
  obtain ⟨h, readHigh⟩ := Option.isSome_iff_exists.mp first
  obtain ⟨l, readLow⟩ := Option.isSome_iff_exists.mp second
  have smallHigh := toNat_digit?_lt high
  have smallLow := toNat_digit?_lt low
  rw [readHigh] at smallHigh
  rw [readLow] at smallLow
  have joined : (h <<< 4) ||| l = .ofNat (value [high, low]) := by
    have halves : ∀ a b : Fin 16, (UInt8.ofNat a <<< 4) ||| UInt8.ofNat b = .ofNat (16 * a + b) := by decide
    have both := halves ⟨h.toNat, smallHigh⟩ ⟨l.toNat, smallLow⟩
    simpa [value, readHigh, readLow] using both
  simp only [feed, push_first readHigh, push_second readLow, joined, List.nil_append, List.append_nil]

theorem feed_of_idle {t : Tokenizer} {text : List UInt8} {events : List StreamEvent}
    (read : t.feed text = ({}, events)) (rest : List UInt8) :
    t.feed (text ++ rest) = ((({} : Tokenizer).feed rest).1, events ++ (({} : Tokenizer).feed rest).2) := by
  rw [feed_append, read]

theorem feed_cut {kind : TokenKind} {digits : List UInt8} (all : ∀ d ∈ digits, IsDigit d)
    (short : digits.length < kind.digits) {byte : UInt8} (stop : ¬ IsDigit byte) (rest : List UInt8) :
    ({} : Tokenizer).feed (kind.byte :: (digits ++ byte :: rest)) =
      ((({} : Tokenizer).feed (byte :: rest)).1,
        kind.opening ++ kind.cut digits.length (.ofNat (value digits)) byte ++
          (({} : Tokenizer).feed (byte :: rest)).2) := by
  rw [← List.cons_append, feed_append, feed_partly all short]
  simp only [feed, push_stop kind digits stop, List.append_assoc]

end Tokenizer

open Tokenizer

def Clean (bytes : List UInt8) (events : List StreamEvent) : Prop :=
  ({} : Tokenizer).feed bytes = ({}, events) ∧ ∀ cause, .error cause ∉ events

namespace Clean
variable {bytes rest : List UInt8} {events first : List StreamEvent}

theorem split (clean : Clean bytes events)
    (read : ({} : Tokenizer).feed bytes = ((({} : Tokenizer).feed rest).1, first ++ (({} : Tokenizer).feed rest).2)) :
    (∀ cause, .error cause ∉ first) ∧ ∃ later, events = first ++ later ∧ Clean rest later := by
  obtain ⟨idle, rfl⟩ := Prod.mk.inj (read.symm.trans clean.1)
  have both (cause : FetchError) := mt List.mem_append.mpr (clean.2 cause)
  refine ⟨fun cause mem => both cause (.inl mem), _, rfl, Prod.ext idle rfl, fun cause mem => both cause (.inr mem)⟩

theorem not_error_push {byte : UInt8} {t : Tokenizer} (read : t.feed (byte :: rest) = ({}, events))
    (clean : ∀ cause, .error cause ∉ events) (cause : FetchError) : .error cause ∉ (t.push byte).2 := by
  obtain ⟨-, rfl⟩ := Prod.mk.inj read
  exact fun mem => clean cause (List.mem_append_left _ mem)

theorem of_digit {byte : UInt8} (clean : Clean (byte :: rest) events) (first : IsDigit byte) :
    ∃ low after later, rest = low :: after ∧ IsDigit low ∧
      events = .payload (.ofNat (value [byte, low])) :: later ∧ Clean after later := by
  obtain ⟨high, readHigh⟩ := Option.isSome_iff_exists.mp first
  have held : ({ half := some high } : Tokenizer).feed rest = ({}, events) := by
    have read := clean.1
    simp only [feed, push_first readHigh, List.nil_append] at read
    exact read
  rcases rest with _ | ⟨low, after⟩
  · exact absurd (congrArg (fun result => result.1.half) held) (by simp [feed])
  by_cases second : IsDigit low
  · obtain ⟨-, later, rfl, rest⟩ := clean.split (feed_of_idle (feed_two first second) after)
    exact ⟨low, after, later, rfl, second, rfl, rest⟩
  · obtain ⟨cause, mem⟩ := error_mem_push_of_half second high
    exact absurd mem (not_error_push held clean.2 cause)

end Clean

/-- What is well formed is read without an error, and to its end. -/
theorem Means.clean {bytes : List UInt8} {events : List StreamEvent} (means : Means bytes events) :
    Clean bytes events := by
  induction means with
  | nil => exact ⟨rfl, by simp⟩
  | blank blank later ih =>
    refine ⟨?_, ih.2⟩
    simp only [Tokenizer.feed, push_blank blank, ih.1, List.nil_append]
  | payload first second later ih =>
    refine ⟨?_, by simpa using ih.2⟩
    exact (feed_of_idle (feed_two first second) _).trans (by rw [ih.1]; rfl)
  | @token kind digits rest events all whole later ih =>
    constructor
    · rw [← List.cons_append, feed_of_idle (feed_token all whole), ih.1, List.append_assoc]
      rfl
    · cases kind <;> simpa [TokenKind.opening, TokenKind.event] using ih.2
  | @shortEnd digits rest byte events all short stop later ih =>
    constructor
    · rw [feed_cut all short stop, ih.1]
      cases digits <;> rfl
    · cases digits <;> simpa using ih.2

theorem means_of_marker {kind : TokenKind} {rest : List UInt8} {events : List StreamEvent}
    (clean : Clean (kind.byte :: rest) events)
    (shorter : ∀ after later, after.length ≤ rest.length → Clean after later → Means after later) :
    Means (kind.byte :: rest) events := by
  obtain ⟨digits, after, rfl, all, short, longest⟩ := exists_digits kind.digits rest
  rcases Nat.lt_or_eq_of_le short with fewer | whole
  · rcases after with _ | ⟨next, after⟩
    · have stuck := (feed_partly all fewer).symm.trans (List.append_nil digits ▸ clean.1)
      exact absurd (congrArg (fun result => result.1.token) stuck) (by simp [within])
    have stop : ¬ IsDigit next := longest.resolve_left (Nat.ne_of_lt fewer) next rfl
    obtain ⟨quiet, later, rfl, rest⟩ := clean.split (feed_cut all fewer stop after)
    obtain rfl : kind = .crc := by
      by_contra other
      exact quiet _ (List.mem_append_right _ (TokenKind.error_mem_cut other _ _ _))
    have means := shorter (next :: after) later (by simp) rest
    rw [TokenKind.cut_crc, List.append_assoc]
    exact .shortEnd all fewer stop means
  · obtain ⟨-, later, rfl, rest⟩ := clean.split (feed_of_idle (feed_token all whole) after)
    rw [List.append_assoc]
    exact .token all whole (shorter after later (by simp) rest)

/-- What is read without an error and to its end is well formed. -/
theorem Clean.means {bytes : List UInt8} {events : List StreamEvent} (clean : Clean bytes events) :
    Means bytes events := by
  induction length : bytes.length using Nat.strong_induction_on generalizing bytes events with | _ n ih =>
  rcases bytes with _ | ⟨byte, rest⟩
  · obtain rfl : [] = events := congrArg Prod.snd clean.1
    exact .nil
  have shorter (after : List UInt8) (later : List StreamEvent) (less : after.length ≤ rest.length)
      (clean : Clean after later) : Means after later :=
    ih after.length (by rw [← length, List.length_cons]; omega) clean rfl
  rcases marker : TokenKind.ofMarker? byte with _ | kind
  · by_cases blank : byte = 32 ∨ byte = 9 ∨ byte = 13 ∨ byte = 10
    · have idle : ({} : Tokenizer).feed [byte] = ({}, []) := by
        simp only [Tokenizer.feed, push_blank blank, List.append_nil]
      obtain ⟨-, later, same, clean⟩ := clean.split (feed_of_idle idle rest)
      exact same ▸ .blank blank (shorter rest later le_rfl clean)
    by_cases first : IsDigit byte
    · obtain ⟨low, after, later, rfl, second, rfl, rest⟩ := clean.of_digit first
      exact .payload first second (shorter after later (Nat.le_succ _) rest)
    · have mem : .error (.framing byte) ∈ (({} : Tokenizer).push byte).2 := by simp [push_other marker blank first]
      exact absurd mem (not_error_push clean.1 clean.2 _)
  · obtain rfl := TokenKind.ofMarker?_eq_some_iff.mp marker
    exact means_of_marker clean shorter

def WellFormed (bytes : List UInt8) : Prop := ∃ events, Means bytes events

/-- The tokenizer accepts exactly what is well formed, and hears what it means. -/
theorem accepts_iff_wellFormed {t : Tokenizer} (idle : t.isIdle = true) (bytes : List UInt8) :
    (((t.feed bytes).1.isIdle = true ∧ ∀ cause, .error cause ∉ (t.feed bytes).2) ↔ WellFormed bytes) ∧
      ∀ events, Means bytes events → (t.feed bytes).2 = events := by
  obtain rfl := isIdle_iff.mp idle
  refine ⟨⟨?_, ?_⟩, ?_⟩
  · rintro ⟨ends, quiet⟩
    exact ⟨_, Clean.means ⟨Prod.ext (isIdle_iff.mp ends) rfl, quiet⟩⟩
  · rintro ⟨events, means⟩
    rw [means.clean.1]
    exact ⟨rfl, means.clean.2⟩
  · intro events means
    rw [means.clean.1]

/-- A disk is announced, and a transfer ends with a short CRC. -/
theorem accepts_iff_wellFormed_announcement :
    ({} : Tokenizer).isIdle = true ∧
      Means [64, 102, 101, 32, 42, 49, 102, 10] [.volume 0xFE, .transferEnd, .trackCrc 0x1F] := by
  have read : ({} : Tokenizer).feed [64, 102, 101, 32, 42, 49, 102, 10] =
      ({}, [.volume 0xFE, .transferEnd, .trackCrc 0x1F]) := by decide
  have accepts := accepts_iff_wellFormed (t := {}) rfl [64, 102, 101, 32, 42, 49, 102, 10]
  rw [read] at accepts
  obtain ⟨events, means⟩ := accepts.1.mp ⟨rfl, by simp⟩
  obtain rfl := accepts.2 events means
  exact ⟨rfl, means⟩

end Fetch
end Floppy
