import Floppy.Ascii
import Floppy.Proofs.Byte
import Floppy.Proofs.ImageSource

/-!
# How requests are spelled

A line is read as a request if it is the marker with two or three hex digits, with any white space around them, and in
no other case. It makes no difference whether the digits are counted by characters or by the bytes of the text. Of all
lines that are read as the same request one is the line that is sent for it.
-/
namespace Floppy

namespace Text

theorem exists_trim (line : List Char) : ∃ before after, line = before ++ trim line ++ after ∧
    (∀ c ∈ before, isBlank c = true) ∧ ∀ c ∈ after, isBlank c = true := by
  have blanks (text : List Char) : ∀ c ∈ text.takeWhile isBlank, isBlank c = true :=
    fun c mem => List.all_eq_true.mp List.all_takeWhile c mem
  let left := trimLeft line
  refine ⟨line.takeWhile isBlank, (left.reverse.takeWhile isBlank).reverse, ?_, blanks line, fun c mem => ?_⟩
  · have back : trim line ++ (left.reverse.takeWhile isBlank).reverse = left := by
      rw [trim, trimRight, trimLeft, ← List.reverse_append, List.takeWhile_append_dropWhile, List.reverse_reverse]
    rw [List.append_assoc, back]
    exact List.takeWhile_append_dropWhile.symm
  · exact blanks left.reverse c (List.mem_reverse.mp mem)

theorem trim_surrounded {before after : List Char} (ahead : ∀ c ∈ before, isBlank c = true)
    (behind : ∀ c ∈ after, isBlank c = true) (text : List Char) : trim (before ++ text ++ after) = trim text := by
  have front : trim (before ++ text ++ after) = trim (text ++ after) := by
    rw [trim, trimLeft, List.append_assoc, List.dropWhile_append_of_pos ahead, ← trimLeft, ← trim]
  rw [front]
  clear front
  induction after using List.reverseRecOn with
  | nil => rw [List.append_nil]
  | append_singleton after c ih =>
    rw [← List.append_assoc, trim_append_blank _ (behind c (by simp))]
    exact ih fun c mem => behind c (List.mem_append_left _ mem)

end Text

namespace Hex

/-- A digit of either case, in the order of the values. -/
inductive Denotes (c : Char) (value : UInt8) : Prop
  | lower (digit : "0123456789abcdef".toList[value.toNat]? = some c)
  | upper (digit : "0123456789ABCDEF".toList[value.toNat]? = some c)

theorem charDigit?_eq_some_iff {c : Char} {value : UInt8} : charDigit? c = some value ↔ Denotes c value := by
  constructor
  · intro read
    have table : ∀ b : UInt8, (digit? b).all fun v =>
        "0123456789abcdef".toList[v.toNat]? = some (Char.ofNat b.toNat) ∨
          "0123456789ABCDEF".toList[v.toNat]? = some (Char.ofNat b.toNat) := forall_byte (by decide)
    unfold charDigit? at read
    split at read
    case isTrue ascii =>
      have found := table (UInt8.ofNat c.toNat)
      have small : c.toNat < 256 := by omega
      rw [read, Option.all_some, decide_eq_true_eq, UInt8.toNat_ofNat_of_lt' small, Char.ofNat_toNat] at found
      exact found.elim .lower .upper
    case isFalse => cases read
  · have table : ∀ digits ∈ ["0123456789abcdef".toList, "0123456789ABCDEF".toList], ∀ n < digits.length,
        digits[n]?.bind charDigit? = some (UInt8.ofNat n) := by decide
    intro denotes
    have found (digits : List Char) (mem : digits ∈ ["0123456789abcdef".toList, "0123456789ABCDEF".toList])
        (digit : digits[value.toNat]? = some c) : charDigit? c = some value := by
      have read := table digits mem value.toNat (List.getElem?_eq_some_iff.mp digit).1
      rwa [digit, Option.bind_some, UInt8.ofNat_toNat] at read
    cases denotes with
    | lower digit => exact found _ (by simp) digit
    | upper digit => exact found _ (by simp) digit

theorem join_denotes {a b : Char} {high low : UInt8} (first : Denotes a high) (second : Denotes b low) :
    (high <<< 4) ||| low = 16 * high + low := by
  have table : ∀ m < 16, ∀ n < 16, (UInt8.ofNat m <<< 4) ||| UInt8.ofNat n = 16 * UInt8.ofNat m + UInt8.ofNat n := by
    decide
  have small {c : Char} {value : UInt8} (denotes : Denotes c value) : value.toNat < 16 := by
    cases denotes with
    | lower digit => exact (List.getElem?_eq_some_iff.mp digit).1
    | upper digit => exact (List.getElem?_eq_some_iff.mp digit).1
  have joined := table _ (small first) _ (small second)
  rwa [UInt8.ofNat_toNat, UInt8.ofNat_toNat] at joined

/-- The bytes of a digit's text are the digit itself; no other text begins with a digit, or is it. -/
theorem utf8EncodeChar_cases (c : Char) :
    (∃ byte, String.utf8EncodeChar c = [byte] ∧ charDigit? c = digit? byte) ∨
      ∃ byte second more, String.utf8EncodeChar c = byte :: second :: more ∧ charDigit? c = none ∧
        digit? byte = none := by
  have beyond (n : ℕ) (low : 128 ≤ n) (high : n < 256) : digit? (UInt8.ofNat n) = none := by
    have value : (UInt8.ofNat n).toNat = n := UInt8.toNat_ofNat_of_lt' high
    unfold digit?
    simp only [UInt8.le_iff_toNat_le, value]
    rw [if_neg, if_neg, if_neg] <;>
      · rintro ⟨-, le⟩
        simp at le
        omega
  unfold String.utf8EncodeChar
  have ascii : c.toNat = c.val.toNat := rfl
  dsimp only
  by_cases one : c.val.toNat ≤ 127
  · rw [if_pos one]
    exact .inl ⟨_, rfl, by rw [charDigit?, if_pos (by omega), ascii]⟩
  · rw [if_neg one]
    have none : charDigit? c = none := by rw [charDigit?, if_neg (by omega)]
    right
    split
    · exact ⟨_, _, _, rfl, none, beyond _ (by omega) (by omega)⟩
    · split
      · exact ⟨_, _, _, rfl, none, beyond _ (by omega) (by omega)⟩
      · exact ⟨_, _, _, rfl, none, beyond _ (by omega) (by omega)⟩

end Hex

namespace Fetch.Request
open Hex (Denotes)

/-- The marker, a track in two digits, and for a sector of the track a third. -/
inductive Spells : List Char → Request → Prop
  | track {a b : Char} {high low : UInt8} (first : Denotes a high) (second : Denotes b low) :
      Spells ['<', a, b] ⟨16 * high + low, none⟩
  | sector {a b c : Char} {high low number : UInt8} (first : Denotes a high) (second : Denotes b low)
      (third : Denotes c number) : Spells ['<', a, b, c] ⟨16 * high + low, some number⟩

/-- The digits of a request by the bytes of their text: they are looked up by their place, before the bytes are
counted. -/
def ofBytes? (bytes : List UInt8) : Option Request := do
  let high ← bytes[0]?.bind Hex.digit?
  let low ← bytes[1]?.bind Hex.digit?
  let track := (high <<< 4) ||| low
  match bytes.length with
  | 2 => return ⟨track, none⟩
  | 3 => return ⟨track, some (← bytes[2]?.bind Hex.digit?)⟩
  | _ => none

/-- The whole line so, with the bytes behind its marker. -/
def parseBytes? (line : List Char) : Option Request :=
  match Text.trim line with
  | '<' :: digits => ofBytes? (digits.flatMap String.utf8EncodeChar)
  | _ => none

theorem ofDigits?_of_first {a : Char} (none : Hex.charDigit? a = none) (rest : List Char) :
    ofDigits? (a :: rest) = Option.none := by
  unfold ofDigits?
  split <;> simp_all

theorem ofDigits?_of_second {b : Char} (none : Hex.charDigit? b = none) (a : Char) (rest : List Char) :
    ofDigits? (a :: b :: rest) = Option.none := by
  unfold ofDigits?
  split <;> simp_all

theorem ofBytes?_of_first {x : UInt8} (none : Hex.digit? x = none) (rest : List UInt8) :
    ofBytes? (x :: rest) = Option.none := by
  simp [ofBytes?, none]

theorem ofBytes?_of_second {y : UInt8} (none : Hex.digit? y = none) (x : UInt8) (rest : List UInt8) :
    ofBytes? (x :: y :: rest) = Option.none := by
  simp [ofBytes?, none]

theorem ofBytes?_of_long {bytes : List UInt8} (long : 3 < bytes.length) : ofBytes? bytes = none := by
  have many : bytes.length ≠ 2 ∧ bytes.length ≠ 3 := by omega
  simp [ofBytes?, many]

/-- Characters and bytes come to the same: no digit is a part of a longer text. -/
theorem ofDigits?_eq_ofBytes? (digits : List Char) :
    ofDigits? digits = ofBytes? (digits.flatMap String.utf8EncodeChar) := by
  rcases digits with _ | ⟨a, rest⟩
  · rfl
  obtain ⟨x, text, first⟩ | ⟨x, x', more, text, first, none⟩ := Hex.utf8EncodeChar_cases a
  case inr =>
    rw [List.flatMap_cons, text, List.cons_append, ofBytes?_of_first none, ofDigits?_of_first first]
  rw [List.flatMap_cons, text, List.singleton_append]
  rcases rest with _ | ⟨b, rest⟩
  · simp [ofDigits?, ofBytes?]
  obtain ⟨y, text, second⟩ | ⟨y, y', more, text, second, none⟩ := Hex.utf8EncodeChar_cases b
  case inr =>
    rw [List.flatMap_cons, text, List.cons_append, ofBytes?_of_second none, ofDigits?_of_second second]
  rw [List.flatMap_cons, text, List.singleton_append]
  rcases rest with _ | ⟨c, rest⟩
  · simp [ofDigits?, ofBytes?, first, second]
  obtain ⟨z, text, third⟩ | ⟨z, z', more, text, third, -⟩ := Hex.utf8EncodeChar_cases c
  case inr =>
    rw [List.flatMap_cons, text, ofBytes?_of_long (by simp)]
    cases rest with
    | nil => simp [ofDigits?, third]
    | cons => rfl
  rw [List.flatMap_cons, text, List.singleton_append]
  cases rest with
  | nil => simp [ofDigits?, ofBytes?, first, second, third]
  | cons d rest =>
    obtain ⟨w, text, -⟩ | ⟨w, w', more, text, -⟩ := Hex.utf8EncodeChar_cases d <;>
      exact (ofBytes?_of_long (by simp [text])).symm

theorem parse?_eq_parseBytes? (line : List Char) : parse? line = parseBytes? line := by
  have same : ofDigits? = fun digits => ofBytes? (digits.flatMap String.utf8EncodeChar) :=
    funext ofDigits?_eq_ofBytes?
  rw [parse?, same]
  rfl

theorem Spells.trim {text : List Char} {request : Request} (spells : Spells text request) : Text.trim text = text := by
  have solid {c : Char} {value : UInt8} (denotes : Denotes c value) : Text.isBlank c = false := by
    have table : ("0123456789abcdef".toList ++ "0123456789ABCDEF".toList).all (!Text.isBlank ·) = true := by decide
    have mem : c ∈ "0123456789abcdef".toList ++ "0123456789ABCDEF".toList := by
      cases denotes with
      | lower digit => exact List.mem_append_left _ (List.mem_of_getElem? digit)
      | upper digit => exact List.mem_append_right _ (List.mem_of_getElem? digit)
    simpa only [Bool.not_eq_true'] using List.all_eq_true.mp table c mem
  cases spells with
  | @track a b _ _ _ second => exact Text.trim_of_ends '<' b (by decide) (solid second) [a]
  | @sector a b c _ _ _ _ _ third => exact Text.trim_of_ends '<' c (by decide) (solid third) [a, b]

theorem Spells.ofDigits? {digits : List Char} {request : Request} :
    ofDigits? digits = some request ↔ Spells ('<' :: digits) request := by
  constructor
  · intro read
    unfold Request.ofDigits? at read
    split at read
    case h_1 a b =>
      simp only [Option.pure_def, Option.bind_eq_bind, Option.bind_eq_some_iff, Option.some.injEq] at read
      obtain ⟨high, first, low, second, rfl⟩ := read
      have first := Hex.charDigit?_eq_some_iff.mp first
      have second := Hex.charDigit?_eq_some_iff.mp second
      rw [Hex.join_denotes first second]
      exact .track first second
    case h_2 a b c =>
      simp only [Option.pure_def, Option.bind_eq_bind, Option.bind_eq_some_iff, Option.some.injEq] at read
      obtain ⟨high, first, low, second, number, third, rfl⟩ := read
      have first := Hex.charDigit?_eq_some_iff.mp first
      have second := Hex.charDigit?_eq_some_iff.mp second
      rw [Hex.join_denotes first second]
      exact .sector first second (Hex.charDigit?_eq_some_iff.mp third)
    case h_3 => cases read
  · intro spells
    cases spells with
    | track first second =>
      rw [← Hex.join_denotes first second]
      simp [Request.ofDigits?, Hex.charDigit?_eq_some_iff.mpr first, Hex.charDigit?_eq_some_iff.mpr second]
    | sector first second third =>
      rw [← Hex.join_denotes first second]
      simp [Request.ofDigits?, Hex.charDigit?_eq_some_iff.mpr first, Hex.charDigit?_eq_some_iff.mpr second,
        Hex.charDigit?_eq_some_iff.mpr third]

theorem parse?_eq_some_iff {line : List Char} {request : Request} :
    parse? line = some request ↔ Spells (Text.trim line) request := by
  unfold parse?
  split
  case h_1 digits same =>
    rw [same]
    exact Spells.ofDigits?
  case h_2 other =>
    refine iff_of_false nofun fun spells => ?_
    generalize Text.trim line = text at other spells
    cases spells with
    | track => exact other _ rfl
    | sector => exact other _ rfl

/-- What is sent of a request: the low four bits of the sector number. -/
def sent (request : Request) : Request := { request with sector := request.sector.map (· &&& 0x0F) }

theorem encode_sent (request : Request) : request.sent.encode = request.encode := by
  have low : ∀ n : UInt8, Hex.digit (n &&& 0x0F) = Hex.digit n := forall_byte (by decide)
  rcases request with ⟨track, _ | sector⟩
  · rfl
  · simp [encode, sent, low]

theorem parse?_text (request : Request) : parse? (Ascii.text request.encode).toList = some request.sent := by
  have ascii : ∀ b ∈ request.encode, b < 0x80 := by
    rcases request with ⟨track, _ | sector⟩ <;> simp [encode, Hex.pair, Hex.digit_lt]
  rw [Ascii.text, String.toList_ofList, ← Text.Utf8.decodeLossy_ascii _ ascii]
  exact request.parse?_encode

theorem sent_of_parse? {line : List Char} {request : Request} (read : parse? line = some request) :
    request.sent = request := by
  rcases request with ⟨track, _ | sector⟩
  · rfl
  · rw [sent, Option.map_some, low_of_parse? read]

/-- A line is read as a request if, but for white space, it is a spelling of the request, and in no other case; its
digits may as well be counted by their bytes. The line that is sent for a request is read as what was sent. What is read
from any line is sent as a line that is read as the same, and there is no other such line. -/
theorem reads_spelled :
    (∀ line request, parse? line = some request ↔ ∃ before text after, line = before ++ text ++ after ∧
      (∀ c ∈ before, Text.isBlank c = true) ∧ (∀ c ∈ after, Text.isBlank c = true) ∧ Spells text request) ∧
    (∀ line, parse? line = parseBytes? line) ∧
    (∀ request : Request, parse? (Ascii.text request.encode).toList =
      some ⟨request.track, request.sector.map (· &&& 0x0F)⟩) ∧
    ∀ line request, parse? line = some request →
      parse? (Ascii.text request.encode).toList = some request ∧
        ∀ other : Request, parse? (Ascii.text other.encode).toList = some request → other.encode = request.encode := by
  refine ⟨fun line request => ?_, parse?_eq_parseBytes?, parse?_text, fun line request read => ⟨?_, ?_⟩⟩
  · rw [parse?_eq_some_iff]
    constructor
    · intro spells
      obtain ⟨before, after, whole, ahead, behind⟩ := Text.exists_trim line
      exact ⟨before, _, after, whole, ahead, behind, spells⟩
    · rintro ⟨before, text, after, rfl, ahead, behind, spells⟩
      rwa [Text.trim_surrounded ahead behind, spells.trim]
  · rw [parse?_text, sent_of_parse? read]
  · intro other same
    rw [parse?_text, Option.some_inj] at same
    rw [← same, encode_sent]

/-- Upper case between blanks of other scripts, and the one line that is sent for it. -/
theorem reads_spelled_upper :
    let line := ['\u3000', '<', '0', 'A', 'F', '\u2003', '\n']
    parse? line = some ⟨10, some 15⟩ ∧ parse? (Ascii.text (encode ⟨10, some 15⟩)).toList = some ⟨10, some 15⟩ ∧
      ∀ other : Request, parse? (Ascii.text other.encode).toList = some ⟨10, some 15⟩ →
        other.encode = encode ⟨10, some 15⟩ := by
  intro line
  have read : parse? line = some ⟨10, some 15⟩ := by decide
  obtain ⟨-, -, -, canonical⟩ := reads_spelled
  exact ⟨read, canonical line _ read⟩

/-- A letter beyond ASCII is one character and two bytes, and no digit either way; blanks inside are none of the
white space around. -/
example : parse? ['<', '0', '1', 'é'] = none ∧ parse? ['<', '0', ' ', '1'] = none ∧
    parse? ['<', '0', '1', '2', '3'] = none := by decide

end Fetch.Request
end Floppy
