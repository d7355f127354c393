import Floppy.ImageSource
import Floppy.Proofs.Cache
import Floppy.Proofs.Fetch.Stream

/-!
# What the source of an image answers

The line that a client sends for a request is read as this very request, wherever it is cut, and the answer
carries the sectors that were asked for, each with its bytes on the image.
-/
namespace Floppy
open Fetch

theorem Text.trim_of_ends (first last : Char) (opens : isBlank first = false) (closes : isBlank last = false)
    (inner : List Char) : trim (first :: (inner ++ [last])) = first :: (inner ++ [last]) := by
  have left (c : Char) (rest : List Char) (solid : isBlank c = false) : trimLeft (c :: rest) = c :: rest := by
    simp [trimLeft, solid]
  rw [trim, left first _ opens, trimRight, List.reverse_cons, List.reverse_append, List.reverse_singleton,
    List.singleton_append, List.cons_append, left last _ closes]
  simp

theorem Text.trim_append_blank (text : List Char) {c : Char} (blank : isBlank c = true) :
    trim (text ++ [c]) = trim text := by
  rw [trim, trim, trimLeft, List.dropWhile_append]
  cases kept : text.dropWhile isBlank with
  | nil => simp [blank, trimLeft, trimRight, kept]
  | cons first rest => simp [trimLeft, trimRight, kept, blank]

namespace Text.Utf8

theorem scan_ascii (bytes : List UInt8) (ascii : ∀ b ∈ bytes, b < 0x80) :
    scan bytes = bytes.map fun b => some (Char.ofNat b.toNat) := by
  induction bytes with
  | nil => rw [scan, List.map_nil]
  | cons b rest ih =>
    have first : step b rest = (some (Char.ofNat b.toNat), 0) := by
      have width : width b = 1 := if_pos (ascii b (by simp))
      simp [step, width]
    rw [scan, first, List.drop_zero, ih fun c mem => ascii c (List.mem_cons_of_mem _ mem), List.map_cons]

theorem decodeLossy_ascii (bytes : List UInt8) (ascii : ∀ b ∈ bytes, b < 0x80) :
    decodeLossy bytes = bytes.map fun b => Char.ofNat b.toNat := by
  rw [decodeLossy, scan_ascii bytes ascii, List.map_map]
  rfl

end Text.Utf8

namespace Hex

theorem digit_lt (n : UInt8) : digit n < 0x80 := forall_byte (by decide) n

theorem charDigit?_digit (n : UInt8) : charDigit? (Char.ofNat (digit n).toNat) = some (n &&& 0x0F) :=
  forall_byte (by decide) n

theorem isBlank_digit (n : UInt8) : Text.isBlank (Char.ofNat (digit n).toNat) = false :=
  forall_byte (by decide) n

theorem digit_ne_end (n : UInt8) : digit n ≠ 10 ∧ digit n ≠ 13 := forall_byte (by decide) n

theorem low_of_digit? (c : UInt8) : (digit? c).map (· &&& 0x0F) = digit? c := forall_byte (by decide) c

theorem low_of_charDigit? {c : Char} {d : UInt8} (read : charDigit? c = some d) : d &&& 0x0F = d := by
  unfold charDigit? at read
  split at read
  case isTrue =>
    have low := low_of_digit? (UInt8.ofNat c.toNat)
    rw [read] at low
    exact Option.some.inj low
  case isFalse => cases read

end Hex

namespace Fetch.Request

def line (request : Request) : List UInt8 :=
  60 :: Hex.pair request.track ++ request.sector.toList.map Hex.digit

theorem encode_eq (request : Request) : request.encode = request.line ++ [10] := rfl

def sectors (request : Request) : List UInt8 :=
  match request.sector with
  | some sector => [sector &&& 0x0F]
  | none => (List.range sectorsPerTrack).map UInt8.ofNat

theorem low_of_mem_sectors {request : Request} {number : UInt8} (mem : number ∈ request.sectors) :
    number &&& 0x0F = number := by
  rcases request with ⟨track, _ | sector⟩
  · obtain ⟨n, low, rfl⟩ := List.mem_map.mp mem
    have table : ∀ n ∈ List.range sectorsPerTrack, UInt8.ofNat n &&& 0x0F = UInt8.ofNat n := by decide
    exact table n low
  · rw [List.mem_singleton.mp mem, UInt8.and_assoc]
    rfl

theorem parse?_line (request : Request) :
    parse? (Text.Utf8.decodeLossy request.line) =
      some ⟨request.track, request.sector.map (· &&& 0x0F)⟩ := by
  have ascii : ∀ b ∈ request.line, b < 0x80 := by
    rcases request with ⟨track, _ | sector⟩ <;> simp [line, Hex.pair, Hex.digit_lt]
  have solid := Hex.isBlank_digit
  have value := Hex.charDigit?_digit
  rw [Text.Utf8.decodeLossy_ascii _ ascii]
  rcases request with ⟨track, _ | sector⟩
  · have trimmed :=
      Text.trim_of_ends '<' _ (by decide) (solid track) [Char.ofNat (Hex.digit (track >>> 4)).toNat]
    have text : (line ⟨track, none⟩).map (fun b => Char.ofNat b.toNat) =
        '<' :: ([Char.ofNat (Hex.digit (track >>> 4)).toNat] ++ [Char.ofNat (Hex.digit track).toNat]) := rfl
    rw [text, parse?, trimmed]
    simp [ofDigits?, value, Hex.join_halves]
  · have trimmed := Text.trim_of_ends '<' _ (by decide) (solid sector)
      [Char.ofNat (Hex.digit (track >>> 4)).toNat, Char.ofNat (Hex.digit track).toNat]
    have text : (line ⟨track, some sector⟩).map (fun b => Char.ofNat b.toNat) =
        '<' :: ([Char.ofNat (Hex.digit (track >>> 4)).toNat, Char.ofNat (Hex.digit track).toNat] ++
          [Char.ofNat (Hex.digit sector).toNat]) := rfl
    rw [text, parse?, trimmed]
    simp [ofDigits?, value, Hex.join_halves]

theorem parse?_encode (request : Request) :
    parse? (Text.Utf8.decodeLossy request.encode) =
      some ⟨request.track, request.sector.map (· &&& 0x0F)⟩ := by
  have ascii : ∀ b ∈ request.encode, b < 0x80 := by
    rcases request with ⟨track, _ | sector⟩ <;> simp [encode, Hex.pair, Hex.digit_lt]
  have inside : ∀ b ∈ request.line, b < 0x80 := fun b mem => ascii b (List.mem_append_left _ mem)
  rw [← parse?_line, Text.Utf8.decodeLossy_ascii _ ascii, Text.Utf8.decodeLossy_ascii _ inside, encode_eq,
    List.map_append, List.map_singleton, parse?, Text.trim_append_blank _ (by decide), parse?]

theorem low_of_parse? {line : List Char} {track sector : UInt8} (read : parse? line = some ⟨track, some sector⟩) :
    sector &&& 0x0F = sector := by
  unfold parse? at read
  split at read
  case h_1 digits _ =>
    unfold ofDigits? at read
    split at read
    case h_1 => simp [Option.bind_eq_some_iff] at read
    case h_2 c =>
      simp only [Option.bind_eq_bind, Option.bind_eq_some_iff, Option.pure_def, Option.some.injEq, mk.injEq] at read
      obtain ⟨_, -, _, -, digit, value, -, rfl⟩ := read
      exact Hex.low_of_charDigit? value
    case h_3 => cases read
  case h_2 => cases read

def isPastEnd (request : Request) : Bool := trackCount ≤ request.track.toNat

end Fetch.Request

theorem Sector.toList_ofArray {bytes : Array UInt8} (size : bytes.size = sectorSize) :
    (ofArray bytes).toList = bytes.toList := by
  apply List.ext_getElem
  · simp [size]
  · intro i small inside
    simp only [Array.length_toList] at inside
    simp [ofArray, inside]

theorem flatMap_range_slice {α : Type} (list : List α) (length count : ℕ) :
    (List.range count).flatMap (fun i => (list.drop (length * i)).take length) = list.take (length * count) := by
  induction count with
  | zero => simp
  | succ count ih =>
    rw [List.range_succ, List.flatMap_append, ih, List.flatMap_singleton, Nat.mul_succ, List.take_add]

namespace Image

theorem isSome_sector? (image : Image) {track : UInt8} (h : track.toNat < trackCount) (sector : UInt8) :
    (image.sector? track sector).isSome = true := by
  have place := sectorIndex_lt sector
  have fits : imageOffset track sector + sectorSize ≤ diskSize := by
    simp only [imageOffset, trackSize, diskSize, sectorsPerTrack, sectorSize, trackCount] at *
    omega
  simp [sector?, sectorAt?, fits]

theorem sector?_congr (image : Image) (track : UInt8) {a b : UInt8} (same : sectorIndex a = sectorIndex b) :
    image.sector? track a = image.sector? track b := by
  have offset : imageOffset track a = imageOffset track b := by rw [imageOffset, imageOffset, same]
  rw [sector?, sectorAt?, offset]
  rfl

theorem toList_sector (image : Image) {track : UInt8} (h : track.toNat < trackCount) (sector : UInt8) :
    ((image.sector? track sector).getD .zero).toList =
      (image.toList.drop (imageOffset track sector)).take sectorSize := by
  have place := sectorIndex_lt sector
  have fits : imageOffset track sector + sectorSize ≤ diskSize := by
    simp only [imageOffset, trackSize, diskSize, sectorsPerTrack, sectorSize, trackCount] at *
    omega
  have read : image.sector? track sector = some (.ofArray
      (image.toArray.extract (imageOffset track sector) (imageOffset track sector + sectorSize))) := by
    simp [sector?, sectorAt?, fits]
  have size : (image.toArray.extract (imageOffset track sector)
      (imageOffset track sector + sectorSize)).size = sectorSize := by
    rw [Array.size_extract, image.size_toArray, Nat.min_eq_left fits, Nat.add_sub_cancel_left]
  rw [read, Option.getD_some, Sector.toList_ofArray size, Array.toList_extract, List.extract_eq_take_drop,
    Nat.add_sub_cancel_left]
  rfl

/-- The sectors of a track in the order of their numbers are the bytes of the track. -/
theorem flatMap_sector (image : Image) {track : UInt8} (h : track.toNat < trackCount) :
    ((List.range sectorsPerTrack).map UInt8.ofNat).flatMap
        (fun number => ((image.sector? track number).getD .zero).toList) =
      (image.trackBytes track).toList := by
  have start : imageOffset track 0 = track.toNat * trackSize := by simp [imageOffset, sectorIndex]
  have piece (number : ℕ) (low : number ∈ List.range sectorsPerTrack) :
      ((image.sector? track (UInt8.ofNat number)).getD .zero).toList =
        ((image.toList.drop (imageOffset track 0)).drop (sectorSize * number)).take sectorSize := by
    have below : number < 16 := List.mem_range.mp low
    have index : (sectorIndex (UInt8.ofNat number)).val = number := by
      simp only [sectorIndex, UInt8.toNat_ofNat']
      omega
    rw [image.toList_sector h, List.drop_drop, start, imageOffset, index, Nat.mul_comm number]
  rw [List.flatMap_map, List.flatMap_congr piece, flatMap_range_slice, trackBytes, Array.toList_extract,
    List.extract_eq_take_drop, Nat.add_sub_cancel_left]
  rfl

end Image

namespace TrackLine
variable {track : UInt8}

theorem sector?_commitAll_image (line : TrackLine) (image : Image) {volume : UInt8}
    (tag : line.tag = (some track, volume)) (onDisk : track.toNat < trackCount) {numbers : List UInt8}
    {number : UInt8} (taken : number ∈ numbers) :
    ∃ bytes, image.sector? track number = some bytes ∧
      (line.commitAll numbers fun n => (image.sector? track n).getD .zero).sector? track volume number =
        some bytes := by
  obtain ⟨bytes, found⟩ := Option.isSome_iff_exists.mp (image.isSome_sector? onDisk number)
  obtain ⟨valid, held⟩ := line.get_commitAll numbers (fun n => (image.sector? track n).getD .zero)
    (fun n _ same => by rw [image.sector?_congr track same, found, Option.getD_some])
    (.inl ⟨number, taken, rfl⟩)
  refine ⟨bytes, found, ?_⟩
  rw [sector?_eq_some_iff]
  exact ⟨(line.tag_commitAll _ _).trans tag, valid, held⟩

/-- With all sectors of a track the line is complete, and its CRC is that of the track. -/
theorem crc_commitAll_image (line : TrackLine) (image : Image) (onDisk : track.toNat < trackCount) :
    let whole := line.commitAll ((List.range sectorsPerTrack).map UInt8.ofNat)
      fun n => (image.sector? track n).getD .zero
    whole.isComplete = true ∧ whole.crc = Crc32.ofArray (image.trackBytes track) := by
  intro whole
  have held (i : ℕ) (low : i < 16) : whole.valid.get (sectorIndex (.ofNat i)) = true ∧
      whole.sectors.get (sectorIndex (.ofNat i)) = (image.sector? track (.ofNat i)).getD .zero := by
    apply line.get_commitAll
    · intro n _ same
      rw [image.sector?_congr track same]
    · exact .inl ⟨.ofNat i, List.mem_map_of_mem (List.mem_range.mpr low), rfl⟩
  constructor
  · apply isComplete_of_forall
    intro i
    have index : sectorIndex (.ofNat i) = i := by
      apply Fin.ext
      simp only [sectorIndex, UInt8.toNat_ofNat']
      omega
    exact index ▸ (held i i.isLt).1
  · have data := data_eq (fun n => (image.sector? track n).getD .zero) fun i low => (held i low).2
    rw [crc_eq, data, image.flatMap_sector onDisk, Crc32.ofArray_eq]

end TrackLine

namespace ImageSource

theorem feed_append (source : ImageSource) (a b : List UInt8) :
    (source.feed (a ++ b)).1 = (source.feed a).1 ++ ((source.feed a).2.1.feed b).1 ∧
      (source.feed (a ++ b)).2.1 = ((source.feed a).2.1.feed b).2.1 := by
  induction a generalizing source with
  | nil => simp [feed]
  | cons byte a ih =>
    obtain ⟨answers, rest⟩ := ih (source.push byte).2.1
    simp only [List.cons_append, feed]
    rw [answers, rest]
    simp

theorem feed_inside (bytes : List UInt8) (inside : ∀ b ∈ bytes, b ≠ 10 ∧ b ≠ 13) (source : ImageSource) :
    (source.feed bytes).1 = [] ∧
      (source.feed bytes).2.1 = { source with line := bytes.reverse ++ source.line } := by
  induction bytes generalizing source with
  | nil => simp [feed]
  | cons byte rest ih =>
    have pushed : source.push byte = (none, { source with line := byte :: source.line }, []) := by
      rw [push, if_neg (not_or.mpr (inside byte (by simp)))]
    obtain ⟨answers, held⟩ := ih (fun b mem => inside b (List.mem_cons_of_mem _ mem))
      { source with line := byte :: source.line }
    simp only [feed, pushed]
    exact ⟨by simp [answers], by rw [held]; simp⟩

/-- The CRC at the end of the answer to a request: if all of a track is asked for, that of its bytes. -/
def closingCrc (source : ImageSource) (request : Request) : Option UInt32 :=
  match request.sector with
  | some _ => none
  | none => some (Crc32.ofArray (source.image.trackBytes request.track))

def reply (source : ImageSource) (request : Request) : List Message :=
  request.sectors.map (source.sectorMessage request.track) ++ [.transferEnd (source.closingCrc request)]

theorem length_reply_sector (source : ImageSource) (track sector : UInt8) :
    ((source.reply ⟨track, some sector⟩).flatMap Message.encode).length = 531 := by
  have ending : (Message.transferEnd none).encode.length = 2 := rfl
  simp [reply, Request.sectors, sectorMessage, closingCrc, Message.length_encode_sector, ending]

theorem respond_request (source : ImageSource) {text : List Char} {request : Request}
    (read : Request.parse? text = some request) :
    (source.respond text).1 = some (if request.isPastEnd then [.transferEnd none] else source.reply request) ∧
      (source.respond text).2.1.image = source.image ∧ (source.respond text).2.1.line = source.line ∧
      (source.respond text).2.1.stats.requests = source.stats.requests + 1 ∧
      (source.respond text).2.1.stats.badRequests =
        source.stats.badRequests + if request.isPastEnd then 1 else 0 := by
  rcases request with ⟨track, _ | sector⟩
  · by_cases past : trackCount ≤ track.toNat <;>
      simp [respond, read, Request.isPastEnd, past, reply, Request.sectors, trackMessages, closingCrc]
  · by_cases past : trackCount ≤ track.toNat <;>
      simp [respond, read, Request.isPastEnd, past, reply, Request.sectors, closingCrc, Request.low_of_parse? read]

theorem reply_low (source : ImageSource) (request : Request) :
    source.reply ⟨request.track, request.sector.map (· &&& 0x0F)⟩ = source.reply request := by
  rcases request with ⟨track, _ | sector⟩
  · rfl
  · simp [reply, Request.sectors, closingCrc, UInt8.and_assoc]

theorem respond_line (source : ImageSource) (request : Request) (onDisk : request.track.toNat < trackCount) :
    (source.respond (Text.Utf8.decodeLossy request.line)).1 = some (source.reply request) := by
  have inside : request.isPastEnd = false := by simpa [Request.isPastEnd] using onDisk
  obtain ⟨answer, -⟩ := source.respond_request request.parse?_line
  rw [answer, source.reply_low]
  exact congrArg some (if_neg (Bool.eq_false_iff.mp inside))

theorem feed_request (source : ImageSource) (idle : source.line = []) (request : Request)
    (onDisk : request.track.toNat < trackCount) :
    (source.feed request.encode).1 = [source.reply request] := by
  have inside : ∀ b ∈ request.line, b ≠ 10 ∧ b ≠ 13 := by
    rcases request with ⟨track, _ | sector⟩ <;> simp [Request.line, Hex.pair, Hex.digit_ne_end]
  obtain ⟨answers, held⟩ := feed_inside request.line inside source
  obtain ⟨both, -⟩ := feed_append source request.line [10]
  have answer := respond_line source request onDisk
  have some : request.line.reverse ≠ [] := by simp [Request.line]
  have same : ({ source with line := [] } : ImageSource) = source := by rw [← idle]
  rw [request.encode_eq, both, answers, held, idle, List.append_nil, List.nil_append]
  simp only [feed, push, true_or, if_true, if_neg some, List.reverse_reverse, same, answer]
  rfl

end ImageSource
end Floppy
