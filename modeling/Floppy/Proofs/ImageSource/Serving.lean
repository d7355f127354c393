import Floppy.Proofs.ImageSource

/-!
# Serving any stream

Whatever bytes reach the source of an image, and in whatever pieces, each line among them that can be read as a request
is answered, and a client that has nothing open hears just what the requests asked for.
-/
namespace Floppy
open Fetch

namespace Image

def sectorBytes (image : Image) (track number : UInt8) : List UInt8 :=
  (image.toList.drop (imageOffset track number)).take sectorSize

def sectorEvents (image : Image) (track number : UInt8) : List StreamEvent :=
  .sectorStart track number :: (image.sectorBytes track number).map .payload ++
    [.sectorEnd (Gcr.checksum (image.sectorBytes track number))]

def trackCrc (image : Image) (track : UInt8) : UInt32 :=
  Crc32.ofList ((image.toList.drop (track.toNat * trackSize)).take trackSize)

theorem ofArray_trackBytes (image : Image) (track : UInt8) :
    Crc32.ofArray (image.trackBytes track) = image.trackCrc track := by
  have start : imageOffset track 0 = track.toNat * trackSize := by simp [imageOffset, sectorIndex]
  rw [Crc32.ofArray_eq, trackBytes, Array.toList_extract, List.extract_eq_take_drop, Nat.add_sub_cancel_left, start]
  rfl

end Image

namespace Fetch.Request

/-- A line is read as text, whether it is or not. -/
def ofLine? (line : List UInt8) : Option Request := parse? (Text.Utf8.decodeLossy line)

/-- The line is no request, or one for a track that the disk does not have. -/
def isBadLine (line : List UInt8) : Bool := (ofLine? line).all isPastEnd

/-- What is to be heard for a request. -/
def due (image : Image) (request : Request) : List StreamEvent :=
  if request.isPastEnd then [.transferEnd]
  else
    request.sectors.flatMap (image.sectorEvents request.track) ++ .transferEnd ::
      if request.sector = none then [.trackCrc (image.trackCrc request.track)] else []

theorem error_notMem_due (image : Image) (request : Request) (cause : FetchError) :
    .error cause ∉ request.due image := by
  unfold due
  split
  case isTrue => simp
  case isFalse => split <;> simp [Image.sectorEvents]

end Fetch.Request

namespace ImageSource

def endsLine (byte : UInt8) : Bool := byte = 10 || byte = 13

/-- The lines that are complete in a stream. Empty ones do not count. -/
def lines (stream : List UInt8) : List (List UInt8) := (stream.splitOnP endsLine).dropLast.filter (· ≠ [])

/-- The answers to a stream that comes in pieces. -/
def serve (source : ImageSource) : List (List UInt8) → List (List Message) × ImageSource
  | [] => ([], source)
  | chunk :: chunks =>
    let (answers, source, _) := source.feed chunk
    let (more, source) := source.serve chunks
    (answers ++ more, source)

theorem serve_eq (source : ImageSource) (chunks : List (List UInt8)) :
    source.serve chunks = ((source.feed chunks.flatten).1, (source.feed chunks.flatten).2.1) := by
  induction chunks generalizing source with
  | nil => rfl
  | cons chunk chunks ih =>
    obtain ⟨answers, rest⟩ := source.feed_append chunk chunks.flatten
    simp only [serve, List.flatten_cons, answers, rest, ih]

theorem lines_of_inside {begun : List UInt8} (inside : ∀ byte ∈ begun, endsLine byte = false) :
    lines begun = [] := by
  rw [lines, List.splitOnP_eq_singleton inside]
  rfl

theorem lines_append_cons {begun : List UInt8} (inside : ∀ byte ∈ begun, endsLine byte = false) {byte : UInt8}
    (ends : endsLine byte = true) (rest : List UInt8) :
    lines (begun ++ byte :: rest) = (if begun = [] then [] else [begun]) ++ lines rest := by
  rw [lines, List.splitOnP_append_cons_of_forall_mem inside _ ends,
    List.dropLast_cons_of_ne_nil (List.splitOnP_ne_nil _ _), List.filter_cons, lines]
  by_cases empty : begun = [] <;> simp [empty]

example : lines [10, 60, 48, 48, 13, 10, 60, 49] = [[60, 48, 48]] := by decide

theorem events_sectorMessage (source : ImageSource) {track number : UInt8} (onDisk : track.toNat < trackCount)
    (low : number &&& 0x0F = number) :
    (source.sectorMessage track number).events = source.image.sectorEvents track number := by
  rw [sectorMessage, Message.events, source.image.toList_sector onDisk, low]
  rfl

theorem events_reply (source : ImageSource) {request : Request} (onDisk : request.track.toNat < trackCount) :
    (source.reply request).flatMap Message.events = request.due source.image := by
  have inside : request.isPastEnd = false := by simpa [Request.isPastEnd] using onDisk
  have sectors : (request.sectors.map (source.sectorMessage request.track)).flatMap Message.events =
      request.sectors.flatMap (source.image.sectorEvents request.track) := by
    rw [List.flatMap_map]
    exact List.flatMap_congr fun number mem => source.events_sectorMessage onDisk (Request.low_of_mem_sectors mem)
  rw [reply, List.flatMap_append, sectors, Request.due, inside, List.flatMap_singleton, Message.events, closingCrc]
  cases request.sector with
  | some sector => rfl
  | none => simp [Image.ofArray_trackBytes]

/-- The source has answered the lines one by one, and counted them. -/
structure Answered (source : ImageSource) (lines : List (List UInt8)) (answers : List (List Message))
    (next : ImageSource) : Prop where
  image : next.image = source.image
  answers : answers.map (·.flatMap Message.events) = (lines.filterMap Request.ofLine?).map (Request.due source.image)
  requests : next.stats.requests = source.stats.requests + (lines.filterMap Request.ofLine?).length
  badRequests : next.stats.badRequests = source.stats.badRequests + lines.countP Request.isBadLine

namespace Answered
variable {source middle next : ImageSource} {early late : List (List UInt8)} {first second : List (List Message)}

theorem nil (source : ImageSource) : source.Answered [] [] source := ⟨rfl, rfl, rfl, rfl⟩

theorem append (begin : source.Answered early first middle) (finish : middle.Answered late second next) :
    source.Answered (early ++ late) (first ++ second) next where
  image := finish.image.trans begin.image
  answers := by
    rw [List.map_append, begin.answers, finish.answers, begin.image, List.filterMap_append, List.map_append]
  requests := by
    rw [finish.requests, begin.requests, List.filterMap_append, List.length_append, Nat.add_assoc]
  badRequests := by
    rw [finish.badRequests, begin.badRequests, List.countP_append, Nat.add_assoc]

end Answered

/-- A line gets its answer if it is a request. One that is not, or is past the end, counts as bad. -/
theorem respond_answered (source : ImageSource) (line : List UInt8) :
    source.Answered [line] (source.respond (Text.Utf8.decodeLossy line)).1.toList
        (source.respond (Text.Utf8.decodeLossy line)).2.1 ∧
      (source.respond (Text.Utf8.decodeLossy line)).2.1.line = source.line := by
  cases read : Request.parse? (Text.Utf8.decodeLossy line) with
  | none =>
    have bad : Request.isBadLine line = true := by rw [Request.isBadLine, Request.ofLine?, read, Option.all_none]
    have unread : Request.ofLine? line = none := read
    simp only [respond, read]
    exact ⟨⟨rfl, by simp [unread], by simp [unread], by simp [bad]⟩, trivial⟩
  | some request =>
    have bad : Request.isBadLine line = request.isPastEnd := by
      rw [Request.isBadLine, Request.ofLine?, read, Option.all_some]
    have single : [line].filterMap Request.ofLine? = [request] := by simp [Request.ofLine?, read]
    have heard : (if request.isPastEnd then [.transferEnd none] else source.reply request).flatMap Message.events =
        request.due source.image := by
      cases past : request.isPastEnd with
      | true => simp [Request.due, past, Message.events]
      | false => exact source.events_reply (by simpa [Request.isPastEnd] using past)
    obtain ⟨answer, image, begun, requests, badRequests⟩ := source.respond_request read
    refine ⟨⟨image, ?_, ?_, ?_⟩, begun⟩
    · rw [answer, Option.toList_some, List.map_singleton, heard, single, List.map_singleton]
    · rw [requests, single, List.length_singleton]
    · rw [badRequests, List.countP_cons, List.countP_nil, Nat.zero_add, bad]

theorem push_end (source : ImageSource) {byte : UInt8} (ends : endsLine byte = true) :
    source.Answered (if source.line.reverse = [] then [] else [source.line.reverse]) (source.push byte).1.toList
      (source.push byte).2.1 ∧ (source.push byte).2.1.line = [] := by
  have isEnd : byte = 10 ∨ byte = 13 := by simpa [endsLine] using ends
  by_cases empty : source.line = []
  · have pushed : source.push byte = (none, source, []) := by rw [push, if_pos isEnd, if_pos empty]
    rw [pushed, if_pos (List.reverse_eq_nil_iff.mpr empty)]
    exact ⟨.nil source, empty⟩
  · have pushed : source.push byte =
        { source with line := [] }.respond (Text.Utf8.decodeLossy source.line.reverse) := by
      rw [push, if_pos isEnd, if_neg empty]
    obtain ⟨⟨image, answers, requests, badRequests⟩, line⟩ :=
      { source with line := [] }.respond_answered source.line.reverse
    rw [pushed, if_neg (mt List.reverse_eq_nil_iff.mp empty)]
    exact ⟨⟨image, answers, requests, badRequests⟩, line⟩

/-- A stream is answered line by line, the one that it goes on with among them. -/
theorem feed_answered (source : ImageSource) (inside : ∀ byte ∈ source.line.reverse, endsLine byte = false)
    (bytes : List UInt8) :
    source.Answered (lines (source.line.reverse ++ bytes)) (source.feed bytes).1 (source.feed bytes).2.1 := by
  induction bytes generalizing source with
  | nil =>
    rw [List.append_nil, lines_of_inside inside]
    exact .nil source
  | cons byte rest ih =>
    cases ends : endsLine byte with
    | true =>
      obtain ⟨first, line⟩ := source.push_end ends
      have later := ih (source.push byte).2.1 (by simp [line])
      rw [line, List.reverse_nil, List.nil_append] at later
      rw [lines_append_cons inside ends]
      exact first.append later
    | false =>
      have goesOn : ¬ (byte = 10 ∨ byte = 13) := by simpa [endsLine] using ends
      have pushed : source.push byte = (none, { source with line := byte :: source.line }, []) := by
        rw [push, if_neg goesOn]
      have longer : ∀ b ∈ (byte :: source.line).reverse, endsLine b = false := by
        intro b mem
        rcases List.mem_append.mp (List.reverse_cons ▸ mem) with before | last
        · exact inside b before
        · exact List.mem_singleton.mp last ▸ ends
      obtain ⟨image, answers, requests, badRequests⟩ := ih { source with line := byte :: source.line } longer
      rw [List.reverse_cons, List.append_assoc, List.singleton_append] at answers requests badRequests
      simp only [feed, pushed, Option.toList_none, List.nil_append]
      exact ⟨image, answers, requests, badRequests⟩

/-- However a stream is cut and whatever is in it, a client that has nothing open hears for each request the sectors that
it is about, as they are on the image, and the end; it hears no fault and has nothing open after it. Each line is counted
as what it is. -/
theorem serve_sound (image : Image) (volume : UInt8) (chunks : List (List UInt8)) :
    let served := lines chunks.flatten
    let requests := served.filterMap Request.ofLine?
    let (answers, source) := serve { image, volume } chunks
    let (client, events) := ({} : Tokenizer).feed (answers.flatten.flatMap Message.encode)
    client.isIdle = true ∧ (∀ cause, .error cause ∉ events) ∧ events = requests.flatMap (Request.due image) ∧
      source.stats.requests = requests.length ∧ source.stats.badRequests = served.countP Request.isBadLine := by
  have read (answers : List (List Message)) :
      ({} : Tokenizer).feed (answers.flatten.flatMap Message.encode) =
        ({}, (answers.map (·.flatMap Message.events)).flatten) := by
    rw [Tokenizer.feed_messages, List.flatten_eq_flatMap, List.flatMap_assoc, List.flatMap_def]
    rfl
  have quiet (requests : List Request) (cause : FetchError) : .error cause ∉ requests.flatMap (Request.due image) := by
    intro mem
    obtain ⟨request, -, heard⟩ := List.mem_flatMap.mp mem
    exact request.error_notMem_due image cause heard
  obtain ⟨-, answers, requests, badRequests⟩ := feed_answered { image, volume } nofun chunks.flatten
  rw [List.reverse_nil, List.nil_append] at answers requests badRequests
  simp only [serve_eq, read, answers, ← List.flatMap_def]
  refine ⟨rfl, quiet _, trivial, ?_, ?_⟩
  · rw [requests, Nat.zero_add]
  · rw [badRequests, Nat.zero_add]

end ImageSource
end Floppy
