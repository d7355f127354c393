import Floppy.Fetch.Message
import Floppy.Fetch.Request
import Floppy.Image
import Floppy.Log
import Floppy.Text.Quoted
import Floppy.Text.Utf8

/-!
# The source of an image

The other end of the fetch protocol: answers requests for the tracks and sectors of an image, line by line.
-/
namespace Floppy
open Fetch

structure SourceStats where
  requests : Nat := 0
  sectorsSent : Nat := 0
  tracksSent : Nat := 0
  badRequests : Nat := 0
deriving DecidableEq, Repr

structure ImageSource where
  image : Image
  volume : UInt8
  /-- The bytes of a line that is not complete, latest first. -/
  line : List UInt8 := []
  stats : SourceStats := {}

namespace ImageSource

def announce (source : ImageSource) : Message := .volume source.volume

def sectorMessage (source : ImageSource) (track sector : UInt8) : Message :=
  .sector track sector ((source.image.sector? track sector).getD .zero)

def trackMessages (source : ImageSource) (track : UInt8) : List Message :=
  (List.range sectorsPerTrack).map fun s => source.sectorMessage track (UInt8.ofNat s)

/-- The answer to a line, if it is a request. A track past the end of the image has no sectors. -/
def respond (source : ImageSource) (line : List Char) : Option (List Message) × ImageSource × Log :=
  let stats := source.stats
  match Request.parse? line with
  | none =>
    (none, { source with stats := { stats with badRequests := stats.badRequests + 1 } },
      [⟨.warn, "Image server: ignoring " ++ Text.quoted line⟩])
  | some request =>
    let stats := { stats with requests := stats.requests + 1 }
    if trackCount ≤ request.track.toNat then
      (some [.transferEnd none], { source with stats := { stats with badRequests := stats.badRequests + 1 } },
        [⟨.warn, "Image server: track " ++ toString request.track.toNat ++ " past end of image"⟩])
    else
      match request.sector with
      | some sector =>
        (some [source.sectorMessage request.track sector, .transferEnd none],
          { source with stats := { stats with sectorsSent := stats.sectorsSent + 1 } }, [])
      | none =>
        let crc := Crc32.ofArray (source.image.trackBytes request.track)
        (some (source.trackMessages request.track ++ [.transferEnd (some crc)]),
          { source with stats := { stats with
              sectorsSent := stats.sectorsSent + sectorsPerTrack
              tracksSent := stats.tracksSent + 1 } }, [])

/-- One byte of the request stream. A line ends at a line feed or carriage return; empty lines do not
count. -/
def push (source : ImageSource) (byte : UInt8) : Option (List Message) × ImageSource × Log :=
  if byte = 10 ∨ byte = 13 then
    if source.line = [] then (none, source, [])
    else { source with line := [] }.respond (Text.Utf8.decodeLossy source.line.reverse)
  else (none, { source with line := byte :: source.line }, [])

/-- The answers to all lines that the bytes complete. -/
def feed (source : ImageSource) : List UInt8 → List (List Message) × ImageSource × Log
  | [] => ([], source, [])
  | byte :: rest =>
    let (answer, source, log) := source.push byte
    let (answers, source, more) := source.feed rest
    (answer.toList ++ answers, source, log ++ more)

end ImageSource
end Floppy
