import Floppy.Cache
import Floppy.Storage.Basic

/-!
# The internal disk

An image in storage from which whole tracks are loaded into the line of the internal drive. The last track
that was asked for waits until storage is idle.
-/
namespace Floppy

structure LoaderStats where
  tracksLoaded : Nat := 0
  busyPasses : Nat := 0
  readErrors : Nat := 0
deriving DecidableEq, Repr

structure TrackLoader where
  /-- Where the image starts in storage. -/
  base : Nat := 0
  /-- The track and volume that wait. -/
  pending : Option (UInt8 × UInt8) := none
  stats : LoaderStats := {}
deriving DecidableEq, Repr

namespace TrackLoader

/-- A track past the end of the disk is not taken. -/
def request (loader : TrackLoader) (track volume : UInt8) : TrackLoader × Log :=
  if track.toNat < trackCount then ({ loader with pending := some (track, volume) }, [])
  else (loader, [⟨.warn, "Internal disk: request for track " ++ toString track.toNat ++
    " past end of media"⟩])

def cancel (loader : TrackLoader) : TrackLoader := { loader with pending := none }

/-- What a pass of the loader did. -/
structure Pass where
  loader : TrackLoader
  line : TrackLine
  loaded : Bool := false
  log : Log := []

/-- The line with all sectors of a track. -/
def fill (line : TrackLine) (track volume : UInt8) (bytes : Array UInt8) : TrackLine :=
  (List.range sectorsPerTrack).foldl
    (fun line i => line.commit (UInt8.ofNat i)
      (.ofArray (bytes.extract (i * sectorSize) ((i + 1) * sectorSize))))
    (line.retag track volume)

/-- Loads the track that waits, once storage is idle. A track that is not all there is given up. -/
def service {δ : Type} [StorageDevice δ] (loader : TrackLoader) (storage : δ) (line : TrackLine) : Pass :=
  match loader.pending with
  | none => { loader, line }
  | some (track, volume) =>
    let stats := loader.stats
    if StorageDevice.busy storage then
      { loader := { loader with stats := { stats with busyPasses := stats.busyPasses + 1 } }, line }
    else
      let bytes := StorageDevice.read storage (loader.base + imageOffset track 0) trackSize
      if bytes.size < trackSize then
        { loader := { loader with
            pending := none
            stats := { stats with readErrors := stats.readErrors + 1 } }
          line
          log := [⟨.warn, "Internal disk: short read of track " ++ toString track.toNat ++ " (" ++
            toString bytes.size ++ " of " ++ toString trackSize ++ " bytes)"⟩] }
      else
        { loader := { loader with
            pending := none
            stats := { stats with tracksLoaded := stats.tracksLoaded + 1 } }
          line := fill line track volume bytes
          loaded := true
          log := line.retagLog .internal track volume ++
            [⟨.trace, "Internal disk: loaded track " ++ toString track.toNat⟩] }

end TrackLoader
end Floppy
