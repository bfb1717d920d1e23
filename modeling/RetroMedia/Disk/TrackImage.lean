import RetroMedia.Disk.Sectors

/-! Track images, which hold the coded bytes of whole tracks. A table gives the offset of each half
track, and each track begins with its length. -/
namespace RetroMedia.Disk

/-- A container with the offsets of its half tracks. -/
structure TrackImage where
  container : Container
  trackOffsets : Array Nat
  maxTrackSize : Nat

namespace TrackImage

def signature : Bytes := "GCR-1541".toUTF8.data.toList

/-- Where the table of half tracks begins. -/
def tableOffset : Nat := 0x0C

/-- Read the header and the table, which must be complete. -/
def «open» (container : Container) : Except MediaError TrackImage := do
  let header ← container.slice 0 tableOffset
  if header.field 0 signature.length != signature then throw .unknownFormat
  let halfTracks := (header.byte 0x09).toNat
  match container.slice tableOffset (halfTracks * 4) with
  | .error _ => throw .invalidHeader
  | .ok table => return {
      container
      trackOffsets := ((table.records 4).map (Bytes.le32 · 0)).toArray
      maxTrackSize := header.le16 0x0A }

/-- Whole tracks for which the table has room. -/
def tracks (image : TrackImage) : Nat := min ((image.trackOffsets.size + 1) / 2) 255

/-- The coded bytes of a track. A zero in the table means that the track is absent. -/
def trackData (image : TrackImage) (track : Nat) : Except MediaError Bytes :=
  if track = 0 then .error .invalidLocation
  else
    let offset := image.trackOffsets.getD ((track - 1) * 2) 0
    if offset = 0 then .error .invalidLocation
    else do
      let length ← image.container.slice offset 2
      image.container.slice (offset + 2) (length.le16 0)

/-- The contents of a sector, as far as they can be read; their checksum is not held against
them. -/
def source (image : TrackImage) : SectorSource := fun location => do
  if Gcr.sectorsPerTrack location.track ≤ location.sector then throw .invalidLocation
  match image.trackData location.track.toNat with
  | .error error => throw error
  | .ok bytes =>
    let found ← Gcr.Track.findSector ⟨bytes⟩ location.track location.sector
    return ⟨found.data, found.length_eq⟩

end TrackImage
end RetroMedia.Disk
