import RetroMedia.Disk.Sectors

/-! Sector images. All sectors lie back to back, track after track, and a byte per sector that
tells of read errors may follow them. -/
namespace RetroMedia.Disk

/-- How an image is laid out: its tracks, how many sectors each of them holds, and whether a table
of read errors follows the data. -/
structure Geometry where
  tracks : UInt8
  layout : UInt8 → UInt8
  withErrorTable : Bool := false

namespace Geometry

/-- The sectors of a track; none on a track that does not exist. -/
def sectors (geometry : Geometry) (track : UInt8) : UInt8 :=
  if track = 0 ∨ geometry.tracks < track then 0 else geometry.layout track

/-- The sectors of tracks 1 to `track`. -/
def sectorsThrough (geometry : Geometry) : Nat → Nat
  | 0 => 0
  | track + 1 =>
    geometry.sectorsThrough track + (geometry.sectors (UInt8.ofNat (track + 1))).toNat

def totalSectors (geometry : Geometry) : Nat := geometry.sectorsThrough geometry.tracks.toNat

/-- The exact size of an image. -/
def size (geometry : Geometry) : Nat :=
  geometry.totalSectors * blockSize + if geometry.withErrorTable then geometry.totalSectors else 0

/-- Where a sector begins. -/
def offset (geometry : Geometry) (location : Location) : Except MediaError Nat :=
  if geometry.sectors location.track ≤ location.sector then .error .invalidLocation
  else
    let before := geometry.sectorsThrough (location.track.toNat - 1)
    .ok ((before + location.sector.toNat) * blockSize)

/-- The first of some geometries that an image of `size` bytes fits. -/
def findBySize? (size : Nat) (geometries : List Geometry) : Option Geometry :=
  geometries.find? (·.size == size)

/-- One-sided disks with four speed zones. -/
def singleSided (track : UInt8) : UInt8 := Gcr.sectorsPerTrack track

/-- The second side repeats the zones of the first. -/
def doubleSided (track : UInt8) : UInt8 :=
  if 35 < track then Gcr.sectorsPerTrack (track - 35) else Gcr.sectorsPerTrack track

/-- The same number of sectors everywhere. -/
def uniform (_track : UInt8) : UInt8 := 40

def d64 : List Geometry :=
  [⟨35, singleSided, false⟩, ⟨35, singleSided, true⟩,
    ⟨40, singleSided, false⟩, ⟨40, singleSided, true⟩]

def d71 : List Geometry := [⟨70, doubleSided, false⟩, ⟨70, doubleSided, true⟩]

def d81 : List Geometry := [⟨80, uniform, false⟩, ⟨80, uniform, true⟩]

/-- The sectors of an image with this geometry. -/
def source (geometry : Geometry) (container : Container) : SectorSource :=
  SectorSource.ofLookup fun location => do
    let offset ← geometry.offset location
    match read : container.slice offset blockSize with
    | .ok bytes => .ok ⟨bytes, Container.length_of_slice read⟩
    | .error error => .error error

end Geometry
end RetroMedia.Disk
