import RetroMedia.Gcr.Track
import RetroMedia.Stream.Container

/-! Sectors: where they are and where their contents come from. -/
namespace RetroMedia.Disk

/-- Bytes in a sector. -/
def blockSize : Nat := 256

/-- A track, counted from one, and a sector on it, counted from zero. -/
structure Location where
  track : UInt8
  sector : UInt8
  deriving DecidableEq, Repr, Inhabited

namespace Location

/-- The location written in the first two bytes. -/
def ofBytes (bytes : Bytes) : Location := ⟨bytes.byte 0, bytes.byte 1⟩

def toText (location : Location) : String :=
  toString location.track.toNat ++ "/" ++ toString location.sector.toNat

end Location

/-- The contents of one sector. -/
structure Block where
  bytes : Bytes
  length_eq : bytes.length = blockSize

/-- Bytes cut or filled up with zeros to the size of a sector. -/
def Block.ofBytes (bytes : Bytes) : Block where
  bytes := (bytes ++ List.replicate blockSize 0).take blockSize
  length_eq := by simp

/-- Whatever yields the contents of a sector. It may count steps of its own on the way. -/
abbrev SectorSource := Location → Walk Block

/-- A source that looks its sectors up and takes no steps. -/
def SectorSource.ofLookup (lookup : Location → Except MediaError Block) : SectorSource :=
  fun location progress =>
    match lookup location with
    | .ok block => .ok block progress
    | .error error => .error error progress

end RetroMedia.Disk
