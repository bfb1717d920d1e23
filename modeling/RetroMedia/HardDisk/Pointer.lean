import RetroMedia.Error
import RetroMedia.Bytes

/-! Addresses of hard-disk sectors: either a plain number or a cylinder, a head and a sector, which
a geometry turns into a number. -/
namespace RetroMedia.HardDisk

/-- How many heads a drive has and how many sectors each of its tracks holds. -/
structure DriveGeometry where
  heads : UInt8
  sectorsPerTrack : UInt8
  deriving DecidableEq, Repr

/-- A flag byte and three address bytes. -/
structure Pointer where
  flags : UInt8
  first : UInt8
  second : UInt8
  third : UInt8
  deriving DecidableEq, Repr

namespace Pointer

def ofBytes (bytes : Bytes) : Pointer := ⟨bytes.byte 0, bytes.byte 1, bytes.byte 2, bytes.byte 3⟩

/-- A pointer to nothing. -/
def isNull (pointer : Pointer) : Bool :=
  pointer.flags == 0 && pointer.first == 0 && pointer.second == 0 && pointer.third == 0

/-- Do the address bytes hold a plain number? -/
def isDirect (pointer : Pointer) : Bool := pointer.flags &&& 0x80 != 0

/-- Does the pointer lead to further pointers instead of data? -/
def isIndirect (pointer : Pointer) : Bool := pointer.flags &&& 0x40 != 0

/-- The number of the sector that the pointer leads to. Sectors of a track count from one, and head
and sector must exist. -/
def lba (pointer : Pointer) (geometry : DriveGeometry) : Except MediaError Nat :=
  if pointer.isDirect then
    .ok (Bytes.littleEndian [pointer.first, pointer.second, pointer.third])
  else if pointer.third == 0 || geometry.sectorsPerTrack < pointer.third
      || geometry.heads ≤ pointer.second then
    .error .invalidLocation
  else
    let track := pointer.first.toNat * geometry.heads.toNat + pointer.second.toNat
    .ok (track * geometry.sectorsPerTrack.toNat + (pointer.third.toNat - 1))

end Pointer
end RetroMedia.HardDisk
