import RetroMedia.Gcr.Code

/-! The two blocks in which a track keeps a sector: a header that names it and the data after it. -/
namespace RetroMedia.Gcr

/-- Data bytes in a sector. -/
def sectorSize : Nat := 256

/-- Coded bytes of a header block, which is two groups. -/
def headerSize : Nat := 10

/-- Groups of a data block: its mark, the data, a checksum and two filling bytes. -/
def dataGroups : Nat := 65

/-- The first byte of a header block. -/
def headerMark : UInt8 := 0x08

/-- The first byte of a data block. -/
def dataMark : UInt8 := 0x07

/-- The fields of a header block. -/
structure SectorHeader where
  mark : UInt8
  checksum : UInt8
  sector : UInt8
  track : UInt8
  id1 : UInt8
  id0 : UInt8
  /-- Every byte of the block was readable. -/
  clean : Bool
  deriving DecidableEq, Repr

namespace SectorHeader

def checksumOk (header : SectorHeader) : Bool :=
  header.checksum == header.sector ^^^ header.track ^^^ header.id1 ^^^ header.id0

/-- The header at the beginning of `coded`, whatever its mark. -/
def decode? (coded : Bytes) : Option SectorHeader := do
  let decoded ← decodeGroups 2 coded
  return {
    mark := decoded.bytes.byte 0
    checksum := decoded.bytes.byte 1
    sector := decoded.bytes.byte 2
    track := decoded.bytes.byte 3
    id1 := decoded.bytes.byte 4
    id0 := decoded.bytes.byte 5
    clean := decoded.good == decoded.bytes.length }

/-- Is this the header of the wanted sector? Neither the checksum nor a code of no nibble matters:
a drive, too, goes by the mark and the numbers it reads. -/
def names (header : SectorHeader) (track sector : UInt8) : Bool :=
  header.mark == headerMark && header.track == track && header.sector == sector

end SectorHeader

/-- The contents of a data block. -/
structure SectorData where
  data : Bytes
  /-- Leading data bytes that were readable. -/
  converted : Nat
  checksumOk : Bool
  length_eq : data.length = sectorSize
  deriving DecidableEq

namespace SectorData

def isClean (sector : SectorData) : Bool := sector.converted == sectorSize && sector.checksumOk

/-- The data block at the beginning of `coded`, if it is complete and bears its mark. -/
def decode? (coded : Bytes) : Option SectorData :=
  match read : decodeGroups dataGroups coded with
  | none => none
  | some decoded =>
    if decoded.bytes.byte 0 != dataMark then none
    else some {
      data := decoded.bytes.field 1 sectorSize
      converted := min (decoded.good - 1) sectorSize
      checksumOk := (decoded.bytes.field 1 sectorSize).parity == decoded.bytes.byte (1 + sectorSize)
      length_eq := Bytes.length_field _ (by rw [length_decodeGroups read]; decide) }

end SectorData

/-- The plain header block of a sector. -/
def headerBlock (track sector id1 id0 : UInt8) : Bytes :=
  [headerMark, sector ^^^ track ^^^ id1 ^^^ id0, sector, track, id1, id0, 0x0F, 0x0F]

/-- The plain data block of a sector. -/
def dataBlock (data : Bytes) : Bytes := dataMark :: data ++ [data.parity, 0, 0]

end RetroMedia.Gcr
