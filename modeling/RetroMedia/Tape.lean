import RetroMedia.Entry
import RetroMedia.Stream.Reader
import RetroMedia.Text.Petscii

/-! Tape images. A header is followed by a table of records, and each record tells where the data
of a file lies and to which addresses it is loaded. -/
namespace RetroMedia

structure Tape where
  container : Container
  version : Nat
  maxEntries : Nat
  usedEntries : Nat
  label : String

namespace Tape

def signature : Bytes := "C64".toUTF8.data.toList

def headerSize : Nat := 0x40

def recordSize : Nat := 0x20

/-- Addresses end here. -/
def lastAddress : Nat := 0xFFFF

/-- Names end in shifted spaces, then spaces, then zeros, as far as they are padded at all. -/
def trimName (bytes : Bytes) : Bytes :=
  Petscii.trimPadding (Petscii.trimPadding (Petscii.trimPadding bytes Petscii.shiftedSpace) 0x20)
    0x00

def «open» (container : Container) : Except MediaError Tape := do
  let header ← container.slice 0 headerSize
  if header.take signature.length != signature then throw .unknownFormat
  return {
    container
    version := header.le16 0x20
    maxEntries := header.le16 0x22
    usedEntries := header.le16 0x24
    label := Petscii.toText (trimName (header.field 0x28 24)) }

/-- Records to look at. A tape whose used count is zero is searched through. -/
def recordCount (tape : Tape) : Nat :=
  if tape.usedEntries = 0 then tape.maxEntries else max tape.usedEntries tape.maxEntries

/-- The data length of a record. An end that lies before the start, or beyond the data there is,
gives way to as much data as there is and as addresses allow. -/
def dataSize (start finish available : Nat) : Nat :=
  if finish < start ∨ available < finish - start then min (start + available) lastAddress - start
  else finish - start

/-- The entry of a record in use. -/
def readRecord (tape : Tape) (index : Nat) (record : Bytes) : Entry :=
  let start := record.le16 0x02
  let offset := record.le32 0x08
  let rawName := trimName (record.field 0x10 16)
  { index
    name := Petscii.toText rawName
    rawName
    size := dataSize start (record.le16 0x04) (tape.container.size - offset) + 2
    typeCode := record.byte 0x01
    offset
    loadAddress := some start }

/-- The entries of the next `count` records. The table ends at the latest with the container. -/
def listRecords (tape : Tape) : Nat → Nat → Nat → Walk (List Entry)
  | 0, _, _ => return []
  | count + 1, slot, index =>
    match tape.container.slice (headerSize + slot * recordSize) recordSize with
    | .error _ => return []
    | .ok record =>
      if record.byte 0 == 0 then tape.listRecords count (slot + 1) index
      else do
        Progress.tick
        let more ← tape.listRecords count (slot + 1) (index + 1)
        return tape.readRecord index record :: more

def entries (tape : Tape) : Walk (List Entry) := tape.listRecords tape.recordCount 0 1

def openEntry (tape : Tape) (entry : Entry) : Reader :=
  .withLoadAddress entry.loadAddress
    { container := tape.container, offset := entry.offset
      remaining := entry.size - entry.addressSize }

/-- Entries without a type are snapshots of memory, which load like programs. -/
def decodeType (entry : Entry) : String :=
  if entry.typeCode == 0 then "PRG" else fileTypeName entry.typeCode

end Tape
end RetroMedia
