import RetroMedia.Entry
import RetroMedia.Stream.Reader
import RetroMedia.Text.Blank
import RetroMedia.Text.Petscii

/-! Lynx archives. A bootstrap of any length precedes a header and a directory of text lines that
end in carriage returns; the files follow in blocks of 254 bytes. -/
namespace RetroMedia.Lynx

/-- What a line ends in. -/
def lineEnd : UInt8 := 0x0D

/-- Bytes in a block. -/
def blockSize : Nat := 254

/-- The text that a header line is known by. -/
def marker : Bytes := "LYNX".toUTF8.data.toList

/-- How far into the container the marker may lie. -/
def scanLimit : Nat := 4 * blockSize

/-- Offsets and sizes are 64-bit words. -/
def word? (value : Nat) : Option Nat := if value < UInt64.size then some value else none

/-- The next multiple of the block size. -/
def blockAlign (offset : Nat) : Option Nat := do
  let raised ← word? (offset + (blockSize - 1))
  word? (raised / blockSize * blockSize)

/-- The size of a file of some blocks, the last of which holds `lastUsed` bytes. -/
def storedSize (blocks lastUsed : Nat) : Option Nat := do
  let full ← word? ((blocks - 1) * blockSize)
  word? (full + lastUsed)

/-- The letters that name file types. -/
def typeCodeOf? (letter : String) : Option UInt8 :=
  match Text.trim letter with
  | "D" => some 0
  | "S" => some 1
  | "P" => some 2
  | "U" => some 3
  | "R" => some 4
  | _ => none

/-- Reading lines from a cursor. -/
abbrev Lines := EStateM MediaError Cursor

/-- The bytes of the next line. -/
def line : Lines Bytes := fun cursor =>
  match ByteSource.readUntil cursor lineEnd with
  | (.ok bytes, after) => .ok bytes after
  | (.error error, after) => .error error after

/-- The next line as text. -/
def textLine : Lines String := return Utf8.decodeLossy (← line)

/-- The next line as a number. -/
def numberLine (malformed : MediaError) : Lines Nat := do
  match Text.parseWord? (Text.trim (← textLine)) with
  | some value => return value
  | none => throw malformed

structure Header where
  signature : String
  directoryBlocks : Nat
  entryCount : Nat
  creator : String
  /-- Where the first directory line begins. -/
  directoryStart : Nat
  /-- Where the first file begins. -/
  dataStart : Nat
  deriving DecidableEq, Repr

/-- Where a run of bytes first occurs. -/
def findRun? (run : Bytes) : Bytes → Nat → Option Nat
  | [], position => if run.isEmpty then some position else none
  | byte :: rest, position =>
    if run.isPrefixOf (byte :: rest) then some position else findRun? run rest (position + 1)

/-- Where the line that holds the marker begins. -/
def headerStart? (scanned : Bytes) : Option Nat := do
  let position ← findRun? marker scanned 0
  let before := scanned.take position
  return position - (before.reverse.takeWhile (· != lineEnd)).length

/-- The lines of the header; something must follow them. -/
def readHeader : Lines Header := do
  let signature := Text.trim (← textLine)
  let directoryBlocks ← numberLine .invalidHeader
  let entryCount ← numberLine .invalidHeader
  let creator := Text.trim (← textLine)
  let cursor ← get
  if cursor.isExhausted then throw .invalidHeader
  match blockAlign cursor.position, word? (directoryBlocks * blockSize) with
  | some directoryStart, some dataStart =>
    return { signature, directoryBlocks, entryCount, creator, directoryStart, dataStart }
  | _, _ => throw .invalidHeader

/-- An archive whose header has been read. -/
structure Archive where
  container : Container
  header : Header

/-- The lines of one file in the directory. -/
structure Record where
  rawName : Bytes
  blocks : Nat
  typeCode : UInt8
  lastUsed : Nat
  recordSize : Option Nat
  deriving DecidableEq, Repr

def typeLine : Lines UInt8 := do
  match typeCodeOf? (← textLine) with
  | some code => return code
  | none => throw .invalidLayout

/-- Name, blocks, type, bytes in the last block, and for files of records their size. -/
def readRecord : Lines Record := do
  let rawName := Petscii.trimPadding (← line) Petscii.shiftedSpace
  let blocks ← numberLine .invalidLayout
  let typeCode ← typeLine
  let lastUsed ← numberLine .invalidLayout
  if typeCode == 4 then
    let recordSize ← numberLine .invalidLayout
    return { rawName, blocks, typeCode, lastUsed, recordSize := some (recordSize % UInt16.size) }
  else return { rawName, blocks, typeCode, lastUsed, recordSize := none }

namespace Archive

def «open» (container : Container) : Except MediaError Archive :=
  match headerStart? (container.readAt 0 scanLimit) with
  | none => .error .unknownFormat
  | some position =>
    match readHeader { container, position } with
    | .ok header _ => .ok { container, header }
    | .error error _ => .error error

/-- The entry of a record whose data begins at `offset`. -/
def entryOf (archive : Archive) (index offset : Nat) (record : Record) (stored : Nat) : Entry where
  index
  name := Petscii.toText record.rawName
  rawName := record.rawName
  size := archive.container.clamp offset stored
  typeCode := record.typeCode
  offset
  recordSize := record.recordSize

/-- The entries of the next `count` records. Each file begins at the block after the last one. -/
def listRecords (archive : Archive) : Nat → Nat → Nat → Cursor → Walk (List Entry)
  | 0, _, _, _ => return []
  | count + 1, index, offset, cursor => do
    Progress.tick
    match readRecord cursor with
    | .error error _ => throw error
    | .ok record cursor =>
      match storedSize record.blocks record.lastUsed with
      | none => throw .invalidLayout
      | some stored =>
        match (blockAlign stored).bind fun aligned => word? (offset + aligned) with
        | none => throw .invalidLayout
        | some next =>
          let more ← archive.listRecords count (index + 1) next cursor
          return archive.entryOf index offset record stored :: more

/-- The directory, in order. An archive that announces too many files is refused at once. -/
def entries (archive : Archive) : Walk (List Entry) := do
  let progress ← get
  if progress.limits.maxEntries < archive.header.entryCount then throw .chainTooLong
  archive.listRecords archive.header.entryCount 1 archive.header.dataStart
    { container := archive.container, position := archive.header.directoryStart }

def openEntry (archive : Archive) (entry : Entry) : Reader :=
  .range [] { container := archive.container, offset := entry.offset, remaining := entry.size }

end Archive
end RetroMedia.Lynx
