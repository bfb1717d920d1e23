import RetroMedia.Proofs.Lynx.Lines
import RetroMedia.Text.Petscii

/-! Archives as they are written: a bootstrap, the lines of the header, the lines of each file, and the
files. Header, directory and files all begin at the boundary of a block, and what fills the blocks up
can be anything. -/
namespace RetroMedia.Lynx

/-- Bytes that a stored name takes. -/
def nameSize : Nat := 16

/-- The blocks that so many bytes take. -/
def blocksFor (size : Nat) : Nat := (size + (blockSize - 1)) / blockSize

/-- The types of files. Only files of records have a record size. -/
inductive FileType where
  | deleted
  | sequential
  | program
  | user
  | relative (recordSize : UInt16)

namespace FileType

def letter : FileType → UInt8
  | deleted => 0x44
  | sequential => 0x53
  | program => 0x50
  | user => 0x55
  | relative _ => 0x52

def code : FileType → UInt8
  | deleted => 0
  | sequential => 1
  | program => 2
  | user => 3
  | relative _ => 4

def recordSize? : FileType → Option Nat
  | relative recordSize => some recordSize.toNat
  | _ => none

theorem plain_letter (type : FileType) : Plain [type.letter] := by
  constructor <;> cases type <;> simp [letter] <;> decide

theorem typeCodeOf?_letter (type : FileType) :
    typeCodeOf? (Utf8.decodeLossy [type.letter]) = some type.code := by
  unfold typeCodeOf?
  rw [type.plain_letter.trim]
  cases type <;> rfl

end FileType

/-- A file, and what fills its last block up. -/
structure StoredFile where
  rawName : Bytes
  type : FileType
  content : Bytes
  filler : Bytes
  name_fits : rawName.length ≤ nameSize
  name_oneLine : lineEnd ∉ rawName
  /-- What a name ends in could not be told from its padding. -/
  name_ends : rawName.getLast? ≠ some Petscii.shiftedSpace
  filled : content.length + filler.length = blocksFor content.length * blockSize

namespace StoredFile

variable (file : StoredFile)

/-- The blocks of the file, as its record counts them. -/
def blocks : Nat := blocksFor file.content.length

/-- The bytes in the last block. -/
def lastUsed : Nat := file.content.length - (max file.blocks 1 - 1) * blockSize

def paddedName : Bytes :=
  file.rawName ++ List.replicate (nameSize - file.rawName.length) Petscii.shiftedSpace

/-- The lines of the file in the directory. -/
def lines : Bytes :=
  asLine file.paddedName ++ asLine (Text.decimal file.blocks) ++ asLine [file.type.letter]
    ++ asLine (Text.decimal file.lastUsed)
    ++ match file.type with
      | .relative recordSize => asLine (Text.decimal recordSize.toNat)
      | _ => []

/-- What the lines say. -/
def record : Record where
  rawName := file.rawName
  blocks := file.blocks
  typeCode := file.type.code
  lastUsed := file.lastUsed
  recordSize := file.type.recordSize?

/-- The blocks of the file. -/
def stored : Bytes := file.content ++ file.filler

theorem length_stored : file.stored.length = blocksFor file.content.length * blockSize := by
  rw [stored, List.length_append, file.filled]

theorem trimPadding_paddedName :
    Petscii.trimPadding file.paddedName Petscii.shiftedSpace = file.rawName := by
  rw [paddedName, Petscii.trimPadding_append_replicate]
  exact Petscii.trimPadding_of_ends file.name_ends

theorem paddedName_oneLine : lineEnd ∉ file.paddedName := by
  rw [paddedName, List.mem_append, not_or]
  refine ⟨file.name_oneLine, ?_⟩
  intro padding
  cases List.eq_of_mem_replicate padding

/-- The lines of a file are read as its record. -/
theorem reads_lines (addressable : file.content.length < UInt64.size) :
    Reads readRecord file.lines file.record := by
  have blocks_lt : file.blocks < UInt64.size := by
    have size : file.blocks ≤ file.content.length := by
      simp only [blocks, blocksFor, blockSize]
      omega
    omega
  have lastUsed_lt : file.lastUsed < UInt64.size :=
    Nat.lt_of_le_of_lt (Nat.sub_le ..) addressable
  have typed : Reads typeLine (asLine [file.type.letter]) file.type.code := by
    apply (reads_textLine file.type.plain_letter.oneLine).bind_pure
    rw [file.type.typeCodeOf?_letter]
    exact reads_pure _
  unfold readRecord lines
  rw [List.append_assoc, List.append_assoc, List.append_assoc]
  apply (reads_line file.paddedName_oneLine).bind
  apply (reads_numberLine _ blocks_lt).bind
  apply typed.bind
  apply (reads_numberLine _ lastUsed_lt).bind
  rw [file.trimPadding_paddedName]
  cases kind : file.type with
  | relative recordSize =>
    have recordSize_lt := recordSize.toNat_lt
    apply (reads_numberLine _ (Nat.lt_trans recordSize_lt (by decide))).bind_pure
    rw [Nat.mod_eq_of_lt recordSize_lt]
    simp only [record, kind]
    exact reads_pure _
  | deleted | sequential | program | user =>
    simp only [record, kind]
    exact reads_pure _

/-- From the blocks and the bytes in the last one follows the size. -/
theorem storedSize_eq (addressable : file.content.length < UInt64.size) :
    storedSize file.blocks file.lastUsed = some file.content.length := by
  have full : (file.blocks - 1) * blockSize + file.lastUsed = file.content.length := by
    simp only [lastUsed, blocks, blocksFor, blockSize]
    omega
  have early : (file.blocks - 1) * blockSize < UInt64.size := by omega
  simp only [storedSize, word?, if_pos early, Option.bind_eq_bind, Option.bind_some, full,
    if_pos addressable]

end StoredFile

theorem blockAlign_eq {size : Nat} (addressable : size + (blockSize - 1) < UInt64.size) :
    blockAlign size = some (blocksFor size * blockSize) := by
  have whole : blocksFor size * blockSize < UInt64.size :=
    Nat.lt_of_le_of_lt (Nat.div_mul_le_self ..) addressable
  simp only [blockAlign, word?, if_pos addressable, Option.bind_eq_bind, Option.bind_some]
  exact if_pos whole

/-- What an archive is made of. -/
structure Parts where
  preamble : Bytes
  signature : Bytes
  directoryBlocks : Nat
  creator : Bytes
  /-- What follows the header up to the directory. -/
  gap : Bytes
  files : List StoredFile
  /-- What follows the directory up to the files. -/
  slack : Bytes

namespace Parts

variable (parts : Parts)

def headerLines : Bytes :=
  asLine parts.signature ++ asLine (Text.decimal parts.directoryBlocks)
    ++ asLine (Text.decimal parts.files.length) ++ asLine parts.creator

/-- Everything up to the end of the header. -/
def front : Bytes := asLine parts.preamble ++ parts.headerLines

def directory : Bytes := parts.files.flatMap StoredFile.lines

def data : Bytes := parts.files.flatMap StoredFile.stored

def toBytes : Bytes := parts.front ++ parts.gap ++ parts.directory ++ parts.slack ++ parts.data

def container : Container := .ofBytes parts.toBytes

end Parts

/-- The parts of an archive in their places. -/
structure Layout extends Parts where
  /-- The bootstrap does not hold the marker, but the signature does, and not too far behind. -/
  unmarked : ¬ marker <:+: preamble
  marked : ∃ before after, signature = before ++ marker ++ after ∧
    preamble.length + 1 + before.length + marker.length ≤ scanLimit
  signature_plain : Plain signature
  creator_plain : Plain creator
  gap_fills : toParts.front.length + gap.length = blocksFor toParts.front.length * blockSize
  slack_fills : (toParts.front ++ gap ++ toParts.directory ++ slack).length
    = directoryBlocks * blockSize
  /-- An archive does not end with its header. -/
  continued : toParts.front.length < toParts.toBytes.length

namespace Layout

variable (layout : Layout)

/-- What the lines of the header say. -/
def header : Header where
  signature := String.ofList (layout.signature.map Char.ofUInt8)
  directoryBlocks := layout.directoryBlocks
  entryCount := layout.files.length
  creator := String.ofList (layout.creator.map Char.ofUInt8)
  directoryStart := (layout.front ++ layout.gap).length
  dataStart := layout.directoryBlocks * blockSize

/-- Where the blocks of a file begin: behind those of the files before it. -/
def offsetOf (place : Nat) : Nat :=
  layout.directoryBlocks * blockSize + ((layout.files.take place).flatMap StoredFile.stored).length

/-- The entry of a file. -/
def entryOf (place : Nat) (file : StoredFile) : Entry where
  index := place + 1
  name := Petscii.toText file.rawName
  rawName := file.rawName
  size := file.content.length
  typeCode := file.type.code
  offset := layout.offsetOf place
  recordSize := file.type.recordSize?

def entries : List Entry := layout.files.mapIdx layout.entryOf

end Layout
end RetroMedia.Lynx
