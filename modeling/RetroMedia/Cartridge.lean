import RetroMedia.Entry
import RetroMedia.Stream.Reader
import RetroMedia.Text.HexDump
import RetroMedia.Text.Petscii

/-! Cartridge images. A header precedes the dump of a flash memory, inside of which a table of
records tells where each file lies. A bundle is a file that is an image of its own. -/
namespace RetroMedia

structure Cartridge where
  container : Container
  version : Nat
  label : String
  /-- Bytes of the dump that are really there. -/
  flashLength : Nat

namespace Cartridge

def signature : Bytes := "tapecartImage".toUTF8.data.toList ++ [0x0D, 0x0A, 0x1A]

/-- Where the dump begins. -/
def flashOffset : Nat := 0xD8

/-- Where the table begins inside the dump. -/
def directoryOffset : Nat := 0x1000

def directoryRecords : Nat := 128

def recordSize : Nat := 32

def pageSize : Nat := 256

def programType : UInt8 := 0x01
def dataType : UInt8 := 0x02
def bundleType : UInt8 := 0x03
def deletedType : UInt8 := 0x00
def endType : UInt8 := 0xFF

/-- Names are padded with zeros behind shifted spaces. -/
def trimName (bytes : Bytes) : Bytes :=
  Petscii.trimPadding (Petscii.trimPadding bytes 0x00) Petscii.shiftedSpace

def «open» (container : Container) : Except MediaError Cartridge := do
  let header ← container.slice 0 flashOffset
  if header.take signature.length != signature then throw .unknownFormat
  return {
    container
    version := header.le16 0x10
    label := Petscii.toText (trimName (header.field 0x18 16))
    flashLength := container.clamp flashOffset (header.le32 0xD4) }

/-- A record of the table, if it lies inside the dump. -/
def record? (cartridge : Cartridge) (slot : Nat) : Option Bytes :=
  let offset := directoryOffset + slot * recordSize
  if cartridge.flashLength < offset + recordSize then none
  else (cartridge.container.slice (flashOffset + offset) recordSize).toOption

/-- The extension of a bundled image: letters and digits, padded with zeros. -/
def bundleExtension? (bytes : Bytes) : Option String :=
  let extension := (Petscii.trimPadding (bytes.take 4) 0x00).map Char.ofUInt8
  if !extension.isEmpty && extension.all Char.isAlphanum then
    some (Format.lower (String.ofList extension))
  else none

/-- The entry of a record in use. Its data ends at the latest with the container. -/
def readRecord (cartridge : Cartridge) (index : Nat) (record : Bytes) : Entry :=
  let rawName := trimName (record.take 16)
  let typeCode := record.byte 0x10
  let offset := flashOffset + record.le16 0x11 * pageSize
  let dataSize := cartridge.container.clamp offset (record.le24 0x13)
  let loadAddress := if typeCode == programType then some (record.le16 0x16) else none
  { index
    name := Petscii.toText rawName
    rawName
    size := dataSize + if loadAddress.isSome then 2 else 0
    typeCode
    offset
    loadAddress
    formatHint := if typeCode == bundleType then bundleExtension? (record.drop 0x18) else none }

/-- The entries of the next `count` records, up to the end mark or the end of the dump. -/
def listRecords (cartridge : Cartridge) : Nat → Nat → Nat → Walk (List Entry)
  | 0, _, _ => return []
  | count + 1, slot, index =>
    match cartridge.record? slot with
    | none => return []
    | some record =>
      if record.byte 0x10 == endType then return []
      else if record.byte 0x10 == deletedType then cartridge.listRecords count (slot + 1) index
      else do
        Progress.tick
        let more ← cartridge.listRecords count (slot + 1) (index + 1)
        return cartridge.readRecord index record :: more

def entries (cartridge : Cartridge) : Walk (List Entry) :=
  cartridge.listRecords directoryRecords 0 1

def openEntry (cartridge : Cartridge) (entry : Entry) : Reader :=
  .withLoadAddress entry.loadAddress
    { container := cartridge.container, offset := entry.offset
      remaining := entry.size - entry.addressSize }

/-- A bundle shows the extension of its image; types without a name show their code. -/
def decodeType (entry : Entry) : String :=
  if entry.typeCode == programType then "PRG"
  else if entry.typeCode == dataType then "SEQ"
  else if entry.typeCode == bundleType then
    match entry.formatHint with
    | some hint => Format.upper hint
    | none => "BND"
  else "$" ++ Format.upper (String.ofList (HexDump.byteText entry.typeCode))

end Cartridge
end RetroMedia
