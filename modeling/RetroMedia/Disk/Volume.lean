import RetroMedia.Disk.ChainReader
import RetroMedia.Disk.Geometry
import RetroMedia.Disk.TrackImage
import RetroMedia.Entry
import RetroMedia.Stream.Reader
import RetroMedia.Text.Petscii

/-! Disks. A header sector names the disk, and a chain of directory sectors lists its files. All of
this is the same whether sectors come from their offsets or from coded tracks. -/
namespace RetroMedia.Disk

/-- Where a disk keeps its header and its directory. -/
structure HeaderLayout where
  location : Location
  nameOffset : Nat
  idOffset : Nat
  typeOffset : Nat
  firstDirectory : Location

namespace HeaderLayout

/-- The header in the middle of 35 tracks. -/
def track18 : HeaderLayout := ⟨⟨18, 0⟩, 0x90, 0xA2, 0xA5, ⟨18, 1⟩⟩

/-- The header in the middle of 80 tracks. -/
def track40 : HeaderLayout := ⟨⟨40, 0⟩, 0x04, 0x16, 0x19, ⟨40, 3⟩⟩

end HeaderLayout

/-- The fields of a header sector. -/
structure Header where
  diskName : String
  diskId : Bytes
  diskType : Bytes
  deriving DecidableEq, Repr

def Header.parse (block : Bytes) (layout : HeaderLayout) : Header where
  diskName := Petscii.ofPadded (block.field layout.nameOffset 16) Petscii.shiftedSpace
  diskId := block.field layout.idOffset 2
  diskType := block.field layout.typeOffset 2

/-- A disk whose header has been read. -/
structure Volume where
  format : Format
  container : Container
  source : SectorSource
  header : Header
  firstDirectory : Location

/-- Data bytes in a full sector of a chain. -/
def chainedSize : Nat := 254

/-- Bytes in a directory slot. -/
def slotSize : Nat := 32

/-- Set in the type of a file that was closed properly. -/
def closedMask : UInt8 := 0x80

/-- Set in the type of a file that must not be changed. -/
def lockedMask : UInt8 := 0x40

/-- A slot of a file that was deleted, or that was never used. -/
def isFreeSlot (slot : Bytes) : Bool :=
  let typeCode := slot.byte 0x02
  typeCode &&& closedMask == 0 && typeCode &&& 0x07 == 0

namespace Volume

/-- Read the header of a disk. Nothing is counted or cancelled on the way. -/
def openWith (format : Format) (container : Container) (source : SectorSource)
    (layout : HeaderLayout) : Except MediaError Volume :=
  match source layout.location {} with
  | .error error _ => .error error
  | .ok block _ => .ok {
      format, container, source
      header := Header.parse block.bytes layout
      firstDirectory := layout.firstDirectory }

/-- The geometries and the header layout of the sector images of a format. -/
def sectorLayout? : Format → Option (List Geometry × HeaderLayout)
  | .d64 => some (Geometry.d64, .track18)
  | .d71 => some (Geometry.d71, .track18)
  | .d81 => some (Geometry.d81, .track40)
  | _ => none

/-- A sector image must have exactly the size of one of its format's geometries. -/
def openSectors (container : Container) (format : Format) : Except MediaError Volume :=
  match sectorLayout? format with
  | none => .error .unknownFormat
  | some (geometries, layout) =>
    match Geometry.findBySize? container.size geometries with
    | none => .error .unknownFormat
    | some geometry => openWith format container (geometry.source container) layout

def openTracks (container : Container) : Except MediaError Volume := do
  let image ← TrackImage.open container
  openWith .g64 container image.source .track18

/-- The data length of a chain, as far as it can be told. -/
def measureChain (volume : Volume) (start : Location) : Walk (Except MediaError Nat) :=
  fun progress =>
    let (size, signals) := chainSize volume.source start progress.limits progress.signals
    .ok size { progress with signals }

/-- The entry of a directory slot. A file whose chain cannot be walked is listed with the size that
its stored number of sectors amounts to. -/
def readSlot (volume : Volume) (index : Nat) (slot : Bytes) : Walk Entry := do
  let typeCode := slot.byte 0x02
  let start := Location.ofBytes (slot.drop 0x03)
  let rawName := slot.field 0x05 16
  let size ← volume.measureChain start
  return {
    index
    name := Petscii.ofPadded rawName Petscii.shiftedSpace
    rawName
    size := match size with
      | .ok size => size
      | .error _ => slot.le16 0x1E * chainedSize
    typeCode
    location := some start
    recordSize := if typeCode &&& 0x07 == 0x04 then some (slot.byte 0x17).toNat else none }

/-- The entries of some slots, the first of which gets number `index`. -/
def listSlots (volume : Volume) : Nat → List Bytes → Walk (List Entry)
  | _, [] => return []
  | index, slot :: rest =>
    if isFreeSlot slot then volume.listSlots index rest
    else do
      Progress.tick
      let entry ← volume.readSlot index slot
      let more ← volume.listSlots (index + 1) rest
      return entry :: more

/-- The entries of the directory sectors that a walk still has before it. -/
def listSectors (volume : Volume) (walk : ChainWalk) (index : Nat) : Walk (List Entry) :=
  fun progress =>
    match _step : walk.advance progress.signals with
    | (none, _, signals) => .ok [] { progress with signals }
    | (some (.error error), _, signals) => .error error { progress with signals }
    | (some (.ok sector), after, signals) =>
      (do
        let here ← volume.listSlots index (sector.data.records slotSize)
        let more ← volume.listSectors after (index + here.length)
        return here ++ more : Walk (List Entry)) { progress with signals }
termination_by walk.remaining
decreasing_by exact ChainWalk.remaining_lt_of_advance _step

/-- The directory, in order. -/
def entries (volume : Volume) : Walk (List Entry) := fun progress =>
  let walk := ChainWalk.start volume.source volume.firstDirectory progress.limits
  volume.listSectors walk 1 progress

def openEntry (volume : Volume) (entry : Entry) (limits : Limits) : Except MediaError Reader :=
  match entry.location with
  | some location => .ok (.chain (ChainReader.start volume.source location limits))
  | none => .error .invalidLocation

/-- The file type, with a star for a file that was never closed and a sign for a locked one. -/
def decodeType (entry : Entry) : String :=
  (if entry.typeCode &&& closedMask == 0 then "*" else "") ++ fileTypeName entry.typeCode
    ++ (if entry.typeCode &&& lockedMask == 0 then "" else "<")

end Volume
end RetroMedia.Disk
