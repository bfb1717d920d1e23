import RetroMedia.Entry
import RetroMedia.HardDisk.Pointer
import RetroMedia.Stream.Reader
import RetroMedia.Text.Petscii

/-! Hard disks. A boot sector leads to a table of partitions; the first native one is served. Its
directory is a chain of sectors of sixteen entries. Subdirectories, and files behind trees of
pointers, are listed but cannot be read. -/
namespace RetroMedia.HardDisk

def sectorSize : Nat := 512

def slotSize : Nat := 32

def signature : Bytes := "DFIMAGE".toUTF8.data.toList

/-- The kind of the partitions that can be served. -/
def nativeKind : UInt8 := 0x01

/-- Sectors of a partition ahead of its root directory. -/
def rootDirectorySector : Nat := 2

/-- The type of a subdirectory. -/
def directoryType : UInt8 := 5

/-- Where a directory sector keeps the pointer to the next one. -/
def nextDirectoryOffset : Nat := 0x1FC

/-- Names end in zeros, then shifted spaces, then spaces, as far as they are padded at all. -/
def trimName (bytes : Bytes) : Bytes :=
  Petscii.trimPadding (Petscii.trimPadding (Petscii.trimPadding bytes 0x00) Petscii.shiftedSpace)
    0x20

/-- A slot of the partition table that is in use. -/
structure Partition where
  slot : Nat
  kind : UInt8
  name : String
  start : Pointer
  finish : Pointer
  deriving DecidableEq, Repr

def Partition.ofSlot (slot : Nat) (bytes : Bytes) : Partition where
  slot
  kind := bytes.byte 0
  name := Petscii.toText (trimName (bytes.field 0x01 16))
  start := Pointer.ofBytes (bytes.drop 0x11)
  finish := Pointer.ofBytes (bytes.drop 0x15)

/-- A hard disk with the partition that is served. -/
structure Volume where
  container : Container
  geometry : DriveGeometry
  partitions : List Partition
  active : Partition
  rootDirectory : Nat

/-- The permissions that an attribute byte grants, a dash for each one it does not. -/
def permissions (attributes : UInt8) : String :=
  String.ofList ([(0x20, 'r'), (0x10, 'w'), (0x08, 'x'), (0x40, 'd')].map
    fun ((mask, letter) : UInt8 × Char) => if attributes &&& mask == 0 then '-' else letter)

namespace Volume

/-- The slots of a partition table that are in use. -/
def partitionsOf (table : Bytes) : List Partition :=
  ((table.records slotSize).mapIdx Partition.ofSlot).filter (·.kind != 0)

def «open» (container : Container) : Except MediaError Volume := do
  let boot ← container.slice 0 sectorSize
  if boot.take signature.length != signature then throw .unknownFormat
  let geometry : DriveGeometry := ⟨boot.byte 0x0C, boot.byte 0x0D⟩
  let pointer := Pointer.ofBytes (boot.drop 0x08)
  if pointer.isNull then throw .invalidHeader
  let lba ← pointer.lba geometry
  match container.slice (lba * sectorSize) sectorSize with
  | .error _ => throw .invalidHeader
  | .ok table =>
    let partitions := partitionsOf table
    match partitions.find? (·.kind == nativeKind) with
    | none => throw .invalidLayout
    | some active =>
      let start ← active.start.lba geometry
      let rootDirectory := start + rootDirectorySector
      return { container, geometry, partitions, active, rootDirectory }

def label (volume : Volume) : String := volume.active.name

/-- The data that an entry's slot leads to: offset, size, and whether it is left unresolved. -/
def resolveData (volume : Volume) (attributes : UInt8) (pointer : Pointer) (stored : Nat) :
    Nat × Nat × Bool :=
  if attributes &&& 0x07 == directoryType || pointer.isIndirect then (0, stored, true)
  else if pointer.isNull then (0, 0, false)
  else
    match pointer.lba volume.geometry with
    | .ok lba => (lba * sectorSize, volume.container.clamp (lba * sectorSize) stored, false)
    | .error _ => (0, stored, true)

/-- The entry of a slot in use. -/
def readSlot (volume : Volume) (index : Nat) (slot : Bytes) : Entry :=
  let rawName := trimName (slot.take 8)
  let attributes := slot.byte 0x10
  let extra := slot.byte 0x15
  let (offset, size, incomplete) :=
    volume.resolveData attributes (Pointer.ofBytes (slot.drop 0x0C)) (slot.le32 0x08)
  { index
    name := Petscii.toText rawName
    rawName
    size
    kind := if attributes &&& 0x07 == directoryType then .directory else .file
    typeCode := attributes
    offset
    timestamp := Timestamp.unpack? (slot.le32 0x11)
    recordSize := if extra == 0 then none else some extra.toNat
    incomplete }

/-- The entries of some slots, the first of which gets number `index`. -/
def listSlots (volume : Volume) : Nat → List Bytes → Walk (List Entry)
  | _, [] => return []
  | index, slot :: rest =>
    if slot.byte 0 == 0 then volume.listSlots index rest
    else do
      Progress.tick
      let more ← volume.listSlots (index + 1) rest
      return volume.readSlot index slot :: more

/-- The counter of a directory chain of at most `limit` sectors after `steps` of them. -/
def chainCounter (progress : Progress) (limit steps : Nat) : Progress :=
  { limits := progress.limits, count := steps, bound := some limit, signals := progress.signals }

/-- The entries of the directory chain from sector `lba` on. -/
def listSectors (volume : Volume) (limit lba : Nat) (visited : List Nat) (steps index : Nat) :
    Walk (List Entry) := fun progress =>
  match step : Progress.tick (chainCounter progress limit steps) with
  | .error error after => .error error { progress with signals := after.signals }
  | .ok _ after =>
    have _bound : after.count = steps + 1 ∧ after.count ≤ limit := Progress.tick_ok_le rfl step
    (do
      if lba ∈ visited then throw .chainLoop
      match volume.container.slice (lba * sectorSize) sectorSize with
      | .error error => throw error
      | .ok sector =>
        let here ← volume.listSlots index (sector.records slotSize)
        let link := Pointer.ofBytes (sector.drop nextDirectoryOffset)
        if link.isNull then return here
        match link.lba volume.geometry with
        | .error error => throw error
        | .ok next =>
          let more ← volume.listSectors limit next (lba :: visited) after.count
            (index + here.length)
          return here ++ more : Walk (List Entry)) { progress with signals := after.signals }
termination_by limit - steps
decreasing_by omega

/-- The directory, in order. -/
def entries (volume : Volume) : Walk (List Entry) := do
  let progress ← get
  volume.listSectors progress.limits.maxChainBlocks volume.rootDirectory [] 0 1

def openEntry (volume : Volume) (entry : Entry) : Except MediaError Reader :=
  if entry.incomplete then .error .partialEntry
  else .ok (.range []
    { container := volume.container, offset := entry.offset, remaining := entry.size })

/-- The file type, with a star for a file that was never closed and a sign for one that must not be
deleted. -/
def decodeType (entry : Entry) : String :=
  (if entry.typeCode &&& 0x80 == 0 then "*" else "")
    ++ (if entry.typeCode &&& 0x07 == directoryType then "DIR" else fileTypeName entry.typeCode)
    ++ (if entry.typeCode &&& 0x40 == 0 then "<" else "")

end Volume
end RetroMedia.HardDisk
