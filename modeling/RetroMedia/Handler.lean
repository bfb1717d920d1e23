import RetroMedia.Cartridge
import RetroMedia.Disk.Volume
import RetroMedia.Document
import RetroMedia.HardDisk.Volume
import RetroMedia.Lynx.Archive
import RetroMedia.Tape

/-! Containers whose format is known. All formats offer the same few operations: list the
directory, read an entry, and name its type. -/
namespace RetroMedia

/-- A container opened in one of the formats. -/
inductive Handler where
  | disk (volume : Disk.Volume)
  | archive (archive : Lynx.Archive)
  | tape (tape : Tape)
  | cartridge (cartridge : Cartridge)
  | hardDisk (volume : HardDisk.Volume)
  | document (document : Document)

namespace Handler

def format : Handler → Format
  | disk volume => volume.format
  | archive _ => .lnx
  | tape _ => .t64
  | cartridge _ => .tcrt
  | hardDisk _ => .dfi
  | document _ => .json

def container : Handler → Container
  | disk volume => volume.container
  | archive lynx => lynx.container
  | tape records => records.container
  | cartridge flash => flash.container
  | hardDisk volume => volume.container
  | document json => json.container

/-- The unit in which the format stores data. -/
def blockSize : Handler → Nat
  | disk _ => Disk.blockSize
  | archive _ => Lynx.blockSize
  | tape _ => Tape.recordSize
  | cartridge _ => Cartridge.pageSize
  | hardDisk _ => HardDisk.sectorSize
  | document _ => 1

/-- Where raw data begins behind the header of the container. -/
def dataOffset : Handler → Nat
  | archive lynx => lynx.header.dataStart
  | tape _ => Tape.headerSize
  | cartridge _ => Cartridge.flashOffset
  | _ => 0

/-- Does the case of letters matter in names? -/
def caseSensitive : Handler → Bool
  | hardDisk _ => false
  | _ => true

/-- The name of the disk, tape, cartridge or partition, or the creator of the archive. -/
def label : Handler → String
  | disk volume => volume.header.diskName
  | archive lynx => lynx.header.creator
  | tape records => records.label
  | cartridge flash => flash.label
  | hardDisk volume => volume.label
  | document _ => ""

/-- The directory, in order. -/
def entries : Handler → Walk (List Entry)
  | disk volume => volume.entries
  | archive lynx => lynx.entries
  | tape records => records.entries
  | cartridge flash => flash.entries
  | hardDisk volume => volume.entries
  | document json => json.entries

/-- A reader of the bytes of an entry. -/
def openEntry (handler : Handler) (entry : Entry) (limits : Limits) : Except MediaError Reader :=
  match handler with
  | disk volume => volume.openEntry entry limits
  | archive lynx => .ok (lynx.openEntry entry)
  | tape records => .ok (records.openEntry entry)
  | cartridge flash => .ok (flash.openEntry entry)
  | hardDisk volume => volume.openEntry entry
  | document json => json.openEntry entry

/-- The type of an entry as a listing shows it. -/
def decodeType (handler : Handler) (entry : Entry) : String :=
  match handler with
  | disk _ => Disk.Volume.decodeType entry
  | archive _ => fileTypeName entry.typeCode
  | tape _ => Tape.decodeType entry
  | cartridge _ => Cartridge.decodeType entry
  | hardDisk _ => HardDisk.Volume.decodeType entry
  | document json => json.decodeType entry

/-- The data length of the chain that begins at a location. Only disks have chains. -/
def chainSize (handler : Handler) (location : Disk.Location) (limits : Limits)
    (signals : Signals) : Except MediaError Nat × Signals :=
  match handler with
  | disk volume => Disk.chainSize volume.source location limits signals
  | _ => (.error .invalidLayout, signals)

/-- Open a container in a given format. Sources of a single generated file are no containers. -/
def openAs (container : Container) : Format → Except MediaError Handler
  | .g64 => (Disk.Volume.openTracks container).map disk
  | .d64 => (Disk.Volume.openSectors container .d64).map disk
  | .d71 => (Disk.Volume.openSectors container .d71).map disk
  | .d81 => (Disk.Volume.openSectors container .d81).map disk
  | .lnx => (Lynx.Archive.open container).map archive
  | .t64 => (Tape.open container).map tape
  | .tcrt => (Cartridge.open container).map cartridge
  | .dfi => (HardDisk.Volume.open container).map hardDisk
  | .json => (Document.open container).map document
  | .sha256 | .qr => .error .notADirectory

/-- Does a failure to open only say that the container is in another format? -/
def isMismatch : MediaError → Bool
  | .unknownFormat | .invalidHeader | .shortRead => true
  | _ => false

/-- Try formats in order. The first failure that is more than a mismatch ends the search. -/
def probe (container : Container) : List Format → Except MediaError Handler
  | [] => .error .unknownFormat
  | format :: rest =>
    match openAs container format with
    | .ok handler => .ok handler
    | .error error => if isMismatch error then probe container rest else .error error

/-- Open a container in the given format, or in the first one that fits. -/
def «open» (container : Container) : Option Format → Except MediaError Handler
  | some format => openAs container format
  | none => probe container Format.probeOrder

end Handler
end RetroMedia
