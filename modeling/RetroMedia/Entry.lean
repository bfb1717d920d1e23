import RetroMedia.Disk.Sectors
import RetroMedia.Format
import RetroMedia.Text.Utf8
import RetroMedia.Timestamp

/-! Entries: what a container's directory says about each file in it. -/
namespace RetroMedia

inductive EntryKind where
  | file
  | directory
  deriving DecidableEq, Repr

/-- One file or directory inside a container. -/
structure Entry where
  /-- The place in the directory, counted from one. -/
  index : Nat
  name : String
  /-- The name as it is stored. -/
  rawName : Bytes
  /-- The number of bytes that reading the entry yields. -/
  size : Nat
  kind : EntryKind := .file
  /-- A type byte, whose meaning depends on the format. -/
  typeCode : UInt8 := 0
  /-- Where contiguous data begins in the container. -/
  offset : Nat := 0
  /-- Where chained data begins. -/
  location : Option Disk.Location := none
  timestamp : Option Timestamp := none
  /-- An address that is served ahead of the data. -/
  loadAddress : Option Nat := none
  recordSize : Option Nat := none
  /-- The data cannot be fully resolved. -/
  incomplete : Bool := false
  /-- The extension of a container format that the entry holds. -/
  formatHint : Option String := none
  deriving DecidableEq, Repr

namespace Entry

def isDirectory (entry : Entry) : Bool := entry.kind == .directory

def extension? (entry : Entry) : Option String := extensionOf entry.name

/-- How many of the bytes that the entry yields are its load address. -/
def addressSize (entry : Entry) : Nat := if entry.loadAddress.isSome then 2 else 0

end Entry
end RetroMedia
