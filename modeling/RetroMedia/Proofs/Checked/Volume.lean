import RetroMedia.Disk.Volume
import RetroMedia.Proofs.Checked.ChainReader
import RetroMedia.Proofs.Checked.TrackImage

/-! Disks opened and listed with checked accesses. -/
namespace RetroMedia

namespace Bytes

theorem length_of_mem_records {bytes : Bytes} {size : Nat} {record : Bytes}
    (member : record ∈ bytes.records size) : record.length = size := by
  rw [records_eq] at member
  obtain ⟨index, inside, rfl⟩ := List.mem_map.1 member
  rw [List.mem_range] at inside
  have whole : (index + 1) * size ≤ bytes.length :=
    Nat.le_trans (Nat.mul_le_mul_right size inside) (Nat.div_mul_le_self ..)
  rw [Nat.succ_mul] at whole
  exact length_field _ whole

end Bytes

namespace Checked

open Disk (Location ChainWalk HeaderLayout)

/-- A disk with the checked source of its sectors. -/
structure Volume where
  plain : Disk.Volume
  source : Source

namespace Volume

/-- The text of a padded field. -/
def paddedText (bytes : Bytes) (padding : UInt8) : Checked String := do
  toText (← trimPadding bytes padding)

theorem paddedText_eq {bytes : Bytes} (addressable : bytes.length < UInt64.size) (padding : UInt8) :
    paddedText bytes padding = .ok (Petscii.ofPadded bytes padding) := by
  rw [paddedText, trimPadding_eq addressable, ok_bind, toText_eq]
  rfl

/-- Two bytes in a row. -/
def pair (block : Bytes) (offset : Nat) : Checked Bytes := do
  return [← item block offset, ← item block (← add UInt64.size offset 1)]

def parseHeader (block : Bytes) (layout : HeaderLayout) : Checked Disk.Header := do
  let name ← part block layout.nameOffset (← add UInt64.size layout.nameOffset 16)
  return {
    diskName := ← paddedText name Petscii.shiftedSpace
    diskId := ← pair block layout.idOffset
    diskType := ← pair block layout.typeOffset }

/-- All fields of a header lie inside a sector. -/
def Fits (layout : HeaderLayout) : Prop :=
  layout.nameOffset + 16 ≤ Disk.blockSize ∧ layout.idOffset + 2 ≤ Disk.blockSize ∧
    layout.typeOffset + 2 ≤ Disk.blockSize

instance (layout : HeaderLayout) : Decidable (Fits layout) := inferInstanceAs (Decidable (_ ∧ _ ∧ _))

theorem pair_eq {block : Bytes} (small : block.length ≤ Disk.blockSize) {offset : Nat}
    (inside : offset + 2 ≤ block.length) : pair block offset = .ok (block.field offset 2) := by
  have few : block.length < 4294967296 := Nat.lt_of_le_of_lt small (by decide)
  have two : block.field offset 2 = [block.byte offset, block.byte (offset + 1)] := by
    rw [Bytes.field, List.drop_eq_getElem_cons (by omega), List.drop_eq_getElem_cons (by omega),
      Bytes.byte, Bytes.byte, ← List.getElem_eq_getD (h := by omega) 0,
      ← List.getElem_eq_getD (h := by omega) 0]
    rfl
  rw [pair, byte_eq (by omega), ok_bind, add_eq (lt_word (by omega)), ok_bind, byte_eq (by omega), two]
  rfl

theorem parseHeader_eq {block : Bytes} (whole : block.length = Disk.blockSize) {layout : HeaderLayout}
    (fits : Fits layout) : parseHeader block layout = .ok (Disk.Header.parse block layout) := by
  obtain ⟨name, id, type⟩ := fits
  have inside : layout.nameOffset + 16 < 4294967296 := Nat.lt_of_le_of_lt name (by decide)
  have text := field_lt block layout.nameOffset (by decide : 16 < 4294967296)
  rw [parseHeader, add_eq (lt_word inside), ok_bind, part_eq (by omega) (by rw [whole]; exact name),
    ok_bind, Nat.add_sub_cancel_left, paddedText_eq text, ok_bind,
    pair_eq (Nat.le_of_eq whole) (by rw [whole]; exact id), ok_bind,
    pair_eq (Nat.le_of_eq whole) (by rw [whole]; exact type)]
  rfl

/-- Read the header of a disk. -/
def openWith (format : Format) (container : Container) (source : Source) (plain : Disk.SectorSource)
    (layout : HeaderLayout) : Checked (Except MediaError Volume) := do
  match ← source layout.location {} with
  | .error error _ => return .error error
  | .ok block _ =>
    let header ← parseHeader block.bytes layout
    return .ok {
      plain := { format, container, source := plain, header, firstDirectory := layout.firstDirectory }
      source }

/-- The source of a disk meets no fault. -/
def Sound (volume : Volume) : Prop := volume.source.Faithful volume.plain.source

theorem opens_openWith {format : Format} {container : Container} {source : Source}
    {plain : Disk.SectorSource} (faithful : source.Faithful plain) {layout : HeaderLayout}
    (fits : Fits layout) :
    Opens Sound Volume.plain (openWith format container source plain layout)
      (Disk.Volume.openWith format container plain layout) := by
  have room : Room (scanSteps + 0) {} := show 0 + scanSteps < UInt64.size by decide
  unfold openWith Disk.Volume.openWith
  rw [(faithful layout.location 0 {} room).1, ok_bind]
  cases plain layout.location {} with
  | error error _ => exact opens_error error
  | ok block _ =>
    dsimp only
    rw [parseHeader_eq block.length_eq fits, ok_bind]
    exact ⟨_, rfl, rfl, by rintro _ ⟨⟩; exact faithful⟩

/-- The checked geometries and the header layout of the sector images of a format. -/
def sectorLayout? : Format → Option (List Geometry × HeaderLayout)
  | .d64 => some (Geometry.d64, .track18)
  | .d71 => some (Geometry.d71, .track18)
  | .d81 => some (Geometry.d81, .track40)
  | _ => none

theorem sectorLayout?_eq (format : Format) :
    (sectorLayout? format).map (Prod.map (·.map Geometry.plain) id)
      = Disk.Volume.sectorLayout? format := by
  cases format <;> rfl

theorem fits_sectorLayout {format : Format} {geometries : List Geometry} {layout : HeaderLayout}
    (known : sectorLayout? format = some (geometries, layout)) : Fits layout := by
  cases format <;> cases known <;> decide

/-- A sector image must have exactly the size of one of its format's geometries. -/
def openSectors (container : Container) (format : Format) : Checked (Except MediaError Volume) := do
  match sectorLayout? format with
  | none => return .error .unknownFormat
  | some (geometries, layout) =>
    match ← Geometry.findBySize? container.size geometries with
    | none => return .error .unknownFormat
    | some geometry =>
      openWith format container (geometry.source container) (geometry.plain.source container) layout

def openTracks (container : Container) : Checked (Except MediaError Volume) := do
  match ← openImage container with
  | .error error => return .error error
  | .ok image => openWith .g64 container (trackSource image) image.source .track18

variable {container : Container} (addressable : container.size < UInt64.size)

include addressable

theorem opens_openSectors (format : Format) :
    Opens Sound plain (openSectors container format) (Disk.Volume.openSectors container format) := by
  unfold openSectors Disk.Volume.openSectors
  rw [← sectorLayout?_eq]
  cases known : sectorLayout? format with
  | none => exact opens_error _
  | some found =>
    obtain ⟨geometries, layout⟩ := found
    obtain ⟨geometry, found, same⟩ := Geometry.findBySize?_eq container.size geometries
    dsimp only [Option.map_some, Prod.map, id]
    rw [found, ← same, ok_bind]
    cases geometry with
    | none => exact opens_error _
    | some geometry =>
      exact opens_openWith (geometry.faithful_source addressable) (fits_sectorLayout known)

theorem opens_openTracks :
    Opens Sound plain (openTracks container) (Disk.Volume.openTracks container) := by
  unfold openTracks Disk.Volume.openTracks
  obtain ⟨outcome, opened, same, within⟩ := opens_openImage addressable
  rw [opened, ok_bind, ← same]
  cases outcome with
  | error error => exact opens_error error
  | ok image =>
    exact opens_openWith (faithful_trackSource (within image rfl ▸ addressable)) (by decide)

end Volume
end Checked
end RetroMedia
