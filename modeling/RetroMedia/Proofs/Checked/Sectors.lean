import RetroMedia.Disk.Geometry
import RetroMedia.Disk.TrackImage
import RetroMedia.Proofs.Checked.Track

/-! Sectors found with checked accesses, by their offsets in sector images and by their headers in track
images. -/
namespace RetroMedia.Checked

open Disk (Location Block SectorSource TrackImage)

/-- Whatever yields the contents of a sector. -/
abbrev Source := Location → Program Progress Block

/-- The most steps in which a source finds one sector. -/
def scanSteps : Nat := UInt16.size

/-- The source meets no fault and finds what the plain one finds. -/
def Source.Faithful (source : Source) (plain : SectorSource) : Prop :=
  ∀ location, Takes scanSteps (source location) (plain location) fun _ => True

/-- The second side of a disk begins after 35 tracks. -/
def doubleSided (track : UInt8) : Checked UInt8 := do
  if 35 < track then return Gcr.sectorsPerTrack (UInt8.ofNat (← sub track.toNat 35))
  else return Gcr.sectorsPerTrack track

theorem doubleSided_eq (track : UInt8) :
    doubleSided track = .ok (Disk.Geometry.doubleSided track) := by
  unfold doubleSided Disk.Geometry.doubleSided
  split
  · rename_i second
    have low : 35 ≤ track := UInt8.le_of_lt second
    have shift : UInt8.ofNat (track.toNat - 35) = track - 35 := by
      have size := track.toNat_lt
      rw [← UInt8.toNat_inj, UInt8.toNat_sub_of_le _ _ low, UInt8.toNat_ofNat']
      change (track.toNat - 35) % 256 = track.toNat - 35
      omega
    have low' : 35 ≤ track.toNat := UInt8.le_iff_toNat_le.1 low
    rw [sub_eq low', ok_bind, shift]
    rfl
  · rfl

/-- A geometry with a checked layout. -/
structure Geometry where
  plain : Disk.Geometry
  layout : UInt8 → Checked UInt8
  same : ∀ track, layout track = .ok (plain.layout track)

namespace Geometry

variable (geometry : Geometry)

/-- A geometry whose layout computes nothing. -/
def ofPlain (plain : Disk.Geometry) : Geometry where
  plain
  layout track := return plain.layout track
  same _ := rfl

def ofDoubleSided (withErrorTable : Bool) : Geometry where
  plain := ⟨70, Disk.Geometry.doubleSided, withErrorTable⟩
  layout := doubleSided
  same := doubleSided_eq

def d64 : List Geometry := Disk.Geometry.d64.map ofPlain

def d71 : List Geometry := [ofDoubleSided false, ofDoubleSided true]

def d81 : List Geometry := Disk.Geometry.d81.map ofPlain

def sectors (track : UInt8) : Checked UInt8 :=
  if track = 0 ∨ geometry.plain.tracks < track then return 0 else geometry.layout track

theorem sectors_eq (track : UInt8) :
    geometry.sectors track = .ok (geometry.plain.sectors track) := by
  unfold sectors Disk.Geometry.sectors
  split
  · rfl
  · exact geometry.same track

def sectorsThrough : Nat → Checked Nat
  | 0 => return 0
  | track + 1 => do
    let before ← sectorsThrough track
    let here ← geometry.sectors (UInt8.ofNat (track + 1))
    add UInt64.size before here.toNat

theorem sectorsThrough_le (track : Nat) : geometry.plain.sectorsThrough track ≤ track * 256 := by
  induction track with
  | zero => exact Nat.le_refl _
  | succ track ih =>
    have here := (geometry.plain.sectors (UInt8.ofNat (track + 1))).toNat_lt
    simp only [Disk.Geometry.sectorsThrough]
    omega

theorem sectorsThrough_eq {track : Nat} (small : track ≤ 256) :
    geometry.sectorsThrough track = .ok (geometry.plain.sectorsThrough track) := by
  induction track with
  | zero => rfl
  | succ track ih =>
    have total := geometry.sectorsThrough_le (track + 1)
    unfold Disk.Geometry.sectorsThrough at total ⊢
    rw [sectorsThrough, ih (by omega), ok_bind, sectors_eq, ok_bind, add_eq (lt_word (by omega))]

/-- The exact size of an image. -/
def size : Checked Nat := do
  let total ← geometry.sectorsThrough geometry.plain.tracks.toNat
  let data ← mul UInt64.size total Disk.blockSize
  add UInt64.size data (if geometry.plain.withErrorTable then total else 0)

theorem size_eq : geometry.size = .ok geometry.plain.size := by
  have tracks := geometry.plain.tracks.toNat_lt
  have total := geometry.sectorsThrough_le geometry.plain.tracks.toNat
  have table : (if geometry.plain.withErrorTable then
      geometry.plain.sectorsThrough geometry.plain.tracks.toNat else 0) ≤ 65536 := by
    split <;> omega
  unfold size Disk.Geometry.size Disk.Geometry.totalSectors Disk.blockSize
  rw [sectorsThrough_eq _ (Nat.le_of_lt tracks), ok_bind, mul_eq (lt_word (by omega)), ok_bind,
    add_eq (lt_word (by omega))]

/-- The first of some geometries that an image of `size` bytes fits. -/
def findBySize? (size : Nat) : List Geometry → Checked (Option Geometry)
  | [] => return none
  | geometry :: rest => do
    if (← geometry.size) == size then return some geometry else findBySize? size rest

theorem findBySize?_eq (size : Nat) (geometries : List Geometry) :
    ∃ found, findBySize? size geometries = .ok found ∧
      found.map plain = Disk.Geometry.findBySize? size (geometries.map plain) := by
  induction geometries with
  | nil => exact ⟨none, rfl, rfl⟩
  | cons geometry rest ih =>
    rw [findBySize?, geometry.size_eq, ok_bind, List.map_cons, Disk.Geometry.findBySize?,
      List.find?_cons]
    cases fits : geometry.plain.size == size with
    | true => exact ⟨some geometry, rfl, rfl⟩
    | false => exact ih

/-- Where a sector begins. -/
def offset (location : Location) : Checked (Except MediaError Nat) := do
  if (← geometry.sectors location.track) ≤ location.sector then return .error .invalidLocation
  let before ← geometry.sectorsThrough (location.track.toNat - 1)
  let place ← add UInt64.size before location.sector.toNat
  return .ok (← mul UInt64.size place Disk.blockSize)

theorem offset_eq (location : Location) :
    geometry.offset location = .ok (geometry.plain.offset location) := by
  have track := location.track.toNat_lt
  have sector := location.sector.toNat_lt
  have total := geometry.sectorsThrough_le (location.track.toNat - 1)
  unfold offset Disk.Geometry.offset Disk.blockSize
  rw [sectors_eq, ok_bind]
  split
  · rfl
  · rw [sectorsThrough_eq _ (by omega), ok_bind, add_eq (lt_word (by omega)), ok_bind,
      mul_eq (lt_word (by omega))]
    rfl

/-- A copy into an array of the size of a sector must fill it. -/
def block (bytes : Bytes) : Checked Block :=
  if whole : bytes.length = Disk.blockSize then .ok ⟨bytes, whole⟩ else .error .outOfBounds

theorem block_eq {bytes : Bytes} (whole : bytes.length = Disk.blockSize) :
    block bytes = .ok ⟨bytes, whole⟩ := dif_pos whole

/-- A sector of an image. -/
def source (container : Container) : Source := fun location => do
  match ← geometry.offset location with
  | .error error => throw error
  | .ok offset =>
    match ← slice container offset Disk.blockSize with
    | .error error => throw error
    | .ok bytes => block bytes

theorem faithful_source {container : Container} (addressable : container.size < UInt64.size) :
    (geometry.source container).Faithful (geometry.plain.source container) := by
  intro location
  refine Takes.mono ?_ (Nat.zero_le _)
  unfold source Disk.Geometry.source Disk.SectorSource.ofLookup
  apply Takes.lift (geometry.offset_eq location)
  dsimp only
  cases geometry.plain.offset location with
  | error error => exact takes_throw error
  | ok offset =>
    apply Takes.lift (slice_eq addressable offset Disk.blockSize)
    dsimp only [bind, Except.bind]
    -- both sides look at the same slice, the plain one together with a proof
    split
    · rename_i error failed
      split <;> rename_i found <;> split at found <;> rename_i read <;>
        cases failed.symm.trans read <;> cases found
      exact takes_throw error
    · rename_i bytes there
      rw [block_eq (Container.length_of_slice there)]
      split <;> rename_i found <;> split at found <;> rename_i read <;>
        cases there.symm.trans read <;> cases found
      exact takes_pure trivial

end Geometry
end RetroMedia.Checked
