import RetroMedia.Proofs.Disk.TrackWriter
import RetroMedia.Proofs.Gcr.Rotation

/-! Track images of given contents. Whatever the order of the sectors on a track, and wherever its
ring was cut, the image yields what the sector image of the same contents yields, also where there
is no sector. -/
namespace RetroMedia.Disk

open Gcr (WrittenSector Rotation render sectorsPerTrack)

theorem Geometry.sectors_track35 {track : UInt8} (first : 1 ≤ track) (last : track ≤ 35) :
    track35.sectors track = sectorsPerTrack track := by
  unfold sectors
  rw [if_neg]
  · rfl
  · rintro (zero | beyond)
    · subst zero
      exact absurd first (by decide)
    · exact absurd last (UInt8.not_le.2 beyond)

theorem Geometry.sectors_track35_beyond {track : UInt8} (beyond : 35 < track) :
    track35.sectors track = 0 := by
  unfold sectors
  rw [if_pos (.inr beyond)]

namespace TrackImage

/-- An image of 35 tracks, on each of which every sector is written with its contents, in any order
and cut anywhere. -/
structure Holds (image : TrackImage) (contents : Location → Block) : Prop where
  written : ∀ track : UInt8, 1 ≤ track → track ≤ 35 → ∃ sectors bytes,
    image.trackData track.toNat = .ok bytes ∧
      Rotation (render (WrittenSector.segments track sectors)) bytes ∧
      (∀ sector < sectorsPerTrack track, ∃ written ∈ sectors, written.sector = sector) ∧
      ∀ written ∈ sectors, written.data = (contents ⟨track, written.sector⟩).bytes
  absent : ∀ track, 35 < track → image.trackOffsets.getD ((track - 1) * 2) 0 = 0

variable {image : TrackImage} {contents : Location → Block}

/-- A track image of some contents yields them, where there is a sector. -/
theorem Holds.lookup (holds : image.Holds contents) (location : Location) :
    image.source.lookup location
      = if location.sector < Geometry.track35.sectors location.track then .ok (contents location)
        else .error .invalidLocation := by
  rw [SectorSource.lookup_eq image.heeds_source, TrackImage.contents]
  by_cases none : location.track = 0
  · have zero : sectorsPerTrack location.track = 0 := by
      rw [none]
      rfl
    have zero' : Geometry.track35.sectors location.track = 0 := by
      rw [none]
      rfl
    rw [zero, zero', if_pos UInt8.zero_le, if_neg UInt8.not_lt_zero]
  · by_cases beyond : 35 < location.track
    · have track : 35 < location.track.toNat := UInt8.lt_iff_toNat_lt.1 beyond
      have absent : image.trackData location.track.toNat = .error .invalidLocation := by
        rw [trackData, if_neg (by omega), if_pos (holds.absent _ track)]
      rw [Geometry.sectors_track35_beyond beyond, if_neg UInt8.not_lt_zero, absent]
      split <;> rfl
    · have first : 1 ≤ location.track := by
        have : location.track.toNat ≠ 0 := fun zero => none (UInt8.toNat_inj.1 zero)
        exact UInt8.le_iff_toNat_le.2 (Nat.one_le_iff_ne_zero.2 this)
      have last : location.track ≤ 35 := UInt8.not_lt.1 beyond
      obtain ⟨sectors, bytes, read, rotation, all, same⟩ := holds.written location.track first last
      rw [Geometry.sectors_track35 first last]
      by_cases valid : location.sector < sectorsPerTrack location.track
      · obtain ⟨written, member, number⟩ := all location.sector valid
        obtain ⟨found, hit, ⟨other, member', number', data⟩, _⟩ :=
          WrittenSector.search_written rotation member
        have bytes' : found.data = (contents location).bytes := by
          rw [← data, same other member', number', number]
        rw [if_pos valid, if_neg (UInt8.not_le.2 valid), read, ← number]
        dsimp only
        rw [hit]
        simp only [Except.bind, bytes']
      · rw [if_neg valid, if_pos (UInt8.not_lt.1 valid)]

end TrackImage

theorem quiet_gap (count : Nat) : ∀ byte ∈ List.replicate count (0x55 : UInt8), byte ≠ 0xFF := by
  intro byte member
  rw [List.eq_of_mem_replicate member]
  decide

/-- A sector as a drive writes it. -/
def writtenSector (contents : Location → Block) (location : Location) : WrittenSector where
  sector := location.sector
  id1 := 0x30
  id0 := 0x31
  data := (contents location).bytes
  headerOnes := 5
  headerGap := List.replicate 9 0x55
  dataOnes := 5
  dataGap := List.replicate 8 0x55
  size := (contents location).length_eq
  headerLong := by decide
  headerQuiet := quiet_gap 9
  dataLong := by decide
  dataQuiet := quiet_gap 8

/-- The sectors of a track in the order of their numbers. -/
def writtenSectors (contents : Location → Block) (track : UInt8) : List WrittenSector :=
  (List.range (sectorsPerTrack track).toNat).map fun sector =>
    writtenSector contents ⟨track, UInt8.ofNat sector⟩

/-- The coded bytes of a track, cut inside its first sector. -/
def writtenTrack (contents : Location → Block) (track : UInt8) : Bytes :=
  let written := render (WrittenSector.segments track (writtenSectors contents track))
  written.drop 100 ++ written.take 100

/-- A track image of the contents. -/
def trackImageOf (contents : Location → Block) : Container :=
  TrackImage.write ((List.range 35).map fun track => writtenTrack contents (UInt8.ofNat (track + 1)))

private theorem length_render_written (track : UInt8) (contents : Location → Block)
    (locations : List Location) :
    (render (WrittenSector.segments track (locations.map (writtenSector contents)))).length
      = locations.length * 362 := by
  have header (written : WrittenSector) :
      (Gcr.encodeGroups (written.header track).plain).length = 10 := @Gcr.length_encodeGroups _ 2 rfl
  have block (written : WrittenSector) : (Gcr.encodeGroups written.block.plain).length = 325 := by
    refine @Gcr.length_encodeGroups _ 65 ?_
    simp [WrittenSector.block, Gcr.dataBlock, written.size, Gcr.sectorSize]
  induction locations with
  | nil => rfl
  | cons location locations ih =>
    rw [List.map_cons, WrittenSector.segments, List.flatMap_cons, ← WrittenSector.segments,
      List.cons_append, Gcr.render_cons, List.cons_append, Gcr.render_cons, List.nil_append,
      List.length_append, List.length_append, ih]
    simp only [Gcr.Segment.length_bytes, Gcr.Segment.body, List.length_append, header, block]
    simp [WrittenSector.header, WrittenSector.block, writtenSector]
    omega

theorem sectorsPerTrack_le (track : UInt8) : (sectorsPerTrack track).toNat ≤ 21 := by
  unfold Gcr.sectorsPerTrack
  (repeat' split) <;> decide

theorem length_writtenTrack (contents : Location → Block) (track : UInt8) :
    (writtenTrack contents track).length = (sectorsPerTrack track).toNat * 362 := by
  have whole := length_render_written track contents
    ((List.range (sectorsPerTrack track).toNat).map fun sector => ⟨track, UInt8.ofNat sector⟩)
  rw [List.map_map, List.length_map, List.length_range] at whole
  rw [writtenTrack, List.length_append, Nat.add_comm, ← List.length_append, List.take_append_drop]
  exact whole

/-- Every disk has a track image. -/
theorem exists_holds (contents : Location → Block) :
    ∃ image, TrackImage.open (trackImageOf contents) = .ok image ∧ image.Holds contents := by
  have few : ((List.range 35).map fun track =>
      writtenTrack contents (UInt8.ofNat (track + 1))).length < 128 := by simp
  obtain ⟨image, opened, present, absent⟩ := TrackImage.open_write few (by
    intro track member
    obtain ⟨number, _, rfl⟩ := List.mem_map.1 member
    have small := sectorsPerTrack_le (UInt8.ofNat (number + 1))
    rw [length_writtenTrack]
    omega)
  refine ⟨image, opened, ?_, ?_⟩
  · intro track first last
    have positive : 1 ≤ track.toNat := UInt8.le_iff_toNat_le.1 first
    have within : track.toNat ≤ 35 := UInt8.le_iff_toNat_le.1 last
    obtain ⟨before, same⟩ : ∃ before, track.toNat = before + 1 := ⟨track.toNat - 1, by omega⟩
    have number : UInt8.ofNat (before + 1) = track := by rw [← same, UInt8.ofNat_toNat]
    refine ⟨writtenSectors contents track, writtenTrack contents track, ?_, ?_, ?_, ?_⟩
    · rw [same]
      apply present
      rw [List.getElem?_map, List.getElem?_range (by omega), ← number]
      rfl
    · exact ⟨_, _, (List.take_append_drop 100 _).symm, rfl⟩
    · intro sector valid
      refine ⟨writtenSector contents ⟨track, sector⟩, ?_, rfl⟩
      refine List.mem_map.2 ⟨sector.toNat, ?_, by rw [UInt8.ofNat_toNat]⟩
      exact List.mem_range.2 (UInt8.lt_iff_toNat_lt.1 valid)
    · intro written member
      obtain ⟨sector, _, rfl⟩ := List.mem_map.1 member
      rfl
  · intro track beyond
    exact absent (track - 1) (by simp; omega)

end RetroMedia.Disk
