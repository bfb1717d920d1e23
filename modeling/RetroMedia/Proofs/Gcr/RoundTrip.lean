import Mathlib.Data.List.Nodup
import RetroMedia.Proofs.Gcr.Search
import RetroMedia.Proofs.Gcr.Rotation

/-! What is written on a track is read back from it. Wherever the ring of a written track is cut, each
of its sectors comes out with its data, all of them clean, and no other sector is found. -/
namespace RetroMedia.Gcr

theorem encode_of_groups {plain : Bytes} (groups : plain.length % 4 = 0) :
    encode plain = .ok (encodeGroups plain) := if_pos groups

theorem encode_headerBlock (number sector id1 id0 : UInt8) :
    encode (headerBlock number sector id1 id0)
      = .ok (encodeGroups (headerBlock number sector id1 id0)) := by
  have groups : (headerBlock number sector id1 id0).length % 4 = 0 := by
    simp [headerBlock]
  exact encode_of_groups groups

theorem encode_dataBlock {data : Bytes} (size : data.length = sectorSize) :
    encode (dataBlock data) = .ok (encodeGroups (dataBlock data)) := by
  have groups : (dataBlock data).length % 4 = 0 := by
    simp [dataBlock, size, sectorSize]
  exact encode_of_groups groups

namespace WrittenSector

/-- A sector as it is laid out on its track: sync, header block, gap, sync, data block, gap. -/
def layOut (number : UInt8) (written : WrittenSector) : Except MediaError Bytes := do
  let header ← encode (headerBlock number written.sector written.id1 written.id0)
  let block ← encode (dataBlock written.data)
  return List.replicate written.headerOnes 0xFF ++ header ++ written.headerGap
    ++ (List.replicate written.dataOnes 0xFF ++ block ++ written.dataGap)

/-- A whole track, sector after sector. -/
def layOutAll (number : UInt8) : List WrittenSector → Except MediaError Bytes
  | [] => return []
  | written :: sectors => do
    let first ← layOut number written
    let rest ← layOutAll number sectors
    return first ++ rest

theorem layOut_eq (number : UInt8) (written : WrittenSector) :
    layOut number written = .ok ((written.header number).bytes ++ written.block.bytes) := by
  rw [layOut, encode_headerBlock, encode_dataBlock written.size]
  simp [bind, Except.bind, pure, Except.pure, Segment.bytes, Segment.body, header, block]

/-- The layout never fails, and it is the track whose segments are searched. -/
theorem layOutAll_eq (number : UInt8) (sectors : List WrittenSector) :
    layOutAll number sectors = .ok (render (segments number sectors)) := by
  induction sectors with
  | nil => rfl
  | cons written sectors ih =>
    have split : segments number (written :: sectors)
        = [written.header number, written.block] ++ segments number sectors := rfl
    rw [layOutAll, layOut_eq, ih, split, render_append]
    simp [bind, Except.bind, pure, Except.pure]

/-- No segment of a track names a sector that was not written. -/
theorem names_of_absent {number number' sector : UInt8} {sectors : List WrittenSector}
    (absent : ¬ (number' = number ∧ sector ∈ sectors.map (·.sector))) :
    ∀ segment ∈ segments number sectors, segment.names number' sector = false := by
  intro segment member
  obtain ⟨written, here, among⟩ := List.mem_flatMap.1 member
  rcases List.mem_pair.1 among with rfl | rfl
  · rw [names_header]
    by_contra named
    simp only [Bool.not_eq_false, Bool.and_eq_true, beq_iff_eq] at named
    exact absent ⟨named.1.symm, List.mem_map.2 ⟨written, here, named.2⟩⟩
  · exact names_block written number' sector

theorem data_eq_of_sector_eq {sectors : List WrittenSector}
    (distinct : (sectors.map (·.sector)).Nodup) {written other : WrittenSector}
    (here : written ∈ sectors) (there : other ∈ sectors) (same : other.sector = written.sector) :
    other.data = written.data := by
  rw [List.inj_on_of_nodup_map distinct there here same]

/-- The law of writing and reading a whole track. However it is cut, a search for a sector counts
some steps and, unless one of them fails, comes to what was written there, every byte of it readable
and the checksum right; for whatever was not written it reports an invalid location. -/
theorem findSector_layOutAll {number : UInt8} {sectors : List WrittenSector}
    (distinct : (sectors.map (·.sector)).Nodup) :
    ∃ track, layOutAll number sectors = .ok track ∧ ∀ bytes, Rotation track bytes →
      (∀ written ∈ sectors, ∃ steps found,
        Track.findSector ⟨bytes⟩ number written.sector = Walk.counted (.ok found) steps ∧
          found.data = written.data ∧ found.isClean = true) ∧
      ∀ number' sector', ¬ (number' = number ∧ sector' ∈ sectors.map (·.sector)) →
        ∃ steps, Track.findSector ⟨bytes⟩ number' sector'
          = Walk.counted (.error .invalidLocation) steps := by
  refine ⟨_, layOutAll_eq number sectors, fun bytes rotation => ⟨?_, ?_⟩⟩
  · intro written member
    obtain ⟨found, hit, ⟨other, there, same, data⟩, clean⟩ := search_written rotation member
    obtain ⟨steps, course⟩ :=
      Track.scan_eq_counted bytes.length number written.sector 0 (bytes ++ bytes) false
    rw [hit] at course
    refine ⟨steps, found, course, ?_, clean⟩
    rw [← data, data_eq_of_sector_eq distinct member there same]
  · intro number' sector' absent
    obtain ⟨steps, course⟩ :=
      Track.scan_eq_counted bytes.length number' sector' 0 (bytes ++ bytes) false
    rw [Track.search_rotation_of_absent rotation (names_of_absent absent)] at course
    exact ⟨steps, course⟩

/-- Sector `sector` of a disk with the id `AB`, filled with one byte. -/
def filled (sector value : UInt8) : WrittenSector where
  sector := sector
  id1 := 0x42
  id0 := 0x41
  data := List.replicate sectorSize value
  headerOnes := 2
  headerGap := List.replicate 4 0x55
  dataOnes := 3
  dataGap := List.replicate 6 0x55
  size := List.length_replicate
  headerLong := by decide
  headerQuiet := by simp
  dataLong := by decide
  dataQuiet := by simp

/-- A track of two sectors that is cut in the middle of the first data block. -/
theorem findSector_layOutAll_of_pair :
    ([filled 0 0x11, filled 7 0xFF].map (·.sector)).Nodup ∧
      ∃ track, layOutAll 18 [filled 0 0x11, filled 7 0xFF] = .ok track ∧
        (∃ steps found, Track.findSector ⟨track.drop 100 ++ track.take 100⟩ 18 0
            = Walk.counted (.ok found) steps ∧
          found.data = List.replicate sectorSize 0x11 ∧ found.isClean = true) ∧
        ∃ steps, Track.findSector ⟨track.drop 100 ++ track.take 100⟩ 17 0
          = Walk.counted (.error .invalidLocation) steps := by
  have distinct : ([filled 0 0x11, filled 7 0xFF].map (·.sector)).Nodup := by decide
  obtain ⟨track, same, law⟩ := @findSector_layOutAll 18 _ distinct
  obtain ⟨present, absent⟩ := law _ ⟨_, _, (List.take_append_drop 100 track).symm, rfl⟩
  exact ⟨distinct, track, same, present (filled 0 0x11) List.mem_cons_self,
    absent 17 0 (by decide)⟩

end WrittenSector
end RetroMedia.Gcr
