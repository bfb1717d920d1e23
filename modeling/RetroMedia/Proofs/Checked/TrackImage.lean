import RetroMedia.Proofs.Checked.Sectors

/-! Track images with checked accesses: the header, the table of half tracks, and the sectors found on
the tracks that it leads to. -/
namespace RetroMedia

namespace Bytes

theorem records_eq (bytes : Bytes) (size : Nat) :
    bytes.records size
      = (List.range (bytes.length / size)).map fun index => bytes.field (index * size) size := by
  apply List.ext_getElem?
  intro index
  rw [getElem?_records, List.getElem?_map]
  by_cases inside : index < bytes.length / size
  · rw [if_pos inside, List.getElem?_range inside]
    rfl
  · rw [if_neg inside, List.getElem?_eq_none (by rw [List.length_range]; omega)]
    rfl

theorem byte_field {bytes : Bytes} {offset length place : Nat} (inside : place < length) :
    (bytes.field offset length).byte place = bytes.byte (offset + place) := by
  rw [byte, byte, field, List.getD_eq_getElem?_getD, List.getD_eq_getElem?_getD,
    List.getElem?_take_of_lt inside, List.getElem?_drop]

end Bytes

namespace Checked

open Disk (Location TrackImage)

/-- The offsets in a table. -/
def tableOffsets (table : Bytes) (halfTracks : Nat) : Checked (List Nat) :=
  (List.range halfTracks).mapM fun index => do word 4 table (← mul UInt64.size index 4)

theorem tableOffsets_eq {table : Bytes} {halfTracks : Nat} (whole : table.length = halfTracks * 4)
    (few : halfTracks ≤ 256) :
    tableOffsets table halfTracks = .ok ((table.records 4).map (Bytes.le32 · 0)) := by
  have each : ∀ index ∈ List.range halfTracks, (do word 4 table (← mul UInt64.size index 4))
      = (.ok ((table.field (index * 4) 4).le32 0) : Checked Nat) := by
    intro index member
    rw [List.mem_range] at member
    rw [mul_eq (lt_word (by omega)), ok_bind, le32_eq (by omega) (Nat.le_of_lt (lt_word (by omega)))]
    simp only [Bytes.le32, Bytes.byte_field, Nat.zero_lt_succ, Nat.reduceLT, Nat.reduceAdd,
      Nat.add_zero]
  rw [tableOffsets, mapM_eq each, Bytes.records_eq, whole, Nat.mul_div_cancel _ (by decide),
    List.map_map]
  rfl

/-- Read the header and the table of a track image, and count its tracks for the log. -/
def openImage (container : Container) : Checked (Except MediaError TrackImage) :=
  withHeader container TrackImage.tableOffset TrackImage.signature fun header => do
    let halfTracks := (← item header 0x09).toNat
    let maxTrackSize ← word 2 header 0x0A
    match ← slice container TrackImage.tableOffset (← mul UInt64.size halfTracks 4) with
    | .error _ => return .error .invalidHeader
    | .ok table =>
      let trackOffsets := (← tableOffsets table halfTracks).toArray
      let _ ← add UInt64.size trackOffsets.size 1
      return .ok { container, trackOffsets, maxTrackSize }

theorem opens_openImage {container : Container} (addressable : container.size < UInt64.size) :
    Opens (fun image => image.container = container) id (openImage container)
      (TrackImage.open container) := by
  refine opens_withHeader addressable (by decide) fun header whole => ?_
  have few := (header.byte 0x09).toNat_lt
  rw [byte_eq (by rw [whole]; decide), ok_bind, le16_eq (by rw [whole]; decide)
      (by rw [whole]; decide), ok_bind, mul_eq (lt_word (by omega)), ok_bind,
    slice_eq addressable, ok_bind]
  dsimp only
  cases found : container.slice TrackImage.tableOffset ((header.byte 0x09).toNat * 4) with
  | error error => exact opens_error _
  | ok table =>
    have full := Container.length_of_slice found
    have offsets : ((table.records 4).map (Bytes.le32 · 0)).toArray.size ≤ 256 := by
      rw [List.size_toArray, List.length_map, Bytes.records_eq, List.length_map, List.length_range,
        full]
      omega
    dsimp only
    rw [tableOffsets_eq full (Nat.le_of_lt few), ok_bind, add_eq (lt_word (by omega))]
    exact opens_ok _ rfl

/-- The coded bytes of a track. -/
def trackData (image : TrackImage) (track : Nat) : Checked (Except MediaError Bytes) := do
  if track = 0 then return .error .invalidLocation
  else
    let halfTrack ← mul UInt64.size (← sub track 1) 2
    let offset := image.trackOffsets.getD halfTrack 0
    if offset = 0 then return .error .invalidLocation
    else
      match ← slice image.container offset 2 with
      | .error error => return .error error
      | .ok stored =>
        let length ← word 2 stored 0
        slice image.container (← add UInt64.size offset 2) length

theorem trackData_eq {image : TrackImage} (addressable : image.container.size < UInt64.size)
    {track : Nat} (small : track ≤ 256) :
    trackData image track = .ok (image.trackData track) := by
  unfold trackData TrackImage.trackData
  by_cases none : track = 0
  · rw [if_pos none, if_pos none]
    rfl
  · rw [if_neg none, if_neg none, sub_eq (by omega), ok_bind, mul_eq (lt_word (by omega)), ok_bind]
    dsimp only
    split
    · rfl
    · rw [slice_eq addressable, ok_bind]
      cases read : image.container.slice (image.trackOffsets.getD ((track - 1) * 2) 0) 2 with
      | error error => rfl
      | ok stored =>
        have size := Container.length_of_slice read
        have inside := Container.slice_eq_ok_iff.1 ⟨stored, read⟩
        dsimp only
        rw [le16_eq (Nat.le_of_eq size.symm) (by rw [size]; decide), ok_bind, add_eq (by omega),
          ok_bind, slice_eq addressable]
        rfl

/-- The contents of a sector, searched for on its track. -/
def trackSource (image : TrackImage) : Source := fun location => do
  if Gcr.sectorsPerTrack location.track ≤ location.sector then throw .invalidLocation
  else
    match ← trackData image location.track.toNat with
    | .error error => throw error
    | .ok bytes =>
      let found ← findSector ⟨bytes⟩ location.track location.sector
      return ⟨found.data, found.length_eq⟩

theorem length_trackData {image : TrackImage} {track : Nat} {bytes : Bytes}
    (found : image.trackData track = .ok bytes) : bytes.length < scanSteps := by
  unfold TrackImage.trackData at found
  split at found
  · cases found
  · dsimp only at found
    split at found
    · cases found
    · cases read : image.container.slice (image.trackOffsets.getD ((track - 1) * 2) 0) 2 with
      | error error =>
        rw [read] at found
        cases found
      | ok stored =>
        rw [read] at found
        rw [Container.length_of_slice found]
        exact Bytes.le16_lt stored 0

theorem faithful_trackSource {image : TrackImage} (addressable : image.container.size < UInt64.size) :
    Source.Faithful (trackSource image) image.source := by
  intro location
  unfold trackSource TrackImage.source
  by_cases beyond : Gcr.sectorsPerTrack location.track ≤ location.sector
  · rw [if_pos beyond, if_pos beyond]
    exact (takes_throw _).mono (Nat.zero_le _)
  · rw [if_neg beyond, if_neg beyond]
    apply Takes.lift (trackData_eq addressable (Nat.le_of_lt location.track.toNat_lt))
    cases found : image.trackData location.track.toNat with
    | error error => exact (takes_throw error).mono (Nat.zero_le _)
    | ok bytes =>
      have short := length_trackData found
      have twice : (bytes ++ bytes).length ≤ longestArray := by
        have wide : scanSteps * 2 ≤ longestArray := by decide
        rw [List.length_append]
        omega
      have search := @takes_findSector ⟨bytes⟩ twice location.track location.sector
      have half : (bytes.length + 1) / 2 ≤ scanSteps := by omega
      exact Takes.mono (search.last fun _ _ => takes_pure trivial) half

end Checked
end RetroMedia
