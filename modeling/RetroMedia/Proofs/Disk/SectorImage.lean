import RetroMedia.Proofs.Disk.Sources

/-! Sector images of given contents. The sectors of a geometry in the order in which an image holds
them, and what the image of some contents yields for each location. -/
namespace RetroMedia

/-- A piece that lies in a container can be sliced out of it. -/
theorem Container.slice_of_split {container : Container} {before piece after : Bytes}
    (whole : container.toBytes = before ++ (piece ++ after)) :
    container.slice before.length piece.length = .ok piece := by
  have size : container.size = before.length + (piece.length + after.length) := by
    have length := congrArg List.length whole
    simpa [Container.toBytes, Container.size] using length
  rw [Container.slice, if_pos (by omega), Container.readAt_eq, whole, List.drop_left,
    List.take_left]

namespace Disk

/-- Pieces of one width that are laid end to end stand at the multiples of it. -/
theorem flatMap_split {α : Type} {piece : α → Bytes} {width : Nat}
    (even : ∀ item, (piece item).length = width) {items : List α} {index : Nat} {item : α}
    (here : items[index]? = some item) :
    ∃ before after, items.flatMap piece = before ++ (piece item ++ after) ∧
      before.length = index * width := by
  induction items generalizing index with
  | nil => cases here
  | cons first items ih =>
    cases index with
    | zero =>
      cases here
      exact ⟨[], items.flatMap piece, rfl, by simp⟩
    | succ index =>
      obtain ⟨before, after, split, size⟩ := ih here
      refine ⟨piece first ++ before, after, ?_, ?_⟩
      · rw [List.flatMap_cons, split, List.append_assoc]
      · rw [List.length_append, even, size, Nat.succ_mul, Nat.add_comm]

namespace Geometry

/-- The sectors of a track, in order. -/
def trackLocations (geometry : Geometry) (track : Nat) : List Location :=
  (List.range (geometry.sectors (UInt8.ofNat track)).toNat).map fun sector =>
    ⟨UInt8.ofNat track, UInt8.ofNat sector⟩

/-- The sectors of tracks 1 to `track`, in order. -/
def locationsThrough (geometry : Geometry) (track : Nat) : List Location :=
  (List.range track).flatMap fun before => geometry.trackLocations (before + 1)

theorem locationsThrough_succ (geometry : Geometry) (track : Nat) :
    geometry.locationsThrough (track + 1)
      = geometry.locationsThrough track ++ geometry.trackLocations (track + 1) := by
  simp [locationsThrough, List.range_succ]

theorem length_locationsThrough (geometry : Geometry) (track : Nat) :
    (geometry.locationsThrough track).length = geometry.sectorsThrough track := by
  induction track with
  | zero => rfl
  | succ track ih =>
    rw [locationsThrough_succ, List.length_append, ih, sectorsThrough]
    simp [trackLocations]

theorem locationsThrough_prefix (geometry : Geometry) {first last : Nat} (before : first ≤ last) :
    geometry.locationsThrough first <+: geometry.locationsThrough last := by
  induction before with
  | refl => exact List.prefix_rfl
  | step _ ih =>
    rw [locationsThrough_succ]
    exact ih.trans (List.prefix_append _ _)

/-- Each sector of a geometry has its place among all of them. -/
theorem getElem?_locationsThrough (geometry : Geometry) {location : Location}
    (valid : location.sector < geometry.sectors location.track) :
    (geometry.locationsThrough geometry.tracks.toNat)[geometry.sectorsThrough
      (location.track.toNat - 1) + location.sector.toNat]? = some location := by
  have track : location.track ≠ 0 ∧ location.track ≤ geometry.tracks := by
    unfold sectors at valid
    split at valid
    · exact absurd valid (UInt8.not_lt_zero)
    · rename_i exists'
      exact ⟨fun zero => exists' (.inl zero), UInt8.not_lt.1 fun beyond => exists' (.inr beyond)⟩
  have positive : 0 < location.track.toNat := by
    have := track.1
    have : location.track.toNat ≠ 0 := fun zero => track.1 (UInt8.toNat_inj.1 zero)
    omega
  have within : location.track.toNat ≤ geometry.tracks.toNat := UInt8.le_iff_toNat_le.1 track.2
  have count : location.sector.toNat < (geometry.sectors location.track).toNat :=
    UInt8.lt_iff_toNat_lt.1 valid
  obtain ⟨rest, split⟩ := geometry.locationsThrough_prefix within
  obtain ⟨before, same⟩ : ∃ before, location.track.toNat = before + 1 :=
    ⟨location.track.toNat - 1, by omega⟩
  have number : UInt8.ofNat (before + 1) = location.track := by
    rw [← same, UInt8.ofNat_toNat]
  have here : (geometry.trackLocations (before + 1))[location.sector.toNat]? = some location := by
    rw [trackLocations, number, List.getElem?_map, List.getElem?_range count]
    simp
  have room : location.sector.toNat < (geometry.trackLocations (before + 1)).length := by
    obtain ⟨inside, _⟩ := List.getElem?_eq_some_iff.1 here
    exact inside
  rw [← split, same, Nat.add_sub_cancel, ← geometry.length_locationsThrough,
    List.getElem?_append_left, locationsThrough_succ, List.getElem?_append_right, Nat.add_sub_cancel_left]
  · exact here
  · omega
  · rw [locationsThrough_succ, List.length_append]
    omega

/-- The image that holds the given contents. -/
def imageOf (geometry : Geometry) (contents : Location → Block) : Container :=
  .ofBytes ((geometry.locationsThrough geometry.tracks.toNat).flatMap fun location =>
    (contents location).bytes)

theorem size_imageOf (geometry : Geometry) (contents : Location → Block) :
    (geometry.imageOf contents).size = geometry.totalSectors * blockSize := by
  have even : ∀ locations : List Location,
      (locations.flatMap fun location => (contents location).bytes).length
        = locations.length * blockSize := by
    intro locations
    induction locations with
    | nil => rfl
    | cons first rest ih =>
      rw [List.flatMap_cons, List.length_append, ih, (contents first).length_eq, List.length_cons,
        Nat.succ_mul, Nat.add_comm]
  rw [imageOf, Container.ofBytes, Container.size, List.size_toArray, even, length_locationsThrough,
    totalSectors]

/-- What a sector image of some contents yields: them, where there is a sector. -/
theorem lookup_imageOf (geometry : Geometry) (contents : Location → Block) (location : Location) :
    (geometry.source (geometry.imageOf contents)).lookup location
      = if location.sector < geometry.sectors location.track then .ok (contents location)
        else .error .invalidLocation := by
  rw [source, SectorSource.lookup_eq SectorSource.heeds_ofLookup]
  by_cases valid : location.sector < geometry.sectors location.track
  · obtain ⟨before, after, split, place⟩ := flatMap_split (fun location => (contents location).length_eq)
      (geometry.getElem?_locationsThrough valid)
    have whole : (geometry.imageOf contents).toBytes
        = before ++ ((contents location).bytes ++ after) := split
    have read := Container.slice_of_split whole
    rw [place, (contents location).length_eq] at read
    rw [if_pos valid, offset, if_neg (UInt8.not_le.2 valid)]
    dsimp only [bind, Except.bind]
    split
    · rename_i found
      rw [read] at found
      cases found
      rfl
    · rename_i failed
      rw [read] at failed
      cases failed
  · rw [if_neg valid, offset, if_pos (UInt8.not_lt.1 valid)]
    rfl

/-- The source of a sector image is a table of its contents. -/
theorem source_imageOf (geometry : Geometry) (contents : Location → Block) :
    geometry.source (geometry.imageOf contents) = SectorSource.ofLookup fun location =>
      if location.sector < geometry.sectors location.track then .ok (contents location)
      else .error .invalidLocation := by
  have same := funext (geometry.lookup_imageOf contents)
  rw [source, SectorSource.lookup_eq SectorSource.heeds_ofLookup] at same
  rw [source, same]

end Geometry

theorem Volume.openWith_of_lookup {source : SectorSource} {layout : HeaderLayout} {block : Block}
    (format : Format) (container : Container) (found : source.lookup layout.location = .ok block) :
    Volume.openWith format container source layout = .ok {
      format, container, source
      header := Header.parse block.bytes layout
      firstDirectory := layout.firstDirectory } := by
  unfold SectorSource.lookup at found
  unfold Volume.openWith
  split at found
  · rename_i read
    cases found
    rw [read]
  · cases found

/-- One-sided disks of 35 tracks. -/
def Geometry.track35 : Geometry := ⟨35, singleSided, false⟩

/-- The disk of the sector image of the contents. -/
def sectorVolume (contents : Location → Block) : Volume where
  format := .d64
  container := Geometry.track35.imageOf contents
  source := Geometry.track35.source (Geometry.track35.imageOf contents)
  header := Header.parse (contents ⟨18, 0⟩).bytes .track18
  firstDirectory := ⟨18, 1⟩

theorem openSectors_imageOf (contents : Location → Block) :
    Volume.openSectors (Geometry.track35.imageOf contents) .d64 = .ok (sectorVolume contents) := by
  have size : Geometry.track35.size = (Geometry.track35.imageOf contents).size := by
    rw [Geometry.size_imageOf, Geometry.size, Geometry.track35]
    simp
  have fits : Geometry.findBySize? (Geometry.track35.imageOf contents).size Geometry.d64
      = some Geometry.track35 := List.find?_cons_of_pos (beq_of_eq size)
  unfold Volume.openSectors
  simp only [Volume.sectorLayout?, fits]
  exact Volume.openWith_of_lookup .d64 _ (Geometry.track35.lookup_imageOf contents ⟨18, 0⟩)

end Disk
end RetroMedia
