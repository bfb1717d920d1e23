import RetroMedia.Proofs.Disk.Parallel
import RetroMedia.Proofs.Disk.SectorImage

/-! Where the sectors of an image lie. Whatever the layout, the sectors tile the front of the image:
one after another, in the order of their tracks, with no gap and no overlap. A table of read errors
behind them is never looked at. -/
namespace RetroMedia.Disk

/-- One after the other: by track, and by sector on the same track. -/
def Location.Before (first second : Location) : Prop :=
  first.track < second.track ∨ first.track = second.track ∧ first.sector < second.sector

private theorem toNat_ofNat {value : Nat} (small : value < 256) :
    (UInt8.ofNat value).toNat = value := UInt8.toNat_ofNat_of_lt' small

namespace Geometry

variable {geometry : Geometry} {location : Location} {container : Container}

/-- Is there such a sector? -/
def Holds (geometry : Geometry) (location : Location) : Prop :=
  1 ≤ location.track ∧ location.track ≤ geometry.tracks ∧
    location.sector < geometry.layout location.track

/-- All sectors, track after track. -/
def locations (geometry : Geometry) : List Location :=
  geometry.locationsThrough geometry.tracks.toNat

theorem sectors_of_track (geometry : Geometry) {track : UInt8} (positive : 1 ≤ track)
    (within : track ≤ geometry.tracks) : geometry.sectors track = geometry.layout track := by
  apply if_neg
  rintro (zero | beyond)
  · subst zero
    exact absurd positive (by decide)
  · exact absurd within (UInt8.not_le.2 beyond)

theorem holds_iff :
    geometry.Holds location ↔ location.sector < geometry.sectors location.track := by
  constructor
  · rintro ⟨positive, within, room⟩
    rw [geometry.sectors_of_track positive within]
    exact room
  · intro room
    by_cases missing : location.track = 0 ∨ geometry.tracks < location.track
    · rw [sectors, if_pos missing] at room
      exact absurd room UInt8.not_lt_zero
    · obtain ⟨some, within⟩ := not_or.1 missing
      rw [sectors, if_neg missing] at room
      refine ⟨?_, UInt8.not_lt.1 within, room⟩
      rw [UInt8.le_iff_toNat_le]
      have nonzero : location.track.toNat ≠ 0 := fun zero => some (UInt8.toNat_inj.1 zero)
      change 1 ≤ location.track.toNat
      omega

theorem offset_of_holds (holds : geometry.Holds location) :
    geometry.offset location = .ok ((geometry.sectorsThrough (location.track.toNat - 1)
      + location.sector.toNat) * blockSize) :=
  if_neg (UInt8.not_le.2 (holds_iff.1 holds))

theorem offset_of_not_holds (missing : ¬ geometry.Holds location) :
    geometry.offset location = .error .invalidLocation :=
  if_pos (UInt8.not_lt.1 fun room => missing (holds_iff.2 room))

theorem exists_offset_iff :
    (∃ offset, geometry.offset location = .ok offset) ↔ geometry.Holds location := by
  constructor
  · rintro ⟨offset, found⟩
    by_contra missing
    rw [offset_of_not_holds missing] at found
    cases found
  · intro holds
    exact ⟨_, offset_of_holds holds⟩

/-- The sectors of one track follow those of the tracks before it. -/
theorem map_offset_trackLocations {before : Nat} (within : before + 1 ≤ geometry.tracks.toNat) :
    (geometry.trackLocations (before + 1)).map geometry.offset
      = (List.range (geometry.sectors (UInt8.ofNat (before + 1))).toNat).map fun sector =>
          .ok ((geometry.sectorsThrough before + sector) * blockSize) := by
  have small := geometry.tracks.toNat_lt
  have track : (UInt8.ofNat (before + 1)).toNat = before + 1 := toNat_ofNat (by omega)
  unfold trackLocations
  rw [List.map_map]
  apply List.map_congr_left
  intro sector member
  have room := List.mem_range.1 member
  have few := (geometry.sectors (UInt8.ofNat (before + 1))).toNat_lt
  have number : (UInt8.ofNat sector).toNat = sector := toNat_ofNat (by omega)
  have holds : geometry.Holds ⟨UInt8.ofNat (before + 1), UInt8.ofNat sector⟩ := by
    rw [holds_iff, UInt8.lt_iff_toNat_lt]
    dsimp only
    rw [number]
    exact room
  rw [Function.comp_apply, offset_of_holds holds]
  dsimp only
  rw [track, number, Nat.add_sub_cancel]

/-- The sectors of the first tracks take up the front of the image. -/
theorem map_offset_locationsThrough {track : Nat} (within : track ≤ geometry.tracks.toNat) :
    (geometry.locationsThrough track).map geometry.offset
      = (List.range (geometry.sectorsThrough track)).map fun place => .ok (place * blockSize) := by
  induction track with
  | zero => rfl
  | succ track ih =>
    rw [locationsThrough_succ, List.map_append, ih (by omega), map_offset_trackLocations within,
      sectorsThrough, List.range_add, List.map_append, List.map_map]
    rfl

theorem map_offset_locations (geometry : Geometry) :
    geometry.locations.map geometry.offset
      = (List.range geometry.totalSectors).map fun place => .ok (place * blockSize) :=
  map_offset_locationsThrough (Nat.le_refl _)

theorem mem_locations_iff : location ∈ geometry.locations ↔ geometry.Holds location := by
  constructor
  · intro member
    have found := List.mem_map_of_mem (f := geometry.offset) member
    rw [map_offset_locations] at found
    obtain ⟨place, _, same⟩ := List.mem_map.1 found
    exact exists_offset_iff.1 ⟨_, same.symm⟩
  · intro holds
    exact List.mem_of_getElem? (geometry.getElem?_locationsThrough (holds_iff.1 holds))

/-- Each sector has a place of its own among all of them, and its offset tells that place. -/
theorem exists_place (holds : geometry.Holds location) :
    ∃ place < geometry.totalSectors, geometry.locations[place]? = some location ∧
      geometry.offset location = .ok (place * blockSize) := by
  obtain ⟨place, here⟩ := List.mem_iff_getElem?.1 (mem_locations_iff.2 holds)
  have told := congrArg (·[place]?) geometry.map_offset_locations
  simp only [List.getElem?_map, here, Option.map_some] at told
  obtain ⟨inside, _⟩ := List.getElem?_eq_some_iff.1 here
  have room : place < geometry.totalSectors := by
    rw [locations, length_locationsThrough] at inside
    exact inside
  rw [List.getElem?_range room, Option.map_some] at told
  exact ⟨place, room, here, Option.some.inj told⟩

theorem pairwise_trackLocations (geometry : Geometry) (track : Nat) :
    (geometry.trackLocations track).Pairwise Location.Before := by
  have few := (geometry.sectors (UInt8.ofNat track)).toNat_lt
  unfold trackLocations
  rw [List.pairwise_map]
  apply List.pairwise_lt_range.imp_of_mem
  intro first second _ member before
  have room := List.mem_range.1 member
  right
  refine ⟨rfl, ?_⟩
  rw [UInt8.lt_iff_toNat_lt, toNat_ofNat (by omega), toNat_ofNat (by omega)]
  exact before

theorem track_of_mem {track : Nat} (member : location ∈ geometry.trackLocations track) :
    location.track = UInt8.ofNat track := by
  obtain ⟨_, _, rfl⟩ := List.mem_map.1 member
  rfl

theorem pairwise_locations (geometry : Geometry) :
    geometry.locations.Pairwise Location.Before := by
  have small := geometry.tracks.toNat_lt
  unfold locations locationsThrough
  rw [List.pairwise_flatMap]
  refine ⟨fun track _ => geometry.pairwise_trackLocations (track + 1), ?_⟩
  apply List.pairwise_lt_range.imp_of_mem
  intro first second _ member before here early there late
  have room := List.mem_range.1 member
  left
  rw [track_of_mem early, track_of_mem late, UInt8.lt_iff_toNat_lt,
    toNat_ofNat (by omega), toNat_ofNat (by omega)]
  omega

/-- Two sectors do not share a byte. -/
theorem offsets_apart {first second : Location} {offset offset' : Nat} (apart : first ≠ second)
    (here : geometry.offset first = .ok offset) (there : geometry.offset second = .ok offset') :
    offset + blockSize ≤ offset' ∨ offset' + blockSize ≤ offset := by
  obtain ⟨place, _, found, same⟩ := exists_place (exists_offset_iff.1 ⟨_, here⟩)
  obtain ⟨place', _, found', same'⟩ := exists_place (exists_offset_iff.1 ⟨_, there⟩)
  have other : place ≠ place' := by
    rintro rfl
    exact apart (Option.some.inj (found.symm.trans found'))
  cases here.symm.trans same
  cases there.symm.trans same'
  rcases Nat.lt_or_gt_of_ne other with before | behind
  · left
    rw [← Nat.succ_mul]
    exact Nat.mul_le_mul_right _ before
  · right
    rw [← Nat.succ_mul]
    exact Nat.mul_le_mul_right _ behind

/-- The offset of a sector leaves room for it ahead of whatever follows the data. -/
theorem offset_le {offset : Nat} (found : geometry.offset location = .ok offset) :
    offset + blockSize ≤ geometry.totalSectors * blockSize := by
  obtain ⟨place, room, _, same⟩ := exists_place (exists_offset_iff.1 ⟨_, found⟩)
  cases found.symm.trans same
  rw [← Nat.succ_mul]
  exact Nat.mul_le_mul_right _ room

theorem data_le_size (geometry : Geometry) :
    geometry.totalSectors * blockSize ≤ geometry.size := Nat.le_add_right _ _

/-- A sector that the container has room for is read from its offset. -/
theorem source_of_offset {offset : Nat} (found : geometry.offset location = .ok offset)
    (room : offset + blockSize ≤ container.size) (progress : Progress) :
    ∃ block : Block, block.bytes = container.readAt offset blockSize ∧
      geometry.source container location progress = .ok block progress := by
  have read : container.slice offset blockSize = .ok (container.readAt offset blockSize) :=
    if_pos room
  refine ⟨⟨_, Container.length_of_slice read⟩, rfl, ?_⟩
  unfold source SectorSource.ofLookup
  dsimp only
  rw [found]
  dsimp only [bind, Except.bind]
  split
  · rename_i block same
    split at same
    · rename_i bytes here
      cases read.symm.trans here
      cases same
      rfl
    · cases same
  · rename_i error same
    split at same
    · cases same
    · rename_i error here
      cases read.symm.trans here

theorem source_of_not_holds (missing : ¬ geometry.Holds location) (progress : Progress) :
    geometry.source container location progress = .error .invalidLocation progress := by
  unfold source SectorSource.ofLookup
  dsimp only
  rw [offset_of_not_holds missing]
  rfl

/-- The same layout, with a table of read errors behind the data. -/
def withTable (geometry : Geometry) : Geometry := { geometry with withErrorTable := true }

theorem sectorsThrough_withTable (geometry : Geometry) (track : Nat) :
    geometry.withTable.sectorsThrough track = geometry.sectorsThrough track := by
  induction track with
  | zero => rfl
  | succ track ih =>
    rw [sectorsThrough, sectorsThrough, ih]
    rfl

theorem offset_withTable (geometry : Geometry) (location : Location) :
    geometry.withTable.offset location = geometry.offset location := by
  unfold offset
  dsimp only
  rw [sectorsThrough_withTable]
  rfl

/-- What is appended to the data is never looked at. -/
theorem source_withTable (size : container.size = geometry.totalSectors * blockSize)
    (table : Bytes) :
    geometry.withTable.source (.ofBytes (container.toBytes ++ table))
      = geometry.source container := by
  have longer : container.size ≤ (Container.ofBytes (container.toBytes ++ table)).size := by
    simp [Container.ofBytes, Container.size, Container.toBytes]
  funext location progress
  by_cases holds : geometry.Holds location
  · obtain ⟨offset, found⟩ := exists_offset_iff.2 holds
    have room : offset + blockSize ≤ container.size := size ▸ offset_le found
    have front : (Container.ofBytes (container.toBytes ++ table)).readAt offset blockSize
        = container.readAt offset blockSize := by
      have inside : offset + blockSize ≤ container.toBytes.length := room
      rw [Container.readAt_eq, Container.readAt_eq]
      change ((container.toBytes ++ table).drop offset).take blockSize = _
      rw [List.drop_append_of_le_length (by omega),
        List.take_append_of_le_length (by rw [List.length_drop]; omega)]
    obtain ⟨block, bytes, read⟩ := source_of_offset found room progress
    obtain ⟨block', bytes', read'⟩ := source_of_offset
      ((geometry.offset_withTable location).trans found) (Nat.le_trans room longer) progress
    obtain ⟨_, _⟩ := block
    obtain ⟨_, _⟩ := block'
    cases bytes
    cases bytes'.trans front
    rw [read, read']
  · have holds' : ¬ geometry.withTable.Holds location := holds
    rw [source_of_not_holds holds, source_of_not_holds holds']

end Geometry

namespace Volume

variable {first second : Volume}

/-- Where two disks were opened, or failed to be, they show the same: the same failure, or the same
header, the same directory and the same files. -/
def SameContents : Except MediaError Volume → Except MediaError Volume → Prop
  | .ok first, .ok second =>
    first.header = second.header ∧ first.entries = second.entries ∧
      (∀ entry limits, first.openEntry entry limits = second.openEntry entry limits) ∧
      ∀ location limits signals, chainSize first.source location limits signals
        = chainSize second.source location limits signals
  | .error error, .error error' => error = error'
  | _, _ => False

theorem listSlots_of_source (same : first.source = second.source) (index : Nat)
    (slots : List Bytes) : first.listSlots index slots = second.listSlots index slots := by
  induction slots generalizing index with
  | nil => rfl
  | cons slot rest ih =>
    unfold listSlots readSlot measureChain
    rw [same, ih index, ih (index + 1)]

theorem listSectors_of_source (same : first.source = second.source) (walk : ChainWalk)
    (index : Nat) : first.listSectors walk index = second.listSectors walk index := by
  induction left : walk.remaining using Nat.strongRecOn generalizing walk index with
  | ind left ih =>
    funext progress
    rw [listSectors_eq, listSectors_eq]
    match step : walk.advance progress.signals with
    | (none, after, signals) => rfl
    | (some (.error error), after, signals) => rfl
    | (some (.ok sector), after, signals) =>
      have nearer := ChainWalk.remaining_lt_of_advance step
      have rest (index : Nat) := ih after.remaining (left ▸ nearer) after index rfl
      simp only [listSlots_of_source same, rest]

theorem entries_of_source (same : first.source = second.source)
    (directory : first.firstDirectory = second.firstDirectory) :
    first.entries = second.entries := by
  funext progress
  unfold entries
  rw [same, directory]
  exact congrFun (listSectors_of_source same _ 1) progress

/-- The source decides all that a disk shows. -/
theorem sameContents_openWith (format : Format) (container container' : Container)
    {source source' : SectorSource} (same : source = source') (layout : HeaderLayout) :
    SameContents (openWith format container source layout)
      (openWith format container' source' layout) := by
  subst same
  unfold openWith
  cases source layout.location {} with
  | error error after => rfl
  | ok block after =>
    refine ⟨rfl, entries_of_source rfl rfl, fun _ _ => rfl, fun _ _ _ => rfl⟩

/-- The sizes of the images of a format tell its geometries apart. -/
theorem nodup_sizes {format : Format} {geometries : List Geometry} {layout : HeaderLayout}
    (known : sectorLayout? format = some (geometries, layout)) :
    (geometries.map Geometry.size).Nodup := by
  cases format <;> cases known <;> decide +kernel

/-- A format that knows a geometry knows it with a table of read errors, too. -/
theorem withTable_mem {format : Format} {geometries : List Geometry} {layout : HeaderLayout}
    (known : sectorLayout? format = some (geometries, layout)) {geometry : Geometry}
    (member : geometry ∈ geometries) (plain : geometry.withErrorTable = false) :
    geometry.withTable ∈ geometries := by
  cases format <;> cases known <;>
    simp only [Geometry.d64, Geometry.d71, Geometry.d81, List.mem_cons, List.not_mem_nil,
      or_false] at member <;>
    rcases member with rfl | rfl | rfl | rfl <;>
    first
    | contradiction
    | simp [Geometry.withTable, Geometry.d64, Geometry.d71, Geometry.d81]

end Volume

/-- Where sizes differ, each of them finds its geometry. -/
theorem Geometry.findBySize?_of_mem {geometries : List Geometry}
    (differ : (geometries.map size).Nodup) {geometry : Geometry} (member : geometry ∈ geometries) :
    findBySize? geometry.size geometries = some geometry := by
  induction geometries with
  | nil => cases member
  | cons first rest ih =>
    rw [List.map_cons, List.nodup_cons] at differ
    obtain ⟨fresh, differ⟩ := differ
    rcases List.mem_cons.1 member with rfl | later
    · rw [findBySize?, List.find?_cons, beq_self_eq_true]
    · have other : (first.size == geometry.size) = false := by
        rw [beq_eq_false_iff_ne]
        intro same
        rw [same] at fresh
        exact fresh (List.mem_map_of_mem later)
      rw [findBySize?, List.find?_cons, other]
      exact ih differ later

/-- A table of read errors behind an image changes its size, by which its geometry is found, and
nothing that is shown. -/
theorem Volume.sameContents_openSectors {format : Format} {geometries : List Geometry}
    {layout : HeaderLayout} (known : sectorLayout? format = some (geometries, layout))
    {geometry : Geometry} (member : geometry ∈ geometries) (plain : geometry.withErrorTable = false)
    {container : Container} (size : container.size = geometry.size) {table : Bytes}
    (whole : table.length = geometry.totalSectors) :
    SameContents (openSectors container format)
      (openSectors (.ofBytes (container.toBytes ++ table)) format) := by
  have data : geometry.size = geometry.totalSectors * blockSize := by
    simp only [Geometry.size, plain, Bool.false_eq_true, if_false, Nat.add_zero]
  have size' : (Container.ofBytes (container.toBytes ++ table)).size = geometry.withTable.size := by
    have total : geometry.withTable.totalSectors = geometry.totalSectors :=
      geometry.sectorsThrough_withTable _
    have longer : (Container.ofBytes (container.toBytes ++ table)).size
        = container.size + table.length := by
      simp [Container.ofBytes, Container.size, Container.toBytes]
    rw [longer, size, whole, data, Geometry.size, total, Geometry.withTable, if_pos rfl]
  have differ := nodup_sizes known
  have found := Geometry.findBySize?_of_mem differ member
  have found' := Geometry.findBySize?_of_mem differ (withTable_mem known member plain)
  unfold openSectors
  rw [known]
  dsimp only
  rw [size, size', found, found']
  exact sameContents_openWith format _ _
    (Geometry.source_withTable (size.trans data) table).symm layout

/-- The sectors of any layout tile the front of an image. There is an offset for each sector and for
nothing else; in the order of tracks and sectors the offsets are the multiples of the size of a
sector, up to the end of the data, so all sectors of an image can be read, and no two of them share
a byte. A table of read errors behind the data is never read: with it and without it an image has
the same header, directory and files. -/
theorem Geometry.sectors_tile (geometry : Geometry) :
    (∀ location, (∃ offset, geometry.offset location = .ok offset) ↔
      1 ≤ location.track ∧ location.track ≤ geometry.tracks ∧
        location.sector < geometry.layout location.track) ∧
    (∀ location, location ∈ geometry.locations ↔
      ∃ offset, geometry.offset location = .ok offset) ∧
    geometry.locations.Pairwise Location.Before ∧
    geometry.locations.map geometry.offset
      = (List.range geometry.totalSectors).map (fun place => .ok (place * blockSize)) ∧
    geometry.totalSectors * blockSize ≤ geometry.size ∧
    (∀ container : Container, container.size = geometry.size →
      ∀ location offset, geometry.offset location = .ok offset → ∀ progress,
        ∃ block : Block, block.bytes = container.readAt offset blockSize ∧
          geometry.source container location progress = .ok block progress) ∧
    (∀ first second offset offset', first ≠ second → geometry.offset first = .ok offset →
      geometry.offset second = .ok offset' →
        offset + blockSize ≤ offset' ∨ offset' + blockSize ≤ offset) ∧
    (∀ container : Container, container.size = geometry.totalSectors * blockSize → ∀ table,
      let longer := Container.ofBytes (container.toBytes ++ table)
      geometry.withTable.source longer = geometry.source container ∧
        ∀ format layout, Volume.SameContents
          (Volume.openWith format container (geometry.source container) layout)
          (Volume.openWith format longer (geometry.withTable.source longer) layout)) ∧
    ∀ format geometries layout, Volume.sectorLayout? format = some (geometries, layout) →
      geometry ∈ geometries → geometry.withErrorTable = false →
      ∀ container : Container, container.size = geometry.size →
        ∀ table : Bytes, table.length = geometry.totalSectors →
          Volume.SameContents (Volume.openSectors container format)
            (Volume.openSectors (.ofBytes (container.toBytes ++ table)) format) := by
  refine ⟨fun location => exists_offset_iff,
    fun location => mem_locations_iff.trans exists_offset_iff.symm, geometry.pairwise_locations,
    geometry.map_offset_locations, geometry.data_le_size, ?_, ?_, ?_, ?_⟩
  · intro container size location offset found progress
    have room := Nat.le_trans (offset_le found) geometry.data_le_size
    exact source_of_offset found (size ▸ room) progress
  · intro first second offset offset' apart here there
    exact offsets_apart apart here there
  · intro container size table
    have same := source_withTable size table
    exact ⟨same, fun format layout =>
      Volume.sameContents_openWith format _ _ same.symm layout⟩
  · intro format geometries layout known member plain container size table whole
    exact Volume.sameContents_openSectors known member plain size whole

/-- Three tracks, of which the second has no sectors, and a table of read errors. -/
def Geometry.gapped : Geometry where
  tracks := 3
  layout track := if track = 2 then 0 else 2
  withErrorTable := true

/-- The last sector of three tracks lies behind those of the first, and ahead of the table. -/
theorem Geometry.sectors_tile_of_gapped :
    Geometry.gapped.size = 1028 ∧ Geometry.gapped.offset ⟨3, 1⟩ = .ok 768 ∧
      ∀ container : Container, container.size = 1028 → ∀ progress,
        ∃ block : Block, block.bytes = container.readAt 768 256 ∧
          Geometry.gapped.source container ⟨3, 1⟩ progress = .ok block progress := by
  have size : Geometry.gapped.size = 1028 := by decide
  have place : Geometry.gapped.offset ⟨3, 1⟩ = .ok 768 := rfl
  obtain ⟨_, _, _, _, _, read, _⟩ := Geometry.gapped.sectors_tile
  refine ⟨size, place, ?_⟩
  intro container whole progress
  exact read container (whole.trans size.symm) ⟨3, 1⟩ 768 place progress

end RetroMedia.Disk
