import RetroMedia.Proofs.Checked.Volume
import RetroMedia.Proofs.HardDisk.Directory

/-! Hard disks opened with checked accesses: pointers to sectors, and the table of partitions. -/
namespace RetroMedia

theorem Bytes.le32_lt (bytes : Bytes) (offset : Nat) : bytes.le32 offset < 4294967296 := by
  simpa [le32] using littleEndian_lt [bytes.byte offset, bytes.byte (offset + 1),
    bytes.byte (offset + 2), bytes.byte (offset + 3)]

namespace HardDisk.Pointer

/-- Sectors are numbered below this. -/
def sectors : Nat := 16777216

/-- The first sectors of all cylinders, and of all tracks. -/
theorem address_le (pointer : Pointer) (geometry : DriveGeometry) :
    pointer.first.toNat * geometry.heads.toNat ≤ 65025 ∧
      (pointer.first.toNat * geometry.heads.toNat + pointer.second.toNat)
        * geometry.sectorsPerTrack.toNat ≤ 16646400 := by
  have first := pointer.first.toNat_lt
  have second := pointer.second.toNat_lt
  have heads := geometry.heads.toNat_lt
  have perTrack := geometry.sectorsPerTrack.toNat_lt
  have cylinder : pointer.first.toNat * geometry.heads.toNat ≤ 255 * 255 :=
    Nat.mul_le_mul (by omega) (by omega)
  have track : pointer.first.toNat * geometry.heads.toNat + pointer.second.toNat ≤ 65280 := by omega
  have whole : (pointer.first.toNat * geometry.heads.toNat + pointer.second.toNat)
      * geometry.sectorsPerTrack.toNat ≤ 65280 * 255 := Nat.mul_le_mul track (by omega)
  exact ⟨cylinder, whole⟩

theorem lba_lt {pointer : Pointer} {geometry : DriveGeometry} {number : Nat}
    (found : pointer.lba geometry = .ok number) : number < sectors := by
  unfold lba at found
  split at found
  · cases found
    have small := Bytes.littleEndian_lt [pointer.first, pointer.second, pointer.third]
    exact Nat.lt_of_lt_of_eq small (show 256 ^ 3 = sectors by decide)
  · split at found
    · cases found
    · cases found
      have third := pointer.third.toNat_lt
      have whole := (pointer.address_le geometry).2
      unfold sectors
      omega

end HardDisk.Pointer

namespace Checked.HardDisk

open RetroMedia.HardDisk (DriveGeometry Partition Pointer sectorSize slotSize signature nativeKind
  rootDirectorySector directoryType nextDirectoryOffset)

/-- The pointer at an offset. -/
def pointerOf (bytes : Bytes) (offset : Nat) : Checked Pointer := do
  let rest ← part bytes offset bytes.length
  return ⟨← item rest 0, ← item rest 1, ← item rest 2, ← item rest 3⟩

theorem pointerOf_eq {bytes : Bytes} {offset : Nat} (inside : offset + 4 ≤ bytes.length) :
    pointerOf bytes offset = .ok (Pointer.ofBytes (bytes.drop offset)) := by
  have rest : (bytes.drop offset).length = bytes.length - offset := List.length_drop
  rw [pointerOf, part_rest (by omega), ok_bind, byte_eq (by omega), ok_bind, byte_eq (by omega),
    ok_bind, byte_eq (by omega), ok_bind, byte_eq (by omega)]
  rfl

/-- The number of the sector that a pointer leads to. -/
def lba (pointer : Pointer) (geometry : DriveGeometry) : Checked (Except MediaError Nat) := do
  if pointer.isDirect then
    return .ok (← word 3 [pointer.first, pointer.second, pointer.third] 0)
  else if pointer.third == 0 || geometry.sectorsPerTrack < pointer.third
      || geometry.heads ≤ pointer.second then
    return .error .invalidLocation
  else
    let cylinder ← mul UInt64.size pointer.first.toNat geometry.heads.toNat
    let track ← add UInt64.size cylinder pointer.second.toNat
    let first ← mul UInt64.size track geometry.sectorsPerTrack.toNat
    return .ok (← add UInt64.size first (← sub pointer.third.toNat 1))

theorem lba_eq (pointer : Pointer) (geometry : DriveGeometry) :
    lba pointer geometry = .ok (pointer.lba geometry) := by
  unfold lba Pointer.lba
  split
  · rw [le24_eq (Nat.le_refl _) (by simp; decide), ok_bind]
    rfl
  · split
    · rfl
    · rename_i outside
      have second := pointer.second.toNat_lt
      have third := pointer.third.toNat_lt
      obtain ⟨cylinder, whole⟩ := pointer.address_le geometry
      have counted : 1 ≤ pointer.third.toNat := by
        simp only [Bool.or_eq_true, beq_iff_eq, not_or] at outside
        exact Nat.pos_of_ne_zero fun zero => outside.1.1 (UInt8.toNat_inj.1 zero)
      rw [mul_eq (lt_word (by omega)), ok_bind, add_eq (lt_word (by omega)), ok_bind,
        mul_eq (lt_word (by omega)), ok_bind, sub_eq counted, ok_bind, add_eq (lt_word (by omega))]
      rfl

/-- What names are padded with, from the outside in. -/
def paddings : List UInt8 := [0x00, Petscii.shiftedSpace, 0x20]

/-- The slots in use among some slots of a partition table, the first of which is number `index`. -/
def readPartitions : Nat → List Bytes → Checked (List Partition)
  | _, [] => return []
  | index, slot :: rest => do
    let kind ← item slot 0
    if kind != 0 then
      let name ← toText (← trimEach paddings (← part slot 0x01 0x11))
      let start ← pointerOf slot 0x11
      let finish ← pointerOf slot 0x15
      return { slot := index, kind, name, start, finish } :: (← readPartitions (index + 1) rest)
    else readPartitions (index + 1) rest

theorem readPartitions_eq {slots : List Bytes} (whole : ∀ slot ∈ slots, slot.length = slotSize)
    (index : Nat) :
    readPartitions index slots
      = .ok ((slots.mapIdx fun place => Partition.ofSlot (index + place)).filter (·.kind != 0)) := by
  induction slots generalizing index with
  | nil => rfl
  | cons slot rest ih =>
    have here := whole slot List.mem_cons_self
    have later := ih (fun other member => whole other (List.mem_cons_of_mem _ member)) (index + 1)
    have name := field_lt slot 0x01 (by decide : 16 < 4294967296)
    have places : (rest.mapIdx fun place => Partition.ofSlot (index + (place + 1)))
        = rest.mapIdx fun place => Partition.ofSlot (index + 1 + place) := by
      congr 1
      funext place
      rw [Nat.add_assoc, Nat.add_comm 1]
    rw [readPartitions, byte_eq (by rw [here]; decide), ok_bind, List.mapIdx_cons, places,
      List.filter_cons, Nat.add_zero]
    by_cases used : (slot.byte 0 != 0) = true
    · rw [if_pos used, part_eq (by decide) (by rw [here]; decide), ok_bind, trimEach_eq name, ok_bind,
        toText_eq, ok_bind, pointerOf_eq (by rw [here]; decide), ok_bind,
        pointerOf_eq (by rw [here]; decide), ok_bind, later, ok_bind]
      exact congrArg Except.ok (if_pos used).symm
    · rw [if_neg used, later]
      exact congrArg Except.ok (if_neg used).symm

/-- Serve the first native one of the partitions. -/
def openPartition (container : Container) (geometry : DriveGeometry) (partitions : List Partition) :
    Checked (Except MediaError RetroMedia.HardDisk.Volume) := do
  match partitions.findIdx? (·.kind == nativeKind) with
  | none => return .error .invalidLayout
  | some place =>
    let active ← item partitions place
    match ← lba active.start geometry with
    | .error error => return .error error
    | .ok start =>
      let rootDirectory ← add UInt64.size start rootDirectorySector
      return .ok { container, geometry, partitions, active, rootDirectory }

def openDisk (container : Container) : Checked (Except MediaError RetroMedia.HardDisk.Volume) :=
  withHeader container sectorSize signature fun boot => do
    let geometry : DriveGeometry := ⟨← item boot 0x0C, ← item boot 0x0D⟩
    let pointer ← pointerOf boot 0x08
    if pointer.isNull then return .error .invalidHeader
    else
      match ← lba pointer geometry with
      | .error error => return .error error
      | .ok number =>
        match ← slice container (← mul UInt64.size number sectorSize) sectorSize with
        | .error _ => return .error .invalidHeader
        | .ok table =>
          openPartition container geometry (← readPartitions 0 (table.records slotSize))

/-- The root directory of a hard disk has a number that pointers lead to, or nearly so. -/
structure Sound (volume : RetroMedia.HardDisk.Volume) : Prop where
  addressable : volume.container.size < UInt64.size
  near : volume.rootDirectory < Pointer.sectors + rootDirectorySector

/-- A sector of a number that pointers lead to, or nearly so, begins at a position. -/
theorem mul_sectorSize_eq {number : Nat} (near : number < Pointer.sectors + rootDirectorySector) :
    mul UInt64.size number sectorSize = .ok (number * sectorSize) := by
  have last : number * sectorSize ≤ 16777218 * 512 := Nat.mul_le_mul_right 512 (Nat.le_of_lt near)
  exact mul_eq (Nat.lt_of_le_of_lt last (by decide))

theorem item_findIdx? {items : List α} {test : α → Bool} {place : Nat}
    (found : items.findIdx? test = some place) :
    ∃ first, item items place = .ok first ∧ items.find? test = some first := by
  obtain ⟨inside, passes, earlier⟩ := List.findIdx?_eq_some_iff_getElem.1 found
  refine ⟨items[place], item_eq (List.getElem?_eq_getElem inside), ?_⟩
  exact List.find?_eq_some_iff_getElem.2 ⟨passes, place, inside, rfl, fun j before => by
    simpa using earlier j before⟩

variable {container : Container}

theorem opens_openPartition (addressable : container.size < UInt64.size) (geometry : DriveGeometry)
    (partitions : List Partition) :
    Opens Sound id (openPartition container geometry partitions)
      (match partitions.find? (·.kind == nativeKind) with
        | none => .error .invalidLayout
        | some active => do
          let start ← active.start.lba geometry
          let rootDirectory := start + rootDirectorySector
          return { container, geometry, partitions, active, rootDirectory }) := by
  unfold openPartition
  cases found : partitions.findIdx? (·.kind == nativeKind) with
  | none =>
    rw [List.find?_eq_none.2 fun other member => by
      simpa using List.findIdx?_eq_none_iff.1 found other member]
    exact opens_error _
  | some place =>
    obtain ⟨active, here, first⟩ := item_findIdx? found
    rw [first]
    dsimp only
    rw [here, ok_bind]
    refine opens_step (lba_eq active.start geometry) (fun _ => rfl) fun start led => ?_
    dsimp only
    have near := Nat.add_lt_add_right (Pointer.lba_lt led) rootDirectorySector
    have small : Pointer.sectors + rootDirectorySector < 4294967296 := by decide
    rw [add_eq (lt_word (Nat.lt_trans near small)), ok_bind]
    exact opens_ok id ⟨addressable, near⟩

theorem opens_openDisk (addressable : container.size < UInt64.size) :
    Opens Sound id (openDisk container) (RetroMedia.HardDisk.Volume.open container) := by
  refine opens_withHeader addressable (by decide) fun boot whole => ?_
  rw [byte_eq (by rw [whole]; decide), ok_bind, byte_eq (by rw [whole]; decide), ok_bind,
    pointerOf_eq (by rw [whole]; decide), ok_bind]
  generalize (⟨boot.byte 0x0C, boot.byte 0x0D⟩ : DriveGeometry) = geometry
  generalize Pointer.ofBytes (boot.drop 0x08) = pointer
  dsimp only
  by_cases null : pointer.isNull = true
  · rw [if_pos null, if_pos null]
    exact opens_error _
  · rw [if_neg null, if_neg null]
    refine opens_step (lba_eq pointer geometry) (fun _ => rfl) fun number led => ?_
    dsimp only
    rw [mul_sectorSize_eq (Nat.lt_add_right _ (Pointer.lba_lt led)), ok_bind, slice_eq addressable,
      ok_bind]
    cases read : container.slice (number * sectorSize) sectorSize with
    | error error => exact opens_error _
    | ok table =>
      dsimp only
      rw [readPartitions_eq fun slot member => Bytes.length_of_mem_records member, ok_bind]
      have same : (fun place => Partition.ofSlot (0 + place)) = Partition.ofSlot := by
        funext place
        rw [Nat.zero_add]
      rw [same]
      exact opens_openPartition addressable geometry _

/-- The point in time that a packed word stands for. Its year is a signed word of half the size. -/
def unpack? (packed : Nat) : Checked (Option Timestamp) := do
  let year ← add 2147483648 Timestamp.epoch (packed / 67108864)
  let time := { Timestamp.fields packed with year }
  return if time.IsValid then some time else none

theorem unpack?_eq {packed : Nat} (small : packed < 4294967296) :
    unpack? packed = .ok (Timestamp.unpack? packed) := by
  have years : Timestamp.epoch + packed / 67108864 < 2147483648 := by
    unfold Timestamp.epoch
    omega
  rw [unpack?, add_eq years]
  rfl

variable (volume : RetroMedia.HardDisk.Volume)

/-- The data that an entry's slot leads to. -/
def resolveData (attributes : UInt8) (pointer : Pointer) (stored : Nat) :
    Checked (Nat × Nat × Bool) := do
  if attributes &&& 0x07 == directoryType || pointer.isIndirect then return (0, stored, true)
  else if pointer.isNull then return (0, 0, false)
  else
    match ← lba pointer volume.geometry with
    | .error _ => return (0, stored, true)
    | .ok number =>
      let offset ← mul UInt64.size number sectorSize
      return (offset, volume.container.clamp offset stored, false)

/-- The entry of a slot in use behind `listed` other ones. -/
def readSlot (listed : Nat) (slot : Bytes) : Checked Entry := do
  let rawName ← trimEach paddings (← part slot 0 8)
  let attributes ← item slot 0x10
  let pointer ← pointerOf slot 0x0C
  let (offset, size, incomplete) ← resolveData volume attributes pointer (← word 4 slot 0x08)
  let timestamp ← unpack? (← word 4 slot 0x11)
  let extra ← item slot 0x15
  return {
    index := ← add UInt64.size listed 1
    name := ← toText rawName
    rawName
    size
    kind := if attributes &&& 0x07 == directoryType then .directory else .file
    typeCode := attributes
    offset
    timestamp
    recordSize := if extra == 0 then none else some extra.toNat
    incomplete }

/-- The entries of some slots behind `listed` other ones. -/
def listSlots : Nat → List Bytes → Program Progress (List Entry)
  | _, [] => return []
  | listed, slot :: rest => do
    if (← item slot 0) == 0 then listSlots listed rest
    else do
      tick
      let entry ← readSlot volume listed slot
      let more ← listSlots (listed + 1) rest
      return entry :: more

/-- The entries of a directory sector and of those behind it, which are listed by `onward`. -/
def listSector (number listed : Nat) (onward : Nat → Nat → Program Progress (List Entry)) :
    Program Progress (List Entry) := do
  match ← slice volume.container (← mul UInt64.size number sectorSize) sectorSize with
  | .error error => throw error
  | .ok sector =>
    let here ← listSlots volume listed (sector.records slotSize)
    let link ← pointerOf sector nextDirectoryOffset
    if link.isNull then return here
    else
      match ← lba link volume.geometry with
      | .error error => throw error
      | .ok next =>
        let more ← onward next (listed + here.length)
        return here ++ more

/-- The entries of the directory chain from sector `number` on. -/
def listSectors (limit number : Nat) (visited : List Nat) (steps listed : Nat) :
    Program Progress (List Entry) := fun progress =>
  match _step : tick (RetroMedia.HardDisk.Volume.chainCounter progress limit steps) with
  | .error fault => .error fault
  | .ok (.error error after) => .ok (.error error { progress with signals := after.signals })
  | .ok (.ok _ after) =>
    have _bound : after.count = steps + 1 ∧ after.count ≤ limit :=
      Progress.tick_ok_le rfl (tick_ok _step)
    if number ∈ visited then .ok (.error .chainLoop { progress with signals := after.signals })
    else
      listSector volume number listed
        (fun next listed => listSectors limit next (number :: visited) after.count listed)
        { progress with signals := after.signals }
termination_by limit - steps
decreasing_by omega

/-- The directory, in order. -/
def entries : Program Progress (List Entry) := fun progress =>
  listSectors volume progress.limits.maxChainBlocks volume.rootDirectory [] 0 0 progress

variable {volume}

theorem resolveData_eq (attributes : UInt8) (pointer : Pointer) (stored : Nat) :
    resolveData volume attributes pointer stored
      = .ok (volume.resolveData attributes pointer stored) := by
  unfold resolveData RetroMedia.HardDisk.Volume.resolveData
  split
  · rfl
  · split
    · rfl
    · rw [lba_eq, ok_bind]
      cases led : pointer.lba volume.geometry with
      | error error => rfl
      | ok number =>
        dsimp only
        rw [mul_sectorSize_eq (Nat.lt_add_right _ (Pointer.lba_lt led))]
        rfl

theorem readSlot_eq {listed : Nat} (few : listed + 1 < 4294967296) {slot : Bytes}
    (whole : slot.length = slotSize) :
    readSlot volume listed slot = .ok (volume.readSlot (listed + 1) slot) := by
  have name := field_lt slot 0 (by decide : 8 < 4294967296)
  have small : slot.length ≤ UInt64.size := by rw [whole]; decide
  rw [readSlot, part_eq (by decide) (by rw [whole]; decide), ok_bind, trimEach_eq name, ok_bind,
    byte_eq (by rw [whole]; decide), ok_bind, pointerOf_eq (by rw [whole]; decide), ok_bind,
    le32_eq (by rw [whole]; decide) small, ok_bind, resolveData_eq, ok_bind]
  dsimp only
  rw [le32_eq (by rw [whole]; decide) small, ok_bind, unpack?_eq (slot.le32_lt 0x11), ok_bind,
    byte_eq (by rw [whole]; decide), ok_bind, add_eq (lt_word few), ok_bind, toText_eq, ok_bind]
  rfl

theorem takes_listSlots {slots : List Bytes} (whole : ∀ slot ∈ slots, slot.length = slotSize)
    {listed : Nat} (few : listed + slots.length < 4294967296) :
    Takes slots.length (listSlots volume listed slots) (volume.listSlots (listed + 1) slots)
      fun entries => entries.length ≤ slots.length := by
  induction slots generalizing listed with
  | nil => exact takes_pure (Nat.le_refl _)
  | cons slot rest ih =>
    have here := whole slot List.mem_cons_self
    have later (slot : Bytes) (member : slot ∈ rest) := whole slot (List.mem_cons_of_mem _ member)
    rw [List.length_cons] at few ⊢
    unfold listSlots RetroMedia.HardDisk.Volume.listSlots
    apply Takes.lift (byte_eq (by rw [here]; decide))
    split
    · exact ((ih later (by omega)).mono (Nat.le_succ _)).imp fun _ fits => Nat.le_succ_of_le fits
    · rw [Nat.add_comm rest.length 1]
      refine takes_tick.bind fun _ _ => ?_
      apply Takes.lift (readSlot_eq (by omega) here)
      refine (ih later (by omega)).last fun more fits => takes_pure ?_
      rw [List.length_cons]
      omega

/-- How many sectors a directory can visit. -/
def directorySectors : Nat := Pointer.sectors + rootDirectorySector

/-- The most entries in the sectors that a directory has not visited. -/
def entriesLeft (visited : List Nat) : Nat := (directorySectors - visited.length) * 16

theorem takes_listSector (addressable : volume.container.size < UInt64.size) {number listed room : Nat}
    (near : number < directorySectors) (few : listed + 16 < 4294967296) {limit steps : Nat}
    {visited : List Nat} {onward : Nat → Nat → Program Progress (List Entry)}
    (rest : ∀ next listed', next < directorySectors → listed' ≤ listed + 16 →
      Takes room (onward next listed')
        (volume.listSectors limit next (number :: visited) steps (listed' + 1)) fun _ => True) :
    Takes (16 + room) (listSector volume number listed onward)
      (volume.listSector limit number visited steps (listed + 1)) fun _ => True := by
  unfold listSector RetroMedia.HardDisk.Volume.listSector
  apply Takes.lift (mul_sectorSize_eq near)
  apply Takes.lift (slice_eq addressable _ _)
  cases read : volume.container.slice (number * sectorSize) sectorSize with
  | error error => exact (takes_throw error).mono (Nat.zero_le _)
  | ok sector =>
    have whole : sector.length = sectorSize := Container.length_of_slice read
    have held : (sector.records slotSize).length = 16 := by
      rw [Bytes.records_eq, List.length_map, List.length_range, whole]
      rfl
    have slots := @takes_listSlots volume (sector.records slotSize)
      (fun _ member => Bytes.length_of_mem_records member) listed (by omega)
    rw [held] at slots
    refine slots.bind fun here fits => ?_
    apply Takes.lift (pointerOf_eq (by rw [whole]; decide))
    dsimp only
    split
    · exact (takes_pure trivial).mono (Nat.zero_le _)
    · apply Takes.lift (lba_eq _ _)
      cases led : (Pointer.ofBytes (sector.drop nextDirectoryOffset)).lba volume.geometry with
      | error error => exact (takes_throw error).mono (Nat.zero_le _)
      | ok next =>
        dsimp only
        have onward' := rest next (listed + here.length)
          (Nat.lt_add_right _ (Pointer.lba_lt led)) (Nat.add_le_add_left fits listed)
        rw [Nat.add_right_comm]
        exact onward'.last fun _ _ => takes_pure trivial

theorem listSectors_eq (volume : RetroMedia.HardDisk.Volume) (limit number : Nat)
    (visited : List Nat) (steps listed : Nat) (progress : Progress) :
    listSectors volume limit number visited steps listed progress
      = match tick (RetroMedia.HardDisk.Volume.chainCounter progress limit steps) with
        | .error fault => .error fault
        | .ok (.error error after) => .ok (.error error { progress with signals := after.signals })
        | .ok (.ok _ after) =>
          if number ∈ visited then
            .ok (.error .chainLoop { progress with signals := after.signals })
          else
            listSector volume number listed
              (fun next listed => listSectors volume limit next (number :: visited) after.count listed)
              { progress with signals := after.signals } := by
  rw [listSectors]
  split <;> rename_i step <;> simp only [step]

theorem length_le_of_near {visited : List Nat} (distinct : visited.Nodup)
    (near : ∀ number ∈ visited, number < directorySectors) : visited.length ≤ directorySectors := by
  have within : visited ⊆ List.range directorySectors := fun number member =>
    List.mem_range.2 (near number member)
  have fewer := (List.subperm_of_subset distinct within).length_le
  rwa [List.length_range] at fewer

theorem takes_listSectors (addressable : volume.container.size < UInt64.size) {limit number : Nat}
    {visited : List Nat} {listed : Nat} (near : number < directorySectors) (distinct : visited.Nodup)
    (within : ∀ other ∈ visited, other < directorySectors)
    (few : listed + entriesLeft visited < 4294967296) :
    Takes (entriesLeft visited)
      (listSectors volume limit number visited visited.length listed)
      (volume.listSectors limit number visited visited.length (listed + 1)) fun _ => True := by
  induction left : directorySectors - visited.length using Nat.strongRecOn
    generalizing number visited listed with
  | ind left ih =>
    intro spare progress room
    have most := length_le_of_near distinct within
    have small : directorySectors + 1 < 4294967296 := by decide
    have counter : Room (1 + 0)
        (RetroMedia.HardDisk.Volume.chainCounter progress limit visited.length) := by
      have fits : visited.length + 1 < UInt64.size := lt_word (by omega)
      exact fits
    obtain ⟨ticked, _⟩ := takes_tick 0 _ counter
    rw [listSectors_eq, RetroMedia.HardDisk.Volume.listSectors_eq, ticked]
    match step : Progress.tick
        (RetroMedia.HardDisk.Volume.chainCounter progress limit visited.length) with
    | .error error after => exact ⟨rfl, trivial⟩
    | .ok _ after =>
      have count : after.count = visited.length + 1 := (@Progress.tick_ok_le _ _ limit rfl step).1
      dsimp only
      rw [count]
      by_cases loop : number ∈ visited
      · rw [if_pos loop, if_pos loop]
        exact ⟨rfl, trivial⟩
      · rw [if_neg loop, if_neg loop]
        have distinct' : (number :: visited).Nodup := List.nodup_cons.2 ⟨loop, distinct⟩
        have within' : ∀ other ∈ number :: visited, other < directorySectors := by
          intro other member
          rcases List.mem_cons.1 member with rfl | earlier
          · exact near
          · exact within other earlier
        have most' := length_le_of_near distinct' within'
        have longer : (number :: visited).length = visited.length + 1 := List.length_cons
        -- the room for this sector's entries is set apart from that for all later ones
        have split : entriesLeft visited = 16 + entriesLeft (number :: visited) := by
          unfold entriesLeft
          omega
        rw [split] at room
        refine takes_listSector addressable near (by omega) ?_ spare _ room
        intro next listed' near' onward
        rw [← longer]
        exact ih _ (by omega) near' distinct' within' (by omega) rfl

/-- A fresh counter has room for every entry that a hard disk can list. -/
theorem entries_eq (sound : Sound volume) {progress : Progress} (fresh : progress.count = 0) :
    entries volume progress = .ok (volume.entries progress) := by
  have few : 0 + entriesLeft [] < 4294967296 := by decide
  have takes := @takes_listSectors volume sound.addressable progress.limits.maxChainBlocks
    volume.rootDirectory [] 0 sound.near List.nodup_nil (by simp) few
  exact (takes.fresh (by decide) fresh).1

end Checked.HardDisk
end RetroMedia
