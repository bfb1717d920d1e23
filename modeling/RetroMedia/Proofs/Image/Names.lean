import RetroMedia.Proofs.Checked.Records
import RetroMedia.Proofs.HardDisk.Addressing
import RetroMedia.Proofs.HardDisk.Trail
import RetroMedia.Proofs.Tape.Records
import RetroMedia.Proofs.Text.Padding

/-! Names in listings. Main statement: tapes and hard disks show all of a name but the padding at its
end exactly if its paddings lie in layers, in the order in which they are taken off. -/
namespace RetroMedia

open Petscii

/-! ## Names on tapes -/

/-- A run of a fixed course that comes to a value has come to the one that stands beforehand. -/
theorem Walk.eq_of_counted {α : Type} {value found : α} {steps : Nat} {progress after : Progress}
    (run : counted (.ok value) steps progress = .ok found after) : found = value := by
  induction steps generalizing progress with
  | zero =>
    cases run
    rfl
  | succ steps ih =>
    rw [counted_succ] at run
    obtain ⟨_, _, _, rest⟩ := ok_of_run_bind run
    exact ih rest

theorem forall₂_numberedFrom {relates : Bytes → Entry → Prop} {make : Nat → Bytes → Entry}
    (each : ∀ index record, relates record (make index record)) (index : Nat)
    (records : List Bytes) : List.Forall₂ relates records (numberedFrom make index records) := by
  induction records generalizing index with
  | nil => exact .nil
  | cons record rest ih =>
    rw [numberedFrom_cons]
    exact .cons (each index record) (ih (index + 1))

namespace Tape

/-- The field that holds the name of a tape. -/
def labelField (container : Container) : Bytes := (container.readAt 0 headerSize).field 0x28 24

/-- The field that holds the name of a record. -/
def nameField (record : Bytes) : Bytes := record.field 0x10 16

variable {container : Container} {tape : Tape} {progress after : Progress} {table : List Entry}

theorem mem_paddings_iff (padding : UInt8) :
    padding ∈ Checked.Tape.paddings ↔ padding ∈ paddings :=
  List.Perm.mem_iff (by decide)

theorem trims_trimName (field : Bytes) : Trims trimName Checked.Tape.paddings field :=
  trims_trimEach mem_paddings_iff field

theorem label_of_open (opened : Tape.open container = .ok tape) :
    tape.label = toText (trimName (labelField container)) := by
  rw [eq_of_open opened]
  rfl

theorem entries_named (listed : tape.entries progress = .ok table after) :
    List.Forall₂ (fun record => NamedBy Checked.Tape.paddings (nameField record))
      tape.listed table := by
  rw [entries_eq_counted] at listed
  rw [Walk.eq_of_counted listed]
  apply forall₂_numberedFrom
  intro index record
  exact (trims_trimName _).namedBy (rawName_readRecord index record) rfl

end Tape

/-! ## Names on hard disks -/

theorem Walk.Lands.eq_ok {α : Type} {before after : Progress} {taken : Nat}
    {result : Except MediaError α} {value : α}
    (lands : Lands before taken result (.ok value after)) : result = .ok value := by
  obtain ⟨_, _, _, ⟨_, never⟩ | ⟨_, found⟩⟩ := lands
  · cases never
  · cases result with
    | error error => cases found
    | ok value =>
      cases found
      rfl

namespace HardDisk

/-- The field that holds the name of a partition. -/
def partitionField (slot : Bytes) : Bytes := slot.field 0x01 16

/-- The field that holds the name of a file. -/
def nameField (slot : Bytes) : Bytes := slot.take 8

theorem mem_paddings_iff (padding : UInt8) :
    padding ∈ Checked.HardDisk.paddings ↔ padding ∈ paddings :=
  List.Perm.mem_iff (by decide)

theorem trims_trimName (field : Bytes) : Trims trimName Checked.HardDisk.paddings field :=
  trims_trimEach mem_paddings_iff field

namespace Volume

variable {volume : Volume} {progress after : Progress} {table : List Entry}

/-- The name of a partition comes from its slot. -/
theorem exists_of_mem_partitionsOf {sector : Bytes} {partition : Partition}
    (member : partition ∈ partitionsOf sector) :
    ∃ slot, (sector.records slotSize)[partition.slot]? = some slot ∧
      partition.name = toText (trimName (partitionField slot)) := by
  obtain ⟨index, inside, rfl⟩ := List.mem_mapIdx.1 (List.mem_filter.1 member).1
  exact ⟨_, List.getElem?_eq_getElem inside, rfl⟩

theorem rawName_readSlot (index : Nat) (slot : Bytes) :
    (volume.readSlot index slot).rawName = trimName (nameField slot) := rfl

/-- A directory is listed along a trail, and its entries are named by the slots there. -/
theorem entries_named (listed : volume.entries progress = .ok table after) :
    ∃ numbers, volume.Trail progress.limits.maxChainBlocks numbers ∧
      List.Forall₂ (fun slot => NamedBy Checked.HardDisk.paddings (nameField slot))
        (volume.slotsOn numbers) table := by
  have follows := volume.entries_follows progress
  rw [listed] at follows
  obtain ⟨closed, same⟩ := verdict_eq_ok follows.eq_ok
  refine ⟨_, course_eq_ok_iff.1 (Prod.ext rfl closed), ?_⟩
  rw [same]
  apply forall₂_numberedFrom
  intro index slot
  exact (trims_trimName _).namedBy (rawName_readSlot index slot) rfl

end Volume

end HardDisk

/-! ## Names in listings -/

/-- To trim a field leaves the longest beginning that does not end in padding, and so leaves nothing
that trimming once more would take off, exactly if the paddings lie in layers. This decides which
tapes, partitions and files are shown without the padding of their names. -/
theorem names_bare_iff_layered (field : Bytes) (container : Container) :
    Trims Tape.trimName Checked.Tape.paddings field ∧
    Trims HardDisk.trimName Checked.HardDisk.paddings field ∧
    (∀ tape, Tape.open container = .ok tape →
      (ShowsBare (Tape.labelField container) tape.label ↔
        Layered Checked.Tape.paddings (Tape.labelField container)) ∧
      ∀ progress table after, tape.entries progress = .ok table after →
        List.Forall₂ (fun record => NamedBy Checked.Tape.paddings (Tape.nameField record))
          tape.listed table) ∧
    ∀ volume, HardDisk.Volume.open container = .ok volume →
      (∃ sector, HardDisk.Volume.IsTable container volume.geometry sector ∧
        ∀ partition ∈ volume.partitions,
          ∃ slot, (sector.records HardDisk.slotSize)[partition.slot]? = some slot ∧
            (ShowsBare (HardDisk.partitionField slot) partition.name ↔
              Layered Checked.HardDisk.paddings (HardDisk.partitionField slot))) ∧
      ∀ progress table after, volume.entries progress = .ok table after →
        ∃ numbers, volume.Trail progress.limits.maxChainBlocks numbers ∧
          List.Forall₂ (fun slot => NamedBy Checked.HardDisk.paddings (HardDisk.nameField slot))
            (volume.slotsOn numbers) table := by
  refine ⟨Tape.trims_trimName field, HardDisk.trims_trimName field, ?_, ?_⟩
  · intro tape opened
    refine ⟨?_, fun _ _ _ listed => Tape.entries_named listed⟩
    rw [Tape.label_of_open opened]
    exact (Tape.trims_trimName _).showsBare_iff
  · intro volume opened
    obtain ⟨⟨sector, isTable, partitions⟩, -⟩ := HardDisk.Volume.of_open opened
    refine ⟨⟨sector, isTable, ?_⟩, fun _ _ _ listed => HardDisk.Volume.entries_named listed⟩
    intro partition member
    rw [partitions] at member
    obtain ⟨slot, here, name⟩ := HardDisk.Volume.exists_of_mem_partitionsOf member
    refine ⟨slot, here, ?_⟩
    rw [name]
    exact (HardDisk.trims_trimName _).showsBare_iff

namespace Tape

/-- The record of a file of two bytes. -/
def paddedRecord (name : Bytes) : Bytes :=
  [1, 0x82, 0x00, 0x10, 0x02, 0x10, 0, 0, 0x80, 0, 0, 0, 0, 0, 0, 0] ++ name

/-- A name with all three paddings around it, in layers. -/
def layeredName : Bytes :=
  [0x41, 0x42] ++ List.replicate 5 0x00 ++ List.replicate 5 0x20 ++ List.replicate 4 shiftedSpace

/-- A name whose spaces lie inside of a zero. -/
def mixedName : Bytes := [0x43, 0x44] ++ List.replicate 13 0x20 ++ [0x00]

/-- A tape without a name of its own that holds a file of each name. -/
def ofPaddedNames : Container :=
  .ofBytes (signature ++ List.replicate 29 0 ++ [0x00, 0x01, 2, 0, 2, 0, 0, 0]
    ++ List.replicate 24 0x20 ++ paddedRecord layeredName ++ paddedRecord mixedName ++ [7, 8])

theorem labelField_ofPaddedNames : labelField ofPaddedNames = List.replicate 24 0x20 := by
  unfold labelField
  rw [Container.readAt_eq]
  decide +kernel

theorem open_ofPaddedNames : ∃ tape after, Tape.open ofPaddedNames = .ok tape ∧
    tape.listed = [paddedRecord layeredName, paddedRecord mixedName] ∧
    tape.entries {} = .ok tape.listing after := by
  have facts : ((Tape.open ofPaddedNames).toOption.map listed)
      = some [paddedRecord layeredName, paddedRecord mixedName] := by
    -- As slices of an array, each record would be looked up byte by byte.
    unfold listed recordsFrom recordAt Tape.open Container.slice
    simp only [Container.readAt_eq]
    decide +kernel
  cases opened : Tape.open ofPaddedNames with
  | error error =>
    rw [opened] at facts
    cases facts
  | ok tape =>
    rw [opened] at facts
    have records := Option.some.inj facts
    obtain ⟨after, run⟩ : ∃ after, tape.entries {} = .ok tape.listing after := by
      rw [entries_eq_counted, listing, records]
      exact ⟨_, rfl⟩
    exact ⟨tape, after, rfl, records, run⟩

theorem layered_layeredName : Layered Checked.Tape.paddings layeredName :=
  ⟨_, 4, rfl, _, 5, rfl, _, 5, rfl, (by decide : Bare [0x41, 0x42])⟩

end Tape

namespace HardDisk.Volume

theorem Trail.unique {volume : Volume} {limit : Nat} {numbers others : List Nat}
    (trail : volume.Trail limit numbers) (other : volume.Trail limit others) : numbers = others :=
  congrArg Prod.fst ((course_eq_ok_iff.2 trail).symm.trans (course_eq_ok_iff.2 other))

theorem IsTable.unique {container : Container} {geometry : DriveGeometry} {sector other : Bytes}
    (isTable : IsTable container geometry sector) (again : IsTable container geometry other) :
    sector = other := by
  obtain ⟨boot, number, read, leads, found⟩ := isTable
  obtain ⟨boot', number', read', leads', found'⟩ := again
  cases read.symm.trans read'
  cases leads.symm.trans leads'
  exact Except.ok.inj (found.symm.trans found')

theorem isTable_diskOf (directory : List Bytes) :
    IsTable (diskOf directory) ⟨1, 16⟩ bootSector := by
  have boot : (diskOf directory).slice (0 * sectorSize) sectorSize = .ok bootSector :=
    (slice_diskOf rfl).trans (congrArg Except.ok sectorOf_bootSector)
  exact ⟨bootSector, 0, boot, by decide +kernel, boot⟩

theorem active_mem_volumeOf (directory : List Bytes) :
    (volumeOf directory).active ∈ (volumeOf directory).partitions := by
  have native : (partitionsOf bootSector).find? (·.kind == nativeKind)
      = some (Partition.ofSlot 1 (bootSector.field slotSize slotSize)) := by decide +kernel
  simp only [volumeOf]
  exact List.mem_of_find?_eq_some native

theorem slot_active_volumeOf (directory : List Bytes) :
    (bootSector.records slotSize)[(volumeOf directory).active.slot]?
      = some (bootSector.field slotSize slotSize) := by
  change (bootSector.records slotSize)[1]? = _
  decide +kernel

theorem partitionField_active : partitionField (bootSector.field slotSize slotSize)
    = [0x57, 0x4F, 0x52, 0x4B] ++ List.replicate 12 0 := by
  decide +kernel

theorem entries_pairedSectors :
    ∃ table after, (volumeOf (pairedSectors [])).entries {} = .ok table after :=
  ⟨_, entries_of_trail Signals.calm_quiet (trail_pairedSectors (by decide))
    (Progress.fits_of_unbounded rfl _)⟩

end HardDisk.Volume

/-- The first file of the tape is named by its whole name without the padding, and so are the partition
and the first file of a hard disk. -/
theorem names_bare_iff_layered_of_padded :
    (∃ tape table after entry, Tape.open Tape.ofPaddedNames = .ok tape ∧
      tape.entries {} = .ok table after ∧ table[0]? = some entry ∧
      IsBareName Tape.layeredName entry.rawName ∧
      ShowsBare (List.replicate 24 0x20) tape.label) ∧
    ∃ volume table after entry,
      HardDisk.Volume.open (HardDisk.diskOf (HardDisk.Volume.pairedSectors [])) = .ok volume ∧
      ShowsBare ([0x57, 0x4F, 0x52, 0x4B] ++ List.replicate 12 0) volume.label ∧
      volume.entries {} = .ok table after ∧ table[0]? = some entry ∧ Bare entry.rawName := by
  constructor
  · obtain ⟨tape, after, opened, records, listed⟩ := Tape.open_ofPaddedNames
    obtain ⟨-, -, tapes, -⟩ := names_bare_iff_layered Tape.layeredName Tape.ofPaddedNames
    obtain ⟨label, files⟩ := tapes tape opened
    rw [Tape.labelField_ofPaddedNames] at label
    have named := files {} _ after listed
    rw [records] at named
    obtain ⟨entry, rest, first, -, table⟩ := List.forall₂_cons_left_iff.1 named
    refine ⟨tape, _, after, entry, opened, listed, ?_, first.longest.2 Tape.layered_layeredName,
      label.2 ?_⟩
    · rw [table]
      rfl
    · exact ⟨_, 0, (List.append_nil _).symm, [], 24, rfl, [], 0, rfl, (by decide : Bare [])⟩
  · obtain ⟨table, after, listed⟩ := HardDisk.Volume.entries_pairedSectors
    have opened := HardDisk.Volume.open_diskOf (HardDisk.Volume.pairedSectors [])
    obtain ⟨-, -, -, disks⟩ := names_bare_iff_layered []
      (HardDisk.diskOf (HardDisk.Volume.pairedSectors []))
    obtain ⟨⟨sector, isTable, partitions⟩, files⟩ := disks _ opened
    obtain rfl := isTable.unique (HardDisk.Volume.isTable_diskOf _)
    obtain ⟨slot, here, label⟩ := partitions _ (HardDisk.Volume.active_mem_volumeOf _)
    cases (HardDisk.Volume.slot_active_volumeOf _).symm.trans here
    rw [HardDisk.Volume.partitionField_active] at label
    obtain ⟨numbers, trail, named⟩ := files {} _ after listed
    have along := trail.unique (HardDisk.Volume.trail_pairedSectors (by decide))
    rw [along, HardDisk.Volume.slotsOn_pairedSectors] at named
    obtain ⟨entry, rest, first, -, rfl⟩ := List.forall₂_cons_left_iff.1 named
    refine ⟨_, _, after, entry, opened, label.2 ?_, listed, rfl, first.bare.2 ?_⟩
    · exact ⟨_, 12, rfl, _, 0, rfl, _, 0, rfl, (by decide : Bare [0x57, 0x4F, 0x52, 0x4B])⟩
    · exact ⟨_, 0, rfl, _, 0, rfl, [0x46, 0x49, 0x52, 0x53, 0x54], 3, rfl,
        (by decide : Bare [0x46, 0x49, 0x52, 0x53, 0x54])⟩

/-- The spaces of the second file are not taken off, since there is a zero behind them. On a hard disk
they would be, but not a zero with a space behind it, and on neither a shifted space with a space behind
it. -/
theorem hidden_padding_left :
    (∃ tape table after entry, Tape.open Tape.ofPaddedNames = .ok tape ∧
      tape.entries {} = .ok table after ∧ table[1]? = some entry ∧
      entry.rawName = [0x43, 0x44] ++ List.replicate 13 0x20 ∧
      ¬ Bare entry.rawName ∧ ¬ IsBareName Tape.mixedName entry.rawName ∧
      Tape.trimName entry.rawName = [0x43, 0x44]) ∧
    HardDisk.trimName Tape.mixedName = [0x43, 0x44] ∧
    HardDisk.trimName [0x41, 0x00, 0x20] = [0x41, 0x00] ∧
    Tape.trimName [0x41, 0x00, 0x20] = [0x41] ∧
    Tape.trimName [0x41, shiftedSpace, 0x20] = [0x41, shiftedSpace] ∧
    HardDisk.trimName [0x41, shiftedSpace, 0x20] = [0x41, shiftedSpace] := by
  refine ⟨?_, by decide, by decide, by decide, by decide, by decide⟩
  obtain ⟨tape, after, opened, records, listed⟩ := Tape.open_ofPaddedNames
  have left : Tape.trimName Tape.mixedName = [0x43, 0x44] ++ List.replicate 13 0x20 := by decide
  have padded : ¬ Bare (Tape.trimName Tape.mixedName) := by decide
  refine ⟨tape, _, after, tape.readRecord 2 (Tape.paddedRecord Tape.mixedName), opened, listed, ?_,
    left, padded, fun whole => padded whole.bare, ?_⟩
  · rw [Tape.listing, records]
    rfl
  · change Tape.trimName (Tape.trimName Tape.mixedName) = _
    decide

end RetroMedia
