import RetroMedia.Proofs.Disk.TrackWriter
import RetroMedia.Proofs.Tape.Records
import RetroMedia.Text.Petscii

/-! Tapes as they are written: a header, a table of slots, and the data of the files in the order of
their slots. Free slots can stand anywhere in the table. -/
namespace RetroMedia.Tape

open Disk.TrackImage (word32)

/-- Bytes that a stored name takes. -/
def nameSize : Nat := 16

/-- What names can be padded with. -/
def paddings : Bytes := [Petscii.shiftedSpace, 0x20, 0x00]

/-- A file as it is to be loaded. -/
structure StoredFile where
  rawName : Bytes
  padding : UInt8
  /-- What the record is marked with as one in use. -/
  mark : UInt8
  typeCode : UInt8
  load : Nat
  content : Bytes
  name_fits : rawName.length ≤ nameSize
  padding_known : padding ∈ paddings
  mark_ne : mark ≠ 0
  content_fits : load + content.length ≤ lastAddress

namespace StoredFile

variable (file : StoredFile)

def paddedName : Bytes :=
  file.rawName ++ List.replicate (nameSize - file.rawName.length) file.padding

/-- The record of the file if its data begins at `offset`. -/
def record (offset : Nat) : Bytes :=
  [file.mark, file.typeCode] ++ Bytes.ofWord16 file.load
    ++ Bytes.ofWord16 (file.load + file.content.length) ++ [0, 0] ++ word32 offset ++ [0, 0, 0, 0]
    ++ file.paddedName

theorem length_paddedName : file.paddedName.length = nameSize := by
  rw [paddedName, List.length_append, List.length_replicate]
  exact Nat.add_sub_cancel' file.name_fits

theorem length_record (offset : Nat) : (file.record offset).length = recordSize := by
  simp only [record, List.length_append, length_paddedName]
  rfl

/-- A name that does not end in what it could be padded with is told from its padding. -/
theorem trimName_paddedName
    (ends : ∀ padding ∈ paddings, file.rawName.getLast? ≠ some padding) :
    trimName file.paddedName = file.rawName := by
  -- The name is cut free by the step for its own padding; the others find nothing to cut.
  have own : Petscii.trimPadding file.paddedName file.padding = file.rawName := by
    rw [paddedName, Petscii.trimPadding_append_replicate]
    exact Petscii.trimPadding_of_ends (ends _ file.padding_known)
  have before {other : UInt8} (member : other ∈ paddings) (differ : file.padding ≠ other) :
      Petscii.trimPadding file.paddedName other = file.paddedName :=
    Petscii.trimPadding_of_ends (Petscii.getLast?_append_replicate_ne _ (ends other member) differ)
  have behind {other : UInt8} (member : other ∈ paddings) :
      Petscii.trimPadding file.rawName other = file.rawName :=
    Petscii.trimPadding_of_ends (ends other member)
  have shifted : Petscii.shiftedSpace ∈ paddings := by decide
  have space : 0x20 ∈ paddings := by decide
  have zero : 0x00 ∈ paddings := by decide
  have known := file.padding_known
  simp only [paddings, List.mem_cons, List.not_mem_nil, or_false] at known
  unfold trimName
  rcases known with same | same | same
  · rw [← same, own, behind space, behind zero]
  · rw [before shifted (by rw [same]; decide), ← same, own, behind zero]
  · rw [before shifted (by rw [same]; decide), before space (by rw [same]; decide), ← same, own]

section Record

variable (offset : Nat)

theorem inUse_record : inUse (file.record offset) = true := bne_iff_ne.2 file.mark_ne

theorem typeCode_record : (file.record offset).byte 0x01 = file.typeCode := rfl

theorem start_record : (file.record offset).le16 0x02 = file.load := by
  have fits := file.content_fits
  simp only [lastAddress] at fits
  exact Disk.TrackImage.le16_ofWord16 (by omega)

theorem finish_record : (file.record offset).le16 0x04 = file.load + file.content.length := by
  have fits := file.content_fits
  simp only [lastAddress] at fits
  exact Disk.TrackImage.le16_ofWord16 (by omega)

theorem offset_record {offset : Nat} (small : offset < 4294967296) :
    (file.record offset).le32 0x08 = offset := Disk.TrackImage.le32_word32 small

theorem name_record : (file.record offset).field 0x10 16 = file.paddedName := by
  change file.paddedName.take nameSize = _
  rw [← file.length_paddedName, List.take_length]

theorem rawName_readRecord (tape : Tape) (index : Nat)
    (ends : ∀ padding ∈ paddings, file.rawName.getLast? ≠ some padding) :
    (tape.readRecord index (file.record offset)).rawName = file.rawName := by
  rw [Tape.rawName_readRecord, file.name_record, file.trimName_paddedName ends]

end Record

end StoredFile

/-- A slot of the table. What follows the mark of a free slot can be anything. -/
inductive Slot where
  | free (rest : Bytes) (whole : rest.length + 1 = recordSize)
  | taken (file : StoredFile)

namespace Slot

def content : Slot → Bytes
  | free _ _ => []
  | taken file => file.content

/-- What stands in the table for a slot if its data begins at `offset`. -/
def record (offset : Nat) : Slot → Bytes
  | free rest _ => 0 :: rest
  | taken file => file.record offset

def file? : Slot → Option StoredFile
  | free _ _ => none
  | taken file => some file

theorem length_record (offset : Nat) (slot : Slot) :
    (slot.record offset).length = recordSize := by
  cases slot with
  | free rest whole => exact whole
  | taken file => exact file.length_record offset

end Slot

/-- What a tape is made of. -/
structure Parts where
  /-- What follows the signature in its field. -/
  title : Bytes
  version : Nat
  /-- The count of files. -/
  used : Nat
  /-- What ends the header: reserved bytes and a label. -/
  label : Bytes
  slots : List Slot
  /-- What stands between the table and the data. -/
  slack : Bytes
  /-- What stands behind the data. -/
  trailer : Bytes

namespace Parts

variable (parts : Parts)

def counts : Bytes :=
  Bytes.ofWord16 parts.version ++ Bytes.ofWord16 parts.slots.length ++ Bytes.ofWord16 parts.used

def header : Bytes := signature ++ parts.title ++ (parts.counts ++ parts.label)

/-- Where the data of a slot begins: behind that of the slots before it. -/
def offsetOf (place : Nat) : Nat :=
  headerSize + parts.slots.length * recordSize + parts.slack.length
    + ((parts.slots.take place).flatMap Slot.content).length

def table : Bytes :=
  parts.slots.zipIdx.flatMap fun item => item.1.record (parts.offsetOf item.2)

def data : Bytes := parts.slots.flatMap Slot.content

def toBytes : Bytes :=
  parts.header ++ (parts.table ++ (parts.slack ++ (parts.data ++ parts.trailer)))

def container : Container := .ofBytes parts.toBytes

/-- The files in the order of their slots. -/
def files : List StoredFile := parts.slots.filterMap Slot.file?

/-- The files, and where the data of each of them begins. -/
def placed : List (StoredFile × Nat) :=
  parts.slots.zipIdx.filterMap fun item => item.1.file?.map (·, parts.offsetOf item.2)

end Parts

/-- The parts of a tape in their places. -/
structure Layout extends Parts where
  title_fills : signature.length + title.length = 0x20
  label_fills : label.length = 26
  /-- The count of files is right, or it was left at zero. -/
  used_right : used = toParts.files.length ∨ used = 0
  slots_few : slots.length < 65536
  /-- Records have four bytes for an offset. -/
  addressable : ∀ place < slots.length, toParts.offsetOf place < 4294967296

namespace Layout

variable (layout : Layout)

theorem length_header : layout.header.length = headerSize := by
  have front := layout.title_fills
  have back := layout.label_fills
  simp only [Parts.header, Parts.counts, Bytes.ofWord16, List.length_append, List.length_cons,
    List.length_nil, headerSize]
  omega

theorem slice_header : layout.container.slice 0 headerSize = .ok layout.header := by
  have read := @Container.slice_of_split layout.container [] layout.header _ rfl
  rwa [layout.length_header] at read

theorem used_le : layout.used ≤ layout.slots.length := by
  have files : layout.files.length ≤ layout.slots.length := List.length_filterMap_le _ _
  rcases layout.used_right with right | zero
  · rw [right]
    exact files
  · rw [zero]
    exact Nat.zero_le _

/-- The words behind the title. -/
theorem le16_header (offset : Nat) :
    layout.header.le16 (0x20 + offset) = (layout.counts ++ layout.label).le16 offset := by
  have byte (place : Nat) :
      layout.header.byte (0x20 + place) = (layout.counts ++ layout.label).byte place := by
    have front : (signature ++ layout.title).length = 0x20 := by
      rw [List.length_append, layout.title_fills]
    rw [Parts.header, Bytes.byte, Bytes.byte, List.getD_eq_getElem?_getD,
      List.getD_eq_getElem?_getD, List.getElem?_append_right (by omega), front,
      Nat.add_sub_cancel_left]
  rw [Bytes.le16, byte, Nat.add_assoc, byte]
  rfl

theorem open_container : ∃ tape, Tape.open layout.container = .ok tape ∧
    tape.container = layout.container ∧ tape.maxEntries = layout.slots.length ∧
    tape.usedEntries = layout.used := by
  have marked : layout.header.take signature.length = signature := by
    rw [Parts.header, List.append_assoc, List.take_left]
  have opened : ∃ tape, Tape.open layout.container = .ok tape := by
    unfold Tape.open
    rw [layout.slice_header]
    dsimp only [bind, Except.bind]
    rw [marked, if_neg (by simp)]
    exact ⟨_, rfl⟩
  obtain ⟨tape, opened⟩ := opened
  obtain ⟨same, maxEntries, usedEntries⟩ := of_open opened
  have few := layout.slots_few
  have header := (Container.of_slice_eq_ok layout.slice_header).2
  refine ⟨tape, opened, same, ?_, ?_⟩
  · rw [maxEntries, header]
    exact (layout.le16_header 2).trans (Disk.TrackImage.le16_ofWord16 few)
  · rw [usedEntries, header]
    exact (layout.le16_header 4).trans
      (Disk.TrackImage.le16_ofWord16 (Nat.lt_of_le_of_lt layout.used_le few))

/-- The record of a slot stands at its place in the table. -/
theorem slice_slot {place : Nat} {slot : Slot} (here : layout.slots[place]? = some slot) :
    layout.container.slice (slotOffset place) recordSize
      = .ok (slot.record (layout.offsetOf place)) := by
  let piece : Slot × Nat → Bytes := fun item => item.1.record (layout.offsetOf item.2)
  have numbered : layout.slots.zipIdx[place]? = some (slot, place) := by
    rw [List.getElem?_zipIdx, here]
    simp
  have even (item : Slot × Nat) : (piece item).length = recordSize := item.1.length_record _
  obtain ⟨before, after, split, length⟩ := Disk.flatMap_split even numbered
  have whole : layout.container.toBytes = (layout.header ++ before)
      ++ (piece (slot, place) ++ (after ++ (layout.slack ++ (layout.data ++ layout.trailer)))) := by
    change layout.header ++ (layout.slots.zipIdx.flatMap piece ++ _) = _
    rw [split]
    simp only [List.append_assoc]
  have read := Container.slice_of_split whole
  rw [List.length_append, layout.length_header, length] at read
  rw [slot.length_record] at read
  exact read

theorem length_table : layout.table.length = layout.slots.length * recordSize := by
  have even : (fun item : Slot × Nat => (item.1.record (layout.offsetOf item.2)).length)
      = fun _ => recordSize := funext fun item => item.1.length_record _
  rw [Parts.table, List.length_flatMap, even, List.map_const', List.sum_replicate_nat,
    List.length_zipIdx]

/-- The data of a slot stands at its offset. -/
theorem slice_content {place : Nat} {slot : Slot} (here : layout.slots[place]? = some slot) :
    layout.container.slice (layout.offsetOf place) slot.content.length = .ok slot.content := by
  obtain ⟨bound, same⟩ := List.getElem?_eq_some_iff.1 here
  have split : layout.slots = layout.slots.take place ++ slot :: layout.slots.drop (place + 1) := by
    rw [← same, ← List.drop_eq_getElem_cons bound, List.take_append_drop]
  have data : layout.data = (layout.slots.take place).flatMap Slot.content
      ++ (slot.content ++ (layout.slots.drop (place + 1)).flatMap Slot.content) := by
    rw [← List.flatMap_cons, ← List.flatMap_append, ← split]
    rfl
  have whole : layout.container.toBytes
      = (layout.header ++ layout.table ++ layout.slack
          ++ (layout.slots.take place).flatMap Slot.content)
        ++ (slot.content
          ++ ((layout.slots.drop (place + 1)).flatMap Slot.content ++ layout.trailer)) := by
    change layout.header ++ (layout.table ++ (layout.slack ++ (layout.data ++ layout.trailer))) = _
    rw [data]
    simp only [List.append_assoc]
  have read := Container.slice_of_split whole
  have place : (layout.header ++ layout.table ++ layout.slack
      ++ (layout.slots.take place).flatMap Slot.content).length = layout.offsetOf place := by
    simp only [List.length_append, layout.length_header, layout.length_table, Parts.offsetOf]
  rw [place] at read
  exact read

/-- The records in use among those of some slots are those of their files. -/
theorem filter_records (items : List (Slot × Nat)) :
    (items.map fun item => item.1.record (layout.offsetOf item.2)).filter inUse
      = (items.filterMap fun item => item.1.file?.map (·, layout.offsetOf item.2)).map
          fun stored => stored.1.record stored.2 := by
  induction items with
  | nil => rfl
  | cons item rest ih =>
    obtain ⟨slot, place⟩ := item
    cases slot with
    | free bytes whole =>
      have unused : ¬ inUse ((Slot.free bytes whole).record (layout.offsetOf place)) = true := by
        simp [Slot.record, inUse, Bytes.byte]
      rw [List.map_cons, List.filter_cons_of_neg unused, ih]
      rfl
    | taken file =>
      have used : inUse ((Slot.taken file).record (layout.offsetOf place)) = true :=
        file.inUse_record _
      rw [List.map_cons, List.filter_cons_of_pos used, ih]
      rfl

section Tape

variable {layout} {tape : Tape} (same : tape.container = layout.container)
include same

theorem holds_slot {place : Nat} (inside : place < layout.slots.length) :
    tape.holds place = true := by
  have here := List.getElem?_eq_getElem inside
  rw [holds_iff, same]
  exact (Container.of_slice_eq_ok (layout.slice_slot here)).1

theorem recordAt_slot {place : Nat} {slot : Slot} (here : layout.slots[place]? = some slot) :
    tape.recordAt place = slot.record (layout.offsetOf place) := by
  rw [recordAt, same]
  exact (Container.of_slice_eq_ok (layout.slice_slot here)).2

/-- The table lists the records of the files in the order of their slots. -/
theorem recordsFrom_container :
    tape.recordsFrom 0 layout.slots.length
      = layout.placed.map fun stored => stored.1.record stored.2 := by
  have held : (List.range' 0 layout.slots.length).filter tape.holds
      = List.range' 0 layout.slots.length := by
    rw [List.filter_eq_self]
    intro place member
    exact holds_slot same (by simpa using member)
  have read : (List.range' 0 layout.slots.length).map tape.recordAt
      = layout.slots.zipIdx.map fun item => item.1.record (layout.offsetOf item.2) := by
    apply List.ext_getElem?
    intro place
    rw [List.getElem?_map, List.getElem?_map, List.getElem?_zipIdx]
    cases here : layout.slots[place]? with
    | none =>
      have beyond := List.getElem?_eq_none_iff.1 here
      rw [List.getElem?_eq_none_iff.2 (by simpa using beyond)]
      rfl
    | some slot =>
      obtain ⟨inside, _⟩ := List.getElem?_eq_some_iff.1 here
      rw [List.getElem?_range' inside]
      simpa using recordAt_slot same here
  rw [recordsFrom, held, read, filter_records]
  rfl

end Tape

/-- The files without their places. -/
theorem map_placed : layout.placed.map Prod.fst = layout.files := by
  have forget : (fun item : Slot × Nat =>
      (item.1.file?.map (·, layout.offsetOf item.2)).map Prod.fst) = Slot.file? ∘ Prod.fst := by
    funext item
    rw [Option.map_map]
    exact Option.map_id'
  rw [Parts.placed, List.map_filterMap, forget, ← List.filterMap_map, List.zipIdx_map_fst]
  rfl

/-- A file stands in a slot, and its data at the offset of that slot. -/
theorem of_mem_placed {file : StoredFile} {offset : Nat} (member : (file, offset) ∈ layout.placed) :
    offset < 4294967296 ∧
      layout.container.slice offset file.content.length = .ok file.content := by
  obtain ⟨⟨slot, place⟩, item, found⟩ := List.mem_filterMap.1 member
  have here : layout.slots[place]? = some slot := List.mk_mem_zipIdx_iff_getElem?.1 item
  cases slot with
  | free bytes whole => cases found
  | taken stored =>
    cases found
    obtain ⟨inside, _⟩ := List.getElem?_eq_some_iff.1 here
    exact ⟨layout.addressable place inside, layout.slice_content here⟩

theorem listed_container {tape : Tape} (same : tape.container = layout.container)
    (maxEntries : tape.maxEntries = layout.slots.length)
    (usedEntries : tape.usedEntries = layout.used) :
    tape.listed = layout.placed.map fun stored => stored.1.record stored.2 := by
  rw [listed, maxEntries, usedEntries, Nat.max_eq_right layout.used_le]
  exact recordsFrom_container same

/-- The bytes that the record of a file speaks of are those of the file. -/
theorem storedSize_record {file : StoredFile} {offset : Nat}
    (member : (file, offset) ∈ layout.placed) :
    storedSize layout.container (file.record offset) = file.content.length := by
  obtain ⟨small, found⟩ := layout.of_mem_placed member
  have room := (Container.of_slice_eq_ok found).1
  unfold storedSize
  dsimp only
  rw [file.start_record, file.finish_record, file.offset_record small, Nat.add_sub_cancel_left]
  exact if_pos ⟨Nat.le_add_right _ _, by omega⟩

section Read

variable {layout} {tape : Tape} (same : tape.container = layout.container)
  {file : StoredFile} {offset : Nat} (member : (file, offset) ∈ layout.placed) (index : Nat)
include same member

theorem size_file : (tape.readRecord index (file.record offset)).size = file.content.length + 2 := by
  rw [size_readRecord, same, layout.storedSize_record member]

/-- The entry of a file is read as its load address and its bytes. -/
theorem file_yields (signals : Signals) :
    ByteSource.YieldsExactly
      (tape.openEntry (tape.readRecord index (file.record offset)), signals)
      (Bytes.ofWord16 file.load ++ file.content) := by
  obtain ⟨small, found⟩ := layout.of_mem_placed member
  have content := (Container.of_slice_eq_ok found).2
  have read := tape.openEntry_yields index (file.record offset) signals
  rwa [file.start_record, file.offset_record small, same, layout.storedSize_record member,
    content] at read

end Read

/-- The place of a file among all files is that of its record in the table. -/
theorem exists_placed {place : Nat} {file : StoredFile}
    (here : layout.files[place]? = some file) :
    ∃ offset, layout.placed[place]? = some (file, offset) := by
  rw [← layout.map_placed, List.getElem?_map, Option.map_eq_some_iff] at here
  obtain ⟨⟨_, offset⟩, stored, rfl⟩ := here
  exact ⟨offset, stored⟩

end Layout

/-- A tape lists exactly the records in use among the slots that the larger of its two counts speaks
of and that the container holds, in order, and each entry is read as its load address and the bytes of
the container at its offset: as many as lie between its addresses if there are so many, and else as
many as there are and as addresses allow. A tape that was written from some files, with free slots
anywhere between them and the count of files right or zero, lists these files and reads as what they
hold. -/
theorem records_read_back :
    (∀ container tape, Tape.open container = .ok tape →
      tape.maxEntries = (container.readAt 0 headerSize).le16 0x22 ∧
      tape.usedEntries = (container.readAt 0 headerSize).le16 0x24 ∧
      tape.entries = Walk.counted (.ok tape.listing) tape.listing.length ∧
      tape.listing.length = tape.listed.length ∧
      ∀ place record, tape.listed[place]? = some record →
        ∃ entry, tape.listing[place]? = some entry ∧ entry.index = place + 1 ∧
          entry.size = storedSize container record + 2 ∧
          ∀ signals : Signals, ByteSource.YieldsExactly (tape.openEntry entry, signals)
            (Bytes.ofWord16 (record.le16 0x02)
              ++ container.readAt (record.le32 0x08) (storedSize container record))) ∧
    ∀ layout : Layout, ∃ tape, Tape.open layout.container = .ok tape ∧
      tape.entries = Walk.counted (.ok tape.listing) tape.listing.length ∧
      tape.listing.length = layout.files.length ∧
      ∀ place file, layout.files[place]? = some file →
        ∃ entry, tape.listing[place]? = some entry ∧ entry.index = place + 1 ∧
          entry.typeCode = file.typeCode ∧ entry.loadAddress = some file.load ∧
          entry.size = file.content.length + 2 ∧
          ((∀ padding ∈ paddings, file.rawName.getLast? ≠ some padding) →
            entry.rawName = file.rawName) ∧
          ∀ signals : Signals, ByteSource.YieldsExactly (tape.openEntry entry, signals)
            (Bytes.ofWord16 file.load ++ file.content) := by
  constructor
  · intro container tape opened
    obtain ⟨rfl, maxEntries, usedEntries⟩ := of_open opened
    refine ⟨maxEntries, usedEntries, tape.entries_eq_counted, length_numberedFrom, ?_⟩
    intro place record here
    exact ⟨tape.readRecord (1 + place) record, getElem?_numberedFrom here, Nat.add_comm _ _,
      size_readRecord _ record, tape.openEntry_yields _ record⟩
  · intro layout
    obtain ⟨tape, opened, same, maxEntries, usedEntries⟩ := layout.open_container
    have listed := layout.listed_container same maxEntries usedEntries
    have length : tape.listing.length = layout.files.length := by
      rw [listing, length_numberedFrom, listed, List.length_map, ← layout.map_placed,
        List.length_map]
    refine ⟨tape, opened, tape.entries_eq_counted, length, ?_⟩
    intro place file here
    obtain ⟨offset, stored⟩ := layout.exists_placed here
    have member := List.mem_of_getElem? stored
    have record : tape.listed[place]? = some (file.record offset) := by
      rw [listed, List.getElem?_map, stored]
      rfl
    refine ⟨tape.readRecord (1 + place) (file.record offset), getElem?_numberedFrom record,
      Nat.add_comm _ _, ?_, ?_, Layout.size_file same member _,
      file.rawName_readRecord offset tape _, Layout.file_yields same member _⟩
    · rw [typeCode_readRecord, file.typeCode_record]
    · rw [loadAddress_readRecord, file.start_record]

/-- A program of three bytes whose name is padded with spaces. -/
def shortFile : StoredFile where
  rawName := [0x41]
  padding := 0x20
  mark := 1
  typeCode := 0x82
  load := 0x0801
  content := [1, 2, 3]
  name_fits := by decide
  padding_known := by decide
  mark_ne := by decide
  content_fits := by decide

/-- A snapshot of nothing at the last address there is. -/
def emptyFile : StoredFile where
  rawName := [0x42, 0x43]
  padding := Petscii.shiftedSpace
  mark := 3
  typeCode := 0
  load := 0xFFFF
  content := []
  name_fits := by decide
  padding_known := by decide
  mark_ne := by decide
  content_fits := by decide

/-- Both files, with free slots around the first of them and no count of files. -/
def mixedTape : Layout where
  title := List.replicate 29 0
  version := 0x0100
  used := 0
  label := List.replicate 26 0x20
  slots := [.free (List.replicate 31 0xFF) rfl, .taken shortFile, .free (List.replicate 31 0) rfl,
    .taken emptyFile]
  slack := [0]
  trailer := [0xAA, 0xBB]
  title_fills := by decide
  label_fills := by decide
  used_right := .inr rfl
  slots_few := by decide
  addressable := by decide

/-- A tape without a count of files still shows both of them. -/
theorem records_read_back_of_mixed :
    ∃ tape entry, Tape.open mixedTape.container = .ok tape ∧ tape.usedEntries = 0 ∧
      tape.listing.length = 2 ∧ tape.listing[0]? = some entry ∧ entry.rawName = [0x41] ∧
      entry.size = 5 ∧
      ByteSource.YieldsExactly (tape.openEntry entry, Signals.quiet) [0x01, 0x08, 1, 2, 3] := by
  obtain ⟨tape, opened, _, length, files⟩ := records_read_back.2 mixedTape
  obtain ⟨_, used, _⟩ := records_read_back.1 _ tape opened
  obtain ⟨entry, here, _, _, _, size, name, yields⟩ := files 0 shortFile rfl
  have plain : ∀ padding ∈ paddings, shortFile.rawName.getLast? ≠ some padding := by
    simp [paddings, shortFile, Petscii.shiftedSpace]
  refine ⟨tape, entry, opened, ?_, length, here, name plain, size, yields .quiet⟩
  rw [used]
  decide +kernel

end RetroMedia.Tape
