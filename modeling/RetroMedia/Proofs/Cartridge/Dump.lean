import RetroMedia.Proofs.Disk.SectorImage
import RetroMedia.Proofs.Image.Records

/-! Cartridges and the dump of their memory. The directory ends at the latest with the dump, but the
data of an entry ends with the container: what stands behind the dump can be read through it. Main
statement: an entry stays inside the dump just when its stored size does, or when there is nothing
behind the dump. -/
namespace RetroMedia.Cartridge

/-- Where the record of a slot begins inside the dump. -/
def slotOffset (slot : Nat) : Nat := directoryOffset + slot * recordSize

/-- Does the dump hold all of a slot? -/
def holds (cartridge : Cartridge) (slot : Nat) : Bool :=
  slotOffset slot + recordSize ≤ cartridge.flashLength

def recordAt (cartridge : Cartridge) (slot : Nat) : Bytes :=
  cartridge.container.readAt (flashOffset + slotOffset slot) recordSize

def isEnd (record : Bytes) : Bool := record.byte 0x10 == endType

def isDeleted (record : Bytes) : Bool := record.byte 0x10 == deletedType

/-- The records in use among the next `count`: those before the first slot that the dump does not
hold and before the first end mark, without the deleted ones. -/
def recordsFrom (cartridge : Cartridge) (slot count : Nat) : List Bytes :=
  ((((List.range' slot count).takeWhile cartridge.holds).map cartridge.recordAt).takeWhile
    fun record => !isEnd record).filter fun record => !isDeleted record

/-- The records that the directory lists. -/
def listed (cartridge : Cartridge) : List Bytes := cartridge.recordsFrom 0 directoryRecords

def listing (cartridge : Cartridge) : List Entry :=
  numberedFrom cartridge.readRecord 1 cartridge.listed

variable {container : Container} {cartridge : Cartridge}

theorem of_open (opened : Cartridge.open container = .ok cartridge) :
    cartridge.container = container ∧
      cartridge.flashLength
        = min ((container.readAt 0 flashOffset).le32 0xD4) (container.size - flashOffset) := by
  unfold Cartridge.open at opened
  unfold Container.slice at opened
  split at opened
  · dsimp only [bind, Except.bind] at opened
    split at opened
    · cases opened
    · cases opened
      exact ⟨rfl, rfl⟩
  · cases opened

section Table

variable (inside : cartridge.flashLength ≤ cartridge.container.size - flashOffset)
include inside

theorem record?_of_holds {slot : Nat} (room : cartridge.holds slot = true) :
    cartridge.record? slot = some (cartridge.recordAt slot) := by
  have fits : slotOffset slot + recordSize ≤ cartridge.flashLength := of_decide_eq_true room
  have read : cartridge.container.slice (flashOffset + slotOffset slot) recordSize
      = .ok (cartridge.recordAt slot) := by
    apply if_pos
    have some : 0 < recordSize := by decide
    omega
  exact (if_neg (Nat.not_lt.2 fits)).trans (congrArg Except.toOption read)

omit inside in
theorem record?_of_not_holds {slot : Nat} (missing : ¬ cartridge.holds slot = true) :
    cartridge.record? slot = none := by
  have beyond : ¬ slotOffset slot + recordSize ≤ cartridge.flashLength :=
    fun fits => missing (decide_eq_true fits)
  exact if_pos (Nat.lt_of_not_le beyond)

theorem listRecords_of_holds {slot : Nat} (room : cartridge.holds slot = true)
    (count index : Nat) :
    cartridge.listRecords (count + 1) slot index =
      if isEnd (cartridge.recordAt slot) then pure []
      else if isDeleted (cartridge.recordAt slot) then
        cartridge.listRecords count (slot + 1) index
      else Progress.tick >>= fun _ =>
        cartridge.listRecords count (slot + 1) (index + 1) >>= fun more =>
          pure (cartridge.readRecord index (cartridge.recordAt slot) :: more) := by
  rw [listRecords, record?_of_holds inside room]
  rfl

omit inside in
theorem listRecords_of_not_holds {slot : Nat} (missing : ¬ cartridge.holds slot = true)
    (count index : Nat) : cartridge.listRecords (count + 1) slot index = pure [] := by
  rw [listRecords, record?_of_not_holds missing]

/-- The table takes a step for each record that it lists. -/
theorem listRecords_eq_counted (count slot index : Nat) :
    cartridge.listRecords count slot index
      = Walk.counted
          (.ok (numberedFrom cartridge.readRecord index (cartridge.recordsFrom slot count)))
          (cartridge.recordsFrom slot count).length := by
  induction count generalizing slot index with
  | zero => rfl
  | succ count ih =>
    rw [recordsFrom, List.range'_succ, List.takeWhile_cons]
    by_cases room : cartridge.holds slot = true
    · rw [listRecords_of_holds inside room, if_pos room, List.map_cons, List.takeWhile_cons]
      by_cases last : isEnd (cartridge.recordAt slot) = true
      · rw [if_pos last, last]
        rfl
      · rw [if_neg last, Bool.eq_false_iff.2 last, Bool.not_false, if_pos rfl]
        by_cases dropped : isDeleted (cartridge.recordAt slot) = true
        · rw [if_pos dropped, List.filter_cons_of_neg (by simpa using dropped)]
          exact ih (slot + 1) index
        · rw [if_neg dropped, List.filter_cons_of_pos (by simpa using dropped), ih]
          exact counted_numberedFrom_cons
    · rw [listRecords_of_not_holds room, if_neg room]
      rfl

theorem entries_eq_counted :
    cartridge.entries = Walk.counted (.ok cartridge.listing) cartridge.listing.length := by
  rw [entries, listRecords_eq_counted inside, listing, length_numberedFrom]
  rfl

end Table

/-- The data of an entry is the part of its stored size that the container has. -/
theorem dataSize_readRecord (index : Nat) (record : Bytes) :
    (cartridge.readRecord index record).dataSize
      = min (record.le24 0x13)
          (cartridge.container.size - (flashOffset + record.le16 0x11 * pageSize)) :=
  Nat.add_sub_cancel _ _

theorem offset_readRecord (index : Nat) (record : Bytes) :
    (cartridge.readRecord index record).offset = flashOffset + record.le16 0x11 * pageSize := rfl

/-- Programs alone are served with a load address. -/
theorem addressBytes_readRecord (index : Nat) (record : Bytes) :
    (cartridge.readRecord index record).addressBytes
      = if record.byte 0x10 = programType then Bytes.ofWord16 (record.le16 0x16) else [] := by
  unfold Entry.addressBytes readRecord
  dsimp only
  by_cases program : record.byte 0x10 = programType
  · rw [if_pos program, if_pos (beq_iff_eq.2 program)]
  · rw [if_neg program, if_neg fun same => program (beq_iff_eq.1 same)]

/-- The reader of an entry yields its load address and the container's bytes from its page on. -/
theorem openEntry_yields (cartridge : Cartridge) (index : Nat) (record : Bytes)
    (signals : Signals) :
    let entry := cartridge.readRecord index record
    ByteSource.YieldsExactly (cartridge.openEntry entry, signals)
      (entry.addressBytes ++ cartridge.container.readAt entry.offset entry.dataSize) := by
  intro entry
  apply Entry.range_yields
  rw [dataSize_readRecord]
  exact Nat.min_le_right _ _

/-- Data ends with the dump at the latest if its stored size does, or if the container ends
there. -/
theorem data_within_dump_iff {page stored : Nat} (flash size : Nat)
    (some : min stored (size - (flashOffset + page)) ≠ 0) (inside : flash ≤ size - flashOffset) :
    flashOffset + page + min stored (size - (flashOffset + page)) ≤ flashOffset + flash ↔
      page + stored ≤ flash ∨ flashOffset + flash = size := by
  omega

/-- A cartridge lists exactly the records before the first end mark and the end of the dump, in
order and without the deleted ones. Each entry is read as its load address and the bytes of the
container from its page on. These bytes are all part of the dump if and only if the stored size of
the entry ends inside the dump or the container ends with it. -/
theorem listed_within_dump_iff (opened : Cartridge.open container = .ok cartridge) :
    cartridge.flashLength
      = min ((container.readAt 0 flashOffset).le32 0xD4) (container.size - flashOffset) ∧
    cartridge.entries = Walk.counted (.ok cartridge.listing) cartridge.listing.length ∧
    cartridge.listing.length = cartridge.listed.length ∧
    ∀ place record, cartridge.listed[place]? = some record →
      ∃ entry, cartridge.listing[place]? = some entry ∧ entry.index = place + 1 ∧
        entry.offset = flashOffset + record.le16 0x11 * pageSize ∧
        entry.dataSize = min (record.le24 0x13) (container.size - entry.offset) ∧
        entry.addressBytes = (if record.byte 0x10 = programType then
          Bytes.ofWord16 (record.le16 0x16) else []) ∧
        (∀ signals : Signals, ByteSource.YieldsExactly (cartridge.openEntry entry, signals)
          (entry.addressBytes ++ container.readAt entry.offset entry.dataSize)) ∧
        (entry.dataSize ≠ 0 →
          (entry.offset + entry.dataSize ≤ flashOffset + cartridge.flashLength ↔
            record.le16 0x11 * pageSize + record.le24 0x13 ≤ cartridge.flashLength ∨
              flashOffset + cartridge.flashLength = container.size)) := by
  obtain ⟨rfl, length⟩ := of_open opened
  have inside : cartridge.flashLength ≤ cartridge.container.size - flashOffset :=
    length ▸ Nat.min_le_right _ _
  refine ⟨length, entries_eq_counted inside, length_numberedFrom, ?_⟩
  intro place record here
  refine ⟨cartridge.readRecord (1 + place) record, getElem?_numberedFrom here, Nat.add_comm _ _,
    offset_readRecord _ record, dataSize_readRecord _ record, addressBytes_readRecord _ record,
    cartridge.openEntry_yields _ record, ?_⟩
  intro some
  rw [dataSize_readRecord] at some ⊢
  exact data_within_dump_iff _ _ some inside

/-- The record of a file whose data begins on the last page of `ofShortDump`. -/
def shortRecord (name size : UInt8) : Bytes :=
  name :: List.replicate 15 0 ++ [dataType, 0x11, 0, size, 0, 0] ++ List.replicate 10 0

/-- A cartridge with two bytes behind its dump. Its two files begin on the same page: the first ends
with the dump, and the second is two bytes longer. -/
def ofShortDump : Container :=
  .ofBytes (signature ++ [1, 0] ++ List.replicate 0xC2 0 ++ [0x03, 0x11, 0, 0]
    ++ List.replicate 0x1000 0xFF ++ shortRecord 0x41 3 ++ shortRecord 0x42 5
    ++ List.replicate 0xC0 0xFF ++ [1, 2, 3] ++ [4, 5])

theorem open_ofShortDump : ∃ cartridge, Cartridge.open ofShortDump = .ok cartridge ∧
    cartridge.flashLength = 0x1103 ∧
    cartridge.listed = [shortRecord 0x41 3, shortRecord 0x42 5] := by
  have facts : ((Cartridge.open ofShortDump).toOption.map
      fun cartridge => (cartridge.flashLength, cartridge.listed))
        = some (0x1103, [shortRecord 0x41 3, shortRecord 0x42 5]) := by
    -- As slices of an array, each record would be looked up byte by byte.
    unfold listed recordsFrom recordAt Cartridge.open Container.slice
    simp only [Container.readAt_eq]
    decide +kernel
  cases opened : Cartridge.open ofShortDump with
  | error error =>
    rw [opened] at facts
    cases facts
  | ok cartridge =>
    rw [opened] at facts
    have found := Prod.mk.inj (Option.some.inj facts)
    exact ⟨cartridge, rfl, found.1, found.2⟩

theorem size_ofShortDump : ofShortDump.size = flashOffset + 0x1105 := by
  decide +kernel

theorem readAt_ofShortDump (count : Nat) :
    ofShortDump.readAt (flashOffset + 0x11 * pageSize) count = [1, 2, 3, 4, 5].take count := by
  have rest : ofShortDump.toBytes.drop (flashOffset + 0x11 * pageSize) = [1, 2, 3, 4, 5] := by
    decide +kernel
  rw [Container.readAt_eq, rest]

theorem page_shortRecord (name size : UInt8) : (shortRecord name size).le16 0x11 = 0x11 := rfl

theorem type_shortRecord (name size : UInt8) : (shortRecord name size).byte 0x10 ≠ programType := by
  change dataType ≠ programType
  decide

/-- The first file of the cartridge ends with its dump, and is read as what is there. -/
theorem listed_within_dump_iff_of_short :
    ∃ cartridge entry, Cartridge.open ofShortDump = .ok cartridge ∧
      cartridge.listing[0]? = some entry ∧ entry.dataSize = 3 ∧
      entry.offset + entry.dataSize ≤ flashOffset + cartridge.flashLength ∧
      ByteSource.YieldsExactly (cartridge.openEntry entry, Signals.quiet) [1, 2, 3] := by
  obtain ⟨cartridge, opened, length, table⟩ := open_ofShortDump
  obtain ⟨_, _, _, each⟩ := listed_within_dump_iff opened
  obtain ⟨entry, here, _, offset, size, address, yields, within⟩ :=
    each 0 (shortRecord 0x41 3) (by rw [table]; rfl)
  have three : entry.dataSize = 3 := by
    rw [size, offset, size_ofShortDump]
    decide
  refine ⟨cartridge, entry, opened, here, three, ?_, ?_⟩
  · rw [within (by rw [three]; decide), length]
    exact .inl (by decide)
  · have read := yields .quiet
    rw [three, offset, address, if_neg (type_shortRecord _ _), page_shortRecord,
      readAt_ofShortDump] at read
    exact read

/-- The second file of the cartridge is read as two bytes that stand behind the dump. -/
theorem entry_past_dump :
    ∃ cartridge table after entry, Cartridge.open ofShortDump = .ok cartridge ∧
      cartridge.entries {} = .ok table after ∧ entry ∈ table ∧ entry.dataSize = 5 ∧
      flashOffset + cartridge.flashLength < entry.offset + entry.dataSize ∧
      ByteSource.YieldsExactly (cartridge.openEntry entry, Signals.quiet) [1, 2, 3, 4, 5] := by
  obtain ⟨cartridge, opened, length, table⟩ := open_ofShortDump
  obtain ⟨same, _⟩ := of_open opened
  have inside : cartridge.flashLength ≤ cartridge.container.size - flashOffset := by
    rw [length, same, size_ofShortDump]
    decide
  have listing : cartridge.listing = [cartridge.readRecord 1 (shortRecord 0x41 3),
      cartridge.readRecord 2 (shortRecord 0x42 5)] := by
    rw [Cartridge.listing, table]
    rfl
  have five : (cartridge.readRecord 2 (shortRecord 0x42 5)).dataSize = 5 := by
    rw [dataSize_readRecord, same, size_ofShortDump]
    decide
  obtain ⟨after, run⟩ : ∃ after, cartridge.entries {} = .ok cartridge.listing after := by
    rw [entries_eq_counted inside, listing]
    exact ⟨_, rfl⟩
  have member : cartridge.readRecord 2 (shortRecord 0x42 5) ∈ cartridge.listing := by
    rw [listing]
    exact List.mem_cons_of_mem _ List.mem_cons_self
  refine ⟨cartridge, _, after, _, opened, run, member, five, ?_, ?_⟩
  · rw [length, five, offset_readRecord, page_shortRecord]
    decide
  · have read := cartridge.openEntry_yields 2 (shortRecord 0x42 5) .quiet
    dsimp only at read
    rw [five, addressBytes_readRecord, if_neg (type_shortRecord _ _), same, offset_readRecord,
      page_shortRecord, readAt_ofShortDump] at read
    exact read

end RetroMedia.Cartridge
