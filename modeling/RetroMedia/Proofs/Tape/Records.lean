import RetroMedia.Proofs.Image.Records

/-! The records of a tape. Every slot that either of the two counts of the header speaks of and that
the container holds is looked at, and each record in use makes an entry: its load address and a piece
of the container that ends where the record says, or where the container or the memory does. -/
namespace RetroMedia.Tape

/-- Where the record of a slot begins. -/
def slotOffset (slot : Nat) : Nat := headerSize + slot * recordSize

/-- Does the container hold all of a slot? -/
def holds (tape : Tape) (slot : Nat) : Bool :=
  slotOffset slot + recordSize ≤ tape.container.size

def recordAt (tape : Tape) (slot : Nat) : Bytes :=
  tape.container.readAt (slotOffset slot) recordSize

def inUse (record : Bytes) : Bool := record.byte 0 != 0

/-- The records in use among the next `count`. -/
def recordsFrom (tape : Tape) (slot count : Nat) : List Bytes :=
  (((List.range' slot count).filter tape.holds).map tape.recordAt).filter inUse

/-- The records that the table lists. -/
def listed (tape : Tape) : List Bytes :=
  tape.recordsFrom 0 (max tape.usedEntries tape.maxEntries)

def listing (tape : Tape) : List Entry := numberedFrom tape.readRecord 1 tape.listed

variable {container : Container} {tape : Tape}

/-- The header of a container makes the tape. -/
theorem eq_of_open (opened : Tape.open container = .ok tape) :
    let header := container.readAt 0 headerSize
    tape = {
      container
      version := header.le16 0x20
      maxEntries := header.le16 0x22
      usedEntries := header.le16 0x24
      label := Petscii.toText (trimName (header.field 0x28 24)) } := by
  unfold Tape.open Container.slice at opened
  split at opened
  · dsimp only [bind, Except.bind] at opened
    split at opened
    · cases opened
    · cases opened
      rfl
  · cases opened

theorem of_open (opened : Tape.open container = .ok tape) :
    tape.container = container ∧
      tape.maxEntries = (container.readAt 0 headerSize).le16 0x22 ∧
      tape.usedEntries = (container.readAt 0 headerSize).le16 0x24 := by
  rw [eq_of_open opened]
  exact ⟨rfl, rfl, rfl⟩

theorem recordCount_eq (tape : Tape) :
    tape.recordCount = max tape.usedEntries tape.maxEntries := by
  unfold recordCount
  split
  · rename_i none
    rw [none, Nat.zero_max]
  · rfl

theorem holds_iff {slot : Nat} :
    tape.holds slot = true ↔ slotOffset slot + recordSize ≤ tape.container.size :=
  decide_eq_true_iff

theorem slice_of_holds {slot : Nat} (room : tape.holds slot = true) :
    tape.container.slice (slotOffset slot) recordSize = .ok (tape.recordAt slot) :=
  if_pos (holds_iff.1 room)

theorem slice_of_not_holds {slot : Nat} (missing : ¬ tape.holds slot = true) :
    tape.container.slice (slotOffset slot) recordSize = .error .shortRead :=
  if_neg fun fits => missing (holds_iff.2 fits)

/-- Behind a slot that the container does not hold there is no other. -/
theorem not_holds_of_le {slot slot' : Nat} (missing : ¬ tape.holds slot = true)
    (behind : slot ≤ slot') : ¬ tape.holds slot' = true := by
  rw [holds_iff, slotOffset] at missing ⊢
  have further := Nat.mul_le_mul_right recordSize behind
  omega

theorem recordsFrom_of_not_holds {slot : Nat} (missing : ¬ tape.holds slot = true) (count : Nat) :
    tape.recordsFrom slot count = [] := by
  have none : (List.range' slot count).filter tape.holds = [] := by
    rw [List.filter_eq_nil_iff]
    intro slot' member
    exact not_holds_of_le missing (List.mem_range'_1.1 member).1
  rw [recordsFrom, none]
  rfl

theorem listRecords_of_holds {slot : Nat} (room : tape.holds slot = true) (count index : Nat) :
    tape.listRecords (count + 1) slot index =
      if inUse (tape.recordAt slot) then Progress.tick >>= fun _ =>
        tape.listRecords count (slot + 1) (index + 1) >>= fun more =>
          pure (tape.readRecord index (tape.recordAt slot) :: more)
      else tape.listRecords count (slot + 1) index := by
  have read := slice_of_holds room
  unfold slotOffset at read
  rw [listRecords, read]
  dsimp only
  by_cases free : ((tape.recordAt slot).byte 0 == 0) = true
  · have unused : ¬ inUse (tape.recordAt slot) = true := by simpa [inUse] using free
    rw [if_pos free, if_neg unused]
  · have used : inUse (tape.recordAt slot) = true := by simpa [inUse] using free
    rw [if_neg free, if_pos used]

theorem listRecords_of_not_holds {slot : Nat} (missing : ¬ tape.holds slot = true)
    (count index : Nat) : tape.listRecords (count + 1) slot index = pure [] := by
  have read := slice_of_not_holds missing
  unfold slotOffset at read
  rw [listRecords, read]

/-- The table takes a step for each record in use. -/
theorem listRecords_eq_counted (tape : Tape) (count slot index : Nat) :
    tape.listRecords count slot index
      = Walk.counted (.ok (numberedFrom tape.readRecord index (tape.recordsFrom slot count)))
          (tape.recordsFrom slot count).length := by
  induction count generalizing slot index with
  | zero => rfl
  | succ count ih =>
    by_cases room : tape.holds slot = true
    · rw [listRecords_of_holds room, recordsFrom, List.range'_succ, List.filter_cons_of_pos room,
        List.map_cons]
      by_cases used : inUse (tape.recordAt slot) = true
      · rw [if_pos used, List.filter_cons_of_pos used, ih]
        exact counted_numberedFrom_cons
      · rw [if_neg used, List.filter_cons_of_neg used]
        exact ih (slot + 1) index
    · rw [listRecords_of_not_holds room, recordsFrom_of_not_holds room]
      rfl

theorem entries_eq_counted (tape : Tape) :
    tape.entries = Walk.counted (.ok tape.listing) tape.listing.length := by
  rw [entries, recordCount_eq, listRecords_eq_counted, listing, length_numberedFrom]
  rfl

/-- The piece of the container that a record speaks of. -/
theorem dataSize_eq (start finish available : Nat) :
    dataSize start finish available =
      if start ≤ finish ∧ finish - start ≤ available then finish - start
      else min available (lastAddress - start) := by
  unfold dataSize
  split <;> split <;> omega

/-- The bytes that a record speaks of, as far as the container and the memory reach. -/
def storedSize (container : Container) (record : Bytes) : Nat :=
  let start := record.le16 0x02
  let finish := record.le16 0x04
  let available := container.size - record.le32 0x08
  if start ≤ finish ∧ finish - start ≤ available then finish - start
  else min available (lastAddress - start)

theorem storedSize_le (container : Container) (record : Bytes) :
    storedSize container record ≤ container.size - record.le32 0x08 := by
  unfold storedSize
  dsimp only
  split <;> omega

theorem size_readRecord (index : Nat) (record : Bytes) :
    (tape.readRecord index record).size = storedSize tape.container record + 2 :=
  congrArg (· + 2) (dataSize_eq _ _ _)

theorem loadAddress_readRecord (index : Nat) (record : Bytes) :
    (tape.readRecord index record).loadAddress = some (record.le16 0x02) := rfl

theorem typeCode_readRecord (index : Nat) (record : Bytes) :
    (tape.readRecord index record).typeCode = record.byte 0x01 := rfl

theorem rawName_readRecord (index : Nat) (record : Bytes) :
    (tape.readRecord index record).rawName = trimName (record.field 0x10 16) := rfl

/-- The reader of an entry yields its load address and the bytes of the container at its offset. -/
theorem openEntry_yields (tape : Tape) (index : Nat) (record : Bytes) (signals : Signals) :
    ByteSource.YieldsExactly (tape.openEntry (tape.readRecord index record), signals)
      (Bytes.ofWord16 (record.le16 0x02)
        ++ tape.container.readAt (record.le32 0x08) (storedSize tape.container record)) := by
  have size : (tape.readRecord index record).dataSize = storedSize tape.container record := by
    rw [Entry.dataSize, size_readRecord]
    exact Nat.add_sub_cancel _ _
  rw [← size]
  apply Entry.range_yields
  rw [size]
  exact storedSize_le _ record

end RetroMedia.Tape
