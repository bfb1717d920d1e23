import Mathlib
import RetroMedia.Proofs.Lynx.Layout

/-! Directories of archives that nobody vouches for. The lines of a directory state numbers of any size;
an archive that can be listed has its files in a row, at the places and of the sizes that these numbers
come to, and one whose numbers come to more than a word holds is not listed. -/
namespace RetroMedia

/-- The number that a text stands for, however large it is. -/
def Text.number? (text : String) : Option Nat :=
  digitsValue? (match text.toList with
    | '+' :: digits => digits
    | digits => digits)

theorem Text.parseWord?_eq_some_iff {text : String} {value : Nat} :
    parseWord? text = some value ↔ number? text = some value ∧ value < UInt64.size := by
  change ((number? text).bind fun value => if value < UInt64.size then some value else none) = _ ↔ _
  rw [Option.bind_eq_some_iff]
  constructor
  · rintro ⟨stated, found, kept⟩
    split at kept
    · rename_i small
      cases kept
      exact ⟨found, small⟩
    · cases kept
  · rintro ⟨found, small⟩
    exact ⟨value, found, if_pos small⟩

namespace Lynx

/-- The lines of one file in the directory, with a reader for those that hold numbers. -/
def recordOf (number : Lines Nat) : Lines Record := do
  let rawName := Petscii.trimPadding (← line) Petscii.shiftedSpace
  let blocks ← number
  let typeCode ← typeLine
  let lastUsed ← number
  if typeCode == 4 then
    let recordSize ← number
    return { rawName, blocks, typeCode, lastUsed, recordSize := some (recordSize % UInt16.size) }
  else return { rawName, blocks, typeCode, lastUsed, recordSize := none }

theorem readRecord_eq : readRecord = recordOf (numberLine .invalidLayout) := rfl

/-- The next line as a number of any size. -/
def statedNumber : Lines Nat := do
  match Text.number? (Text.trim (← textLine)) with
  | some value => return value
  | none => throw .invalidLayout

/-- The lines of one file as they stand, whatever its numbers come to. -/
def statedRecord : Lines Record := recordOf statedNumber

/-- The lines of the next `count` files. -/
def statedRecords : Nat → Cursor → Option (List Record)
  | 0, _ => some []
  | count + 1, cursor =>
    match statedRecord cursor with
    | .ok record after => (statedRecords count after).map (record :: ·)
    | .error _ _ => none

/-- Wherever the first program succeeds, the second one comes to the same. -/
def Vouches {α : Type} (first second : Lines α) : Prop :=
  ∀ cursor value after, first cursor = .ok value after → second cursor = .ok value after

section Vouches

variable {α β : Type}

theorem vouches_self (program : Lines α) : Vouches program program := fun _ _ _ step => step

theorem Vouches.bind {first second : Lines α} {next next' : α → Lines β}
    (early : Vouches first second) (late : ∀ value, Vouches (next value) (next' value)) :
    Vouches (first >>= next) (second >>= next') := by
  intro cursor result after step
  obtain ⟨value, between, begun, ended⟩ := ok_of_run_bind step
  rw [run_of_ok (early cursor value between begun)]
  exact late value between result after ended

end Vouches

theorem vouches_numberLine : Vouches (numberLine .invalidLayout) statedNumber := by
  refine (vouches_self textLine).bind fun text => ?_
  intro cursor value after step
  cases parsed : Text.parseWord? (Text.trim text) with
  | none =>
    rw [parsed] at step
    cases step
  | some word =>
    rw [parsed] at step
    rwa [(Text.parseWord?_eq_some_iff.1 parsed).1]

/-- A record that can be read is the one that is stated. -/
theorem vouches_readRecord : Vouches readRecord statedRecord := by
  rw [readRecord_eq, statedRecord]
  refine (vouches_self line).bind fun rawName => ?_
  refine vouches_numberLine.bind fun blocks => ?_
  refine (vouches_self typeLine).bind fun typeCode => ?_
  refine vouches_numberLine.bind fun lastUsed => ?_
  split
  · exact vouches_numberLine.bind fun recordSize => vouches_self _
  · exact vouches_self _

/-- The bytes of a file that its numbers come to. -/
def Record.stored (record : Record) : Nat := (record.blocks - 1) * blockSize + record.lastUsed

/-- The bytes of the blocks that the file takes. -/
def Record.padded (record : Record) : Nat := blocksFor record.stored * blockSize

theorem Record.stored_le_padded (record : Record) : record.stored ≤ record.padded := by
  simp only [padded, blocksFor, blockSize]
  omega

/-- Where a file begins if the files lie in a row from `start` on: behind the blocks of those before
it. Behind the last file there is such a place, too. -/
def offsetAt (start : Nat) (records : List Record) (place : Nat) : Nat :=
  start + ((records.take place).map Record.padded).sum

section Offsets

variable {start place place' : Nat} {records : List Record} {record : Record}

theorem offsetAt_zero : offsetAt start records 0 = start := rfl

theorem offsetAt_cons (next : Record) :
    offsetAt start (next :: records) (place + 1) = offsetAt (start + next.padded) records place := by
  simp only [offsetAt, List.take_succ_cons, List.map_cons, List.sum_cons]
  rw [Nat.add_assoc]

theorem offsetAt_succ (here : records[place]? = some record) :
    offsetAt start records (place + 1) = offsetAt start records place + record.padded := by
  rw [offsetAt, offsetAt, List.take_add_one, here, List.map_append, List.sum_append, Option.toList_some,
    List.map_singleton, List.sum_singleton, Nat.add_assoc]

theorem offsetAt_mono (before : place ≤ place') :
    offsetAt start records place ≤ offsetAt start records place' := by
  obtain ⟨more, rfl⟩ := Nat.exists_eq_add_of_le before
  rw [offsetAt, offsetAt, List.take_add, List.map_append, List.sum_append]
  exact Nat.add_le_add_left (Nat.le_add_right ..) _

/-- Whatever a file holds ends before the files behind it begin. -/
theorem offsetAt_add_stored_le (here : records[place]? = some record) (before : place < place') :
    offsetAt start records place + record.stored ≤ offsetAt start records place' := by
  calc offsetAt start records place + record.stored
    _ ≤ offsetAt start records place + record.padded := Nat.add_le_add_left record.stored_le_padded _
    _ = offsetAt start records (place + 1) := (offsetAt_succ here).symm
    _ ≤ offsetAt start records place' := offsetAt_mono before

end Offsets

theorem word?_eq_some_iff {value word : Nat} :
    word? value = some word ↔ word = value ∧ word < UInt64.size := by
  rw [word?, Option.ite_none_right_eq_some, Option.some.injEq]
  constructor
  · rintro ⟨small, rfl⟩
    exact ⟨rfl, small⟩
  · rintro ⟨rfl, small⟩
    exact ⟨small, rfl⟩

theorem storedSize_eq_some {record : Record} {size : Nat}
    (fits : storedSize record.blocks record.lastUsed = some size) :
    size = record.stored ∧ size < UInt64.size := by
  rw [storedSize, Option.bind_eq_bind, Option.bind_eq_some_iff] at fits
  obtain ⟨full, whole, sum⟩ := fits
  obtain ⟨rfl, _⟩ := word?_eq_some_iff.1 whole
  obtain ⟨rfl, small⟩ := word?_eq_some_iff.1 sum
  exact ⟨rfl, small⟩

/-- Where the next file begins, if there is a word for it. -/
theorem next_eq_some {size offset next : Nat}
    (fits : (blockAlign size).bind (fun aligned => word? (offset + aligned)) = some next) :
    next = offset + blocksFor size * blockSize ∧ next < UInt64.size := by
  obtain ⟨aligned, rounded, sum⟩ := Option.bind_eq_some_iff.1 fits
  rw [blockAlign, Option.bind_eq_bind, Option.bind_eq_some_iff] at rounded
  obtain ⟨raised, above, whole⟩ := rounded
  obtain ⟨rfl, _⟩ := word?_eq_some_iff.1 above
  obtain ⟨rfl, _⟩ := word?_eq_some_iff.1 whole
  obtain ⟨rfl, small⟩ := word?_eq_some_iff.1 sum
  exact ⟨rfl, small⟩

/-- The sizes of all files, the places where they begin, and the one behind the last are words. -/
def Addressable (start : Nat) (records : List Record) : Prop :=
  (∀ record ∈ records, record.stored < UInt64.size) ∧
    ∀ place ≤ records.length, offsetAt start records place < UInt64.size

theorem addressable_nil {start : Nat} (begins : start < UInt64.size) : Addressable start [] := by
  refine ⟨nofun, fun place within => ?_⟩
  rw [Nat.le_zero.1 within]
  exact begins

theorem addressable_cons {start : Nat} {record : Record} {records : List Record}
    (begins : start < UInt64.size) (fits : record.stored < UInt64.size)
    (rest : Addressable (start + record.padded) records) : Addressable start (record :: records) := by
  refine ⟨?_, ?_⟩
  · intro other member
    rcases List.mem_cons.1 member with rfl | later
    · exact fits
    · exact rest.1 other later
  · intro place within
    cases place with
    | zero => exact begins
    | succ place =>
      rw [offsetAt_cons]
      exact rest.2 place (Nat.le_of_succ_le_succ within)

namespace Archive

variable (archive : Archive)

/-- The entries of files that lie in a row. -/
def inRow (index start : Nat) (records : List Record) : List Entry :=
  records.mapIdx fun place record =>
    archive.entryOf (index + place) (offsetAt start records place) record record.stored

theorem inRow_cons (index start : Nat) (record : Record) (records : List Record) :
    archive.inRow index start (record :: records)
      = archive.entryOf index start record record.stored
        :: archive.inRow (index + 1) (start + record.padded) records := by
  rw [inRow, List.mapIdx_cons, Nat.add_zero, offsetAt_zero, inRow]
  congr 2
  funext place record'
  rw [offsetAt_cons, Nat.add_assoc, Nat.add_comm 1]

/-- A directory that can be listed states its records, and the files lie in a row. -/
theorem listRecords_eq_ok {count index start : Nat} {cursor : Cursor} {progress after : Progress}
    {table : List Entry} (begins : start < UInt64.size)
    (listed : archive.listRecords count index start cursor progress = .ok table after) :
    ∃ records, statedRecords count cursor = some records ∧ records.length = count ∧
      table = archive.inRow index start records ∧ Addressable start records := by
  induction count generalizing index start cursor progress after table with
  | zero =>
    cases listed
    exact ⟨[], rfl, rfl, rfl, addressable_nil begins⟩
  | succ count ih =>
    obtain ⟨_, counted, _, listed⟩ := ok_of_run_bind listed
    cases step : readRecord cursor with
    | error error behind =>
      rw [step] at listed
      cases listed
    | ok record behind =>
      simp only [step] at listed
      have stated := vouches_readRecord _ _ _ step
      cases size : storedSize record.blocks record.lastUsed with
      | none =>
        simp only [size] at listed
        cases listed
      | some stored =>
        obtain ⟨rfl, held⟩ := storedSize_eq_some size
        simp only [size] at listed
        cases following : (blockAlign record.stored).bind fun aligned => word? (start + aligned) with
        | none =>
          simp only [following] at listed
          cases listed
        | some next =>
          obtain ⟨rfl, within⟩ := next_eq_some following
          simp only [following] at listed
          obtain ⟨more, _, rest, finish⟩ := ok_of_run_bind listed
          cases finish
          obtain ⟨records, later, length, rfl, addressable⟩ := ih within rest
          refine ⟨record :: records, ?_, by rw [List.length_cons, length],
            (archive.inRow_cons index start record records).symm,
            addressable_cons begins held addressable⟩
          rw [statedRecords, stated]
          exact congrArg (Option.map (record :: ·)) later

/-- How the entries of an archive lie that may be from anybody. -/
structure LaidOut (records : List Record) (table : List Entry) : Prop where
  each : table.length = records.length
  first : ∀ entry : Entry, table[0]? = some entry → entry.offset = archive.header.dataStart
  next : ∀ (place : Nat) (entry following : Entry) (record : Record), table[place]? = some entry →
    table[place + 1]? = some following → records[place]? = some record →
    following.offset = entry.offset + blocksFor record.stored * blockSize
  size : ∀ (place : Nat) (entry : Entry) (record : Record), table[place]? = some entry →
    records[place]? = some record →
    entry.size = min record.stored (archive.container.size - entry.offset)
  inside : ∀ entry ∈ table, ∀ position, entry.offset ≤ position →
    position < entry.offset + entry.size → position < archive.container.size
  apart : table.Pairwise fun earlier later => earlier.offset + earlier.size ≤ later.offset
  cut : ∀ (place : Nat) (entry : Entry) (record : Record), table[place]? = some entry →
    records[place]? = some record → entry.size < record.stored →
    ∀ (place' : Nat) (later : Entry), place < place' → table[place']? = some later → later.size = 0
  addressable : Addressable archive.header.dataStart records

theorem getElem?_inRow {index start place : Nat} {records : List Record} {entry : Entry}
    (here : (archive.inRow index start records)[place]? = some entry) :
    ∃ record, records[place]? = some record ∧ entry.offset = offsetAt start records place ∧
      entry.size = min record.stored (archive.container.size - offsetAt start records place) := by
  rw [inRow, List.getElem?_mapIdx, Option.map_eq_some_iff] at here
  obtain ⟨record, found, rfl⟩ := here
  exact ⟨record, found, rfl, rfl⟩

/-- What lies in a row is laid out as its records say. -/
theorem laidOut_inRow {records : List Record}
    (addressable : Addressable archive.header.dataStart records) :
    archive.LaidOut records (archive.inRow 1 archive.header.dataStart records) where
  each := List.length_mapIdx
  first entry here := by
    obtain ⟨_, _, offset, _⟩ := archive.getElem?_inRow here
    exact offset
  next place entry following record here there found := by
    obtain ⟨record', found', offset, _⟩ := archive.getElem?_inRow here
    obtain ⟨_, _, offset', _⟩ := archive.getElem?_inRow there
    rw [offset, offset', offsetAt_succ found, Record.padded]
  size place entry record here found := by
    obtain ⟨record', found', offset, size⟩ := archive.getElem?_inRow here
    cases found.symm.trans found'
    rw [offset, size]
  inside entry member position behind before := by
    obtain ⟨place, here⟩ := List.mem_iff_getElem?.1 member
    obtain ⟨_, _, offset, size⟩ := archive.getElem?_inRow here
    omega
  apart := by
    rw [List.pairwise_iff_getElem]
    intro place place' within within' before
    obtain ⟨record, found, offset, size⟩ := archive.getElem?_inRow (List.getElem?_eq_getElem within)
    obtain ⟨_, _, offset', _⟩ := archive.getElem?_inRow (List.getElem?_eq_getElem within')
    have behind : offsetAt archive.header.dataStart records place + record.stored
        ≤ offsetAt archive.header.dataStart records place' := offsetAt_add_stored_le found before
    rw [offset, offset', size]
    omega
  cut place entry record here found short place' entry' before there := by
    obtain ⟨record', found', _, size⟩ := archive.getElem?_inRow here
    cases found.symm.trans found'
    obtain ⟨_, _, _, size'⟩ := archive.getElem?_inRow there
    have behind : offsetAt archive.header.dataStart records place + record.stored
        ≤ offsetAt archive.header.dataStart records place' := offsetAt_add_stored_le found before
    omega
  addressable := addressable

/-- The files begin behind the blocks of the directory. -/
theorem dataStart_of_read {header : Header} {cursor after : Cursor}
    (read : readHeader cursor = .ok header after) :
    header.dataStart = header.directoryBlocks * blockSize ∧ header.dataStart < UInt64.size := by
  obtain ⟨_, _, _, read⟩ := ok_of_run_bind read
  obtain ⟨directoryBlocks, _, _, read⟩ := ok_of_run_bind read
  obtain ⟨_, _, _, read⟩ := ok_of_run_bind read
  obtain ⟨_, _, _, read⟩ := ok_of_run_bind read
  obtain ⟨here, _, _, read⟩ := ok_of_run_bind read
  dsimp only at read
  split at read
  · cases read
  · cases aligned : blockAlign here.position <;>
      cases fits : word? (directoryBlocks * blockSize) <;> simp only [aligned, fits] at read <;>
      cases read
    exact word?_eq_some_iff.1 fits

theorem open_eq_ok {container : Container} (opened : Archive.open container = .ok archive) :
    archive.container = container ∧
      archive.header.dataStart = archive.header.directoryBlocks * blockSize ∧
      archive.header.dataStart < UInt64.size := by
  unfold Archive.open at opened
  split at opened
  · cases opened
  · split at opened
    · rename_i header after read
      cases opened
      exact ⟨rfl, dataStart_of_read read⟩
    · cases opened

/-- The records that the directory states, whatever its numbers come to. -/
def stated? : Option (List Record) :=
  statedRecords archive.header.entryCount
    { container := archive.container, position := archive.header.directoryStart }

end Archive

/-- An archive that can be opened and listed has its entries in a row, in the order of its directory:
the first one where the header says, each at the block behind the one before it, and each as long as it
is stated to be, or as the container reaches. Nothing but the container's end cuts an entry short, and
what comes behind such an entry is empty. An archive is not listed if one of its files is stated to be
longer, or to begin or to end further on, than a word can tell. -/
theorem entries_laid_out {container : Container} {archive : Archive}
    (opened : Archive.open container = .ok archive) :
    archive.container = container ∧
      archive.header.dataStart = archive.header.directoryBlocks * blockSize ∧
      (∀ progress table after, archive.entries progress = .ok table after →
        ∃ records, archive.stated? = some records ∧ records.length = archive.header.entryCount ∧
          archive.LaidOut records table) ∧
      ∀ records, archive.stated? = some records →
        ¬ Addressable archive.header.dataStart records →
        ∀ progress table after, archive.entries progress ≠ .ok table after := by
  obtain ⟨same, begins, small⟩ := archive.open_eq_ok opened
  have listed : ∀ progress table after, archive.entries progress = .ok table after →
      ∃ records, archive.stated? = some records ∧ records.length = archive.header.entryCount ∧
        archive.LaidOut records table := by
    intro progress table after run
    rw [Archive.entries, run_get] at run
    dsimp only at run
    split at run
    · cases run
    · obtain ⟨records, stated, count, rfl, addressable⟩ := archive.listRecords_eq_ok small run
      exact ⟨records, stated, count, archive.laidOut_inRow addressable⟩
  refine ⟨same, begins, listed, ?_⟩
  intro records stated excessive progress table after run
  obtain ⟨records', stated', _, laidOut⟩ := listed progress table after run
  cases stated.symm.trans stated'
  exact excessive laidOut.addressable

/-- An archive of two programs whose container ends with the directory, of which a part stands where
the first program begins. -/
def cutShort : Archive where
  container := .ofBytes <| [0x4C, 0x59, 0x4E, 0x58, 0x0D, 0x31, 0x0D, 0x32, 0x0D, 0x58, 0x0D]
    ++ List.replicate 243 0
    ++ [0x41, 0x0D, 0x32, 0x0D, 0x50, 0x0D, 0x31, 0x30, 0x0D]
    ++ [0x42, 0x0D, 0x31, 0x0D, 0x50, 0x0D, 0x35, 0x0D]
  header := {
    signature := "LYNX", directoryBlocks := 1, entryCount := 2, creator := "X"
    directoryStart := 254, dataStart := 254 }

/-- What the directory says of its two files. -/
def longer : Record :=
  { rawName := [0x41], blocks := 2, typeCode := 2, lastUsed := 10, recordSize := none }

def shorter : Record :=
  { rawName := [0x42], blocks := 1, typeCode := 2, lastUsed := 5, recordSize := none }

theorem headerStart?_cutShort :
    headerStart? (cutShort.container.readAt 0 scanLimit) = some 0 := by decide +kernel

set_option maxRecDepth 20000 in
theorem readHeader_cutShort :
    readHeader ⟨cutShort.container, 0⟩ = .ok cutShort.header ⟨cutShort.container, 11⟩ := by cbv

set_option maxRecDepth 20000 in
theorem readRecord_longer :
    readRecord ⟨cutShort.container, 254⟩ = .ok longer ⟨cutShort.container, 263⟩ := by cbv

set_option maxRecDepth 20000 in
theorem readRecord_shorter :
    readRecord ⟨cutShort.container, 263⟩ = .ok shorter ⟨cutShort.container, 271⟩ := by cbv

theorem open_cutShort : Archive.open cutShort.container = .ok cutShort := by
  rw [Archive.open, headerStart?_cutShort]
  dsimp only
  rw [readHeader_cutShort]

theorem entries_cutShort : cutShort.entries {} =
    .ok [cutShort.entryOf 1 254 longer 264, cutShort.entryOf 2 762 shorter 5] { count := 2 } := by
  rw [Archive.entries, run_get]
  change cutShort.listRecords 2 1 254 ⟨cutShort.container, 254⟩ {} = _
  have size : storedSize longer.blocks longer.lastUsed = some 264 := by decide
  have size' : storedSize shorter.blocks shorter.lastUsed = some 5 := by decide
  have next : ((blockAlign 264).bind fun aligned => word? (254 + aligned)) = some 762 := by decide
  have next' : ((blockAlign 5).bind fun aligned => word? (762 + aligned)) = some 1016 := by decide
  simp only [Archive.listRecords, readRecord_longer, readRecord_shorter, size, size', next, next']
  rfl

/-- The first program keeps the seventeen bytes that are there and the second one none. -/
theorem entries_laid_out_of_short :
    Archive.open cutShort.container = .ok cutShort ∧
      ∃ records table after, cutShort.entries {} = .ok table after ∧ cutShort.LaidOut records table ∧
        table.map (fun entry => (entry.offset, entry.size)) = [(254, 17), (762, 0)] := by
  obtain ⟨_, _, listed, _⟩ := entries_laid_out open_cutShort
  obtain ⟨records, _, _, laidOut⟩ := listed _ _ _ entries_cutShort
  exact ⟨open_cutShort, records, _, _, entries_cutShort, laidOut, by decide +kernel⟩

end Lynx
end RetroMedia
