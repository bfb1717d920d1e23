import RetroMedia.Lynx.Archive
import RetroMedia.Proofs.Checked.Volume
import RetroMedia.Proofs.Stream.Congruence

/-! Archives opened and listed with checked accesses. Lines are read byte by byte from a cursor; sums of
stored numbers are guarded by the archive itself. -/
namespace RetroMedia

theorem Text.parseWord?_lt {text : String} {value : Nat} (parsed : parseWord? text = some value) :
    value < UInt64.size := by
  unfold parseWord? at parsed
  obtain ⟨value', _, fits⟩ := Option.bind_eq_some_iff.1 parsed
  split at fits
  · cases fits
    assumption
  · cases fits

namespace Checked

open Lynx (Header Record)

/-- The state of a program. -/
def Program.current {σ : Type} : Program σ σ := fun state => .ok (.ok state state)

theorem safe_current {σ : Type} {before : σ → Prop} :
    Safe before Program.current get fun _ state => before state :=
  fun _ here => ⟨rfl, here⟩

theorem lt_of_readAt {container : Container} {offset count : Nat} {byte : UInt8} {rest : Bytes}
    (read : readAt container offset count = .ok (byte :: rest)) : offset < container.size := by
  unfold readAt at read
  split at read
  · cases read
  · omega

/-- The bytes up to the delimiter, which is consumed but not returned, or up to the end. -/
def scanUntil (delimiter : UInt8) (cursor : Cursor) (newestFirst : Bytes) :
    Checked (Bytes × Cursor) :=
  match _read : readAt cursor.container cursor.position 1 with
  | .error fault => .error fault
  | .ok [] => return (newestFirst.reverse, cursor)
  | .ok (byte :: rest) => do
    let _ ← add UInt64.size cursor.position (byte :: rest).length
    let after := { cursor with position := cursor.position + (byte :: rest).length }
    if byte == delimiter then return (newestFirst.reverse, after)
    else scanUntil delimiter after (byte :: newestFirst)
termination_by cursor.available
decreasing_by
  have inside := lt_of_readAt _read
  simp only [Cursor.available, Cursor.size, List.length_cons]
  omega

variable {container : Container}

/-- A cursor in the container. -/
def At (container : Container) (cursor : Cursor) : Prop := cursor.container = container

theorem cursor_read (cursor : Cursor) (count : Nat) :
    ByteSource.read cursor count = (.ok (cursor.container.readAt cursor.position count),
      { cursor with
        position := cursor.position + (cursor.container.readAt cursor.position count).length }) := rfl

theorem scanUntil_eq (addressable : container.size < UInt64.size) (delimiter : UInt8)
    {cursor : Cursor} (here : At container cursor) (newestFirst : Bytes) :
    ∃ bytes after, scanUntil delimiter cursor newestFirst = .ok (bytes, after) ∧
      ByteSource.scanUntil delimiter cursor newestFirst = (.ok bytes, after) ∧
      At container after ∧ bytes.length ≤ newestFirst.length + cursor.available := by
  fun_induction scanUntil delimiter cursor newestFirst with
  | case1 cursor newestFirst fault read =>
    rw [readAt_eq (here ▸ addressable)] at read
    cases read
  | case2 cursor newestFirst read =>
    rw [readAt_eq (here ▸ addressable)] at read
    rw [ByteSource.scanUntil_eq, cursor_read, Except.ok.inj read]
    exact ⟨_, _, rfl, rfl, here, by rw [List.length_reverse]; omega⟩
  | case3 cursor newestFirst byte rest read ih =>
    have inside := lt_of_readAt read
    rw [readAt_eq (here ▸ addressable)] at read
    have found := Except.ok.inj read
    have one : (byte :: rest).length = 1 := by
      have size := cursor.container.length_readAt cursor.position 1
      rw [found] at size
      omega
    have left : cursor.available = cursor.container.size - cursor.position := rfl
    rw [ByteSource.scanUntil_eq, cursor_read, found, one]
    rw [one] at ih
    have size : cursor.container.size < UInt64.size := here ▸ addressable
    rw [add_eq (by omega), ok_bind]
    dsimp only
    split
    · exact ⟨_, _, rfl, rfl, here, by rw [List.length_reverse]; omega⟩
    · obtain ⟨bytes, after, scanned, same, there, short⟩ := ih here
      refine ⟨bytes, after, scanned, same, there, Nat.le_trans short ?_⟩
      have left' : ({ cursor with position := cursor.position + 1 } : Cursor).available
          = cursor.container.size - (cursor.position + 1) := rfl
      rw [left', List.length_cons]
      omega

namespace Archive

/-- The bytes of the next line. -/
def line : Program Cursor Bytes := fun cursor => do
  let (bytes, after) ← scanUntil Lynx.lineEnd cursor []
  return .ok bytes after

/-- The next line as text. -/
def textLine : Program Cursor String := return Utf8.decodeLossy (← line)

/-- The next line as a number. -/
def numberLine (malformed : MediaError) : Program Cursor Nat := do
  match Text.parseWord? (Text.trim (← textLine)) with
  | some value => return value
  | none => throw malformed

/-- The lines of the header; something must follow them. -/
def readHeader : Program Cursor Header := do
  let signature := Text.trim (← textLine)
  let directoryBlocks ← numberLine .invalidHeader
  let entryCount ← numberLine .invalidHeader
  let creator := Text.trim (← textLine)
  let cursor ← Program.current
  if cursor.isExhausted then throw .invalidHeader
  else
    match Lynx.blockAlign cursor.position, Lynx.word? (directoryBlocks * Lynx.blockSize) with
    | some directoryStart, some dataStart =>
      return { signature, directoryBlocks, entryCount, creator, directoryStart, dataStart }
    | _, _ => throw .invalidHeader

def typeLine : Program Cursor UInt8 := do
  match Lynx.typeCodeOf? (← textLine) with
  | some code => return code
  | none => throw .invalidLayout

/-- Name, blocks, type, bytes in the last block, and for files of records their size. -/
def readRecord : Program Cursor Record := do
  let rawName ← trimPadding (← line) Petscii.shiftedSpace
  let blocks ← numberLine .invalidLayout
  let typeCode ← typeLine
  let lastUsed ← numberLine .invalidLayout
  if typeCode == 4 then
    let recordSize ← numberLine .invalidLayout
    return { rawName, blocks, typeCode, lastUsed, recordSize := some (recordSize % UInt16.size) }
  else return { rawName, blocks, typeCode, lastUsed, recordSize := none }

section Lines

variable (addressable : container.size < UInt64.size)

include addressable

theorem safe_line : Safe (At container) line Lynx.line fun bytes cursor =>
    bytes.length < UInt64.size ∧ At container cursor := by
  intro cursor here
  obtain ⟨bytes, after, scanned, same, there, short⟩ :=
    scanUntil_eq addressable Lynx.lineEnd here []
  have left : cursor.available ≤ container.size := here ▸ Nat.sub_le ..
  rw [line, scanned, Lynx.line, ByteSource.readUntil, same]
  refine ⟨rfl, ?_, there⟩
  rw [List.length_nil] at short
  omega

theorem safe_textLine :
    Safe (At container) textLine Lynx.textLine fun _ cursor => At container cursor :=
  (safe_line addressable).bind fun _ => safe_pure fun _ here => here.2

theorem safe_numberLine (malformed : MediaError) :
    Safe (At container) (numberLine malformed) (Lynx.numberLine malformed)
      fun value cursor => value < UInt64.size ∧ At container cursor := by
  refine (safe_textLine addressable).bind fun text => ?_
  cases parsed : Text.parseWord? (Text.trim text) with
  | some value => exact safe_pure fun _ here => ⟨Text.parseWord?_lt parsed, here⟩
  | none => exact safe_throw malformed

theorem safe_typeLine :
    Safe (At container) typeLine Lynx.typeLine fun _ cursor => At container cursor := by
  refine (safe_textLine addressable).bind fun text => ?_
  cases Lynx.typeCodeOf? text with
  | some code => exact safe_pure fun _ here => here
  | none => exact safe_throw _

theorem safe_readHeader : Safe (At container) readHeader Lynx.readHeader fun header _ =>
    header.entryCount < UInt64.size := by
  refine (safe_textLine addressable).bind fun signature => ?_
  refine (safe_numberLine addressable _).bind fun directoryBlocks => .given fun _ => ?_
  refine (safe_numberLine addressable _).bind fun entryCount => .given fun few => ?_
  refine (safe_textLine addressable).bind fun creator => ?_
  refine safe_current.bind fun cursor => ?_
  dsimp only
  by_cases exhausted : cursor.isExhausted = true
  · rw [if_pos exhausted, if_pos exhausted]
    exact safe_throw _
  · rw [if_neg exhausted, if_neg exhausted]
    cases Lynx.blockAlign cursor.position with
    | none => exact safe_throw _
    | some directoryStart =>
      cases Lynx.word? (directoryBlocks * Lynx.blockSize) with
      | none => exact safe_throw _
      | some dataStart => exact safe_pure fun _ _ => few

theorem safe_readRecord :
    Safe (At container) readRecord Lynx.readRecord fun _ cursor => At container cursor := by
  refine (safe_line addressable).bind fun bytes => .given fun short => ?_
  apply Safe.lift (trimPadding_eq short _)
  refine (safe_numberLine addressable _).bind fun blocks => .given fun _ => ?_
  refine (safe_typeLine addressable).bind fun typeCode => ?_
  refine (safe_numberLine addressable _).bind fun lastUsed => .given fun _ => ?_
  split
  · refine (safe_numberLine addressable _).bind fun recordSize => .given fun _ => ?_
    exact safe_pure fun _ here => here
  · exact safe_pure fun _ here => here

end Lines

/-- Search the front of a container for the marker, and the text before it for the start of its line. -/
def headerStart? (container : Container) : Checked (Option Nat) := do
  let scanned ← part container.toBytes 0 (min container.size Lynx.scanLimit)
  match Lynx.findRun? Lynx.marker scanned 0 with
  | none => return none
  | some position =>
    let before ← part scanned 0 position
    return some (← endOfLast (· == Lynx.lineEnd) before)

def openArchive (container : Container) : Checked (Except MediaError Lynx.Archive) := do
  match ← headerStart? container with
  | none => return .error .unknownFormat
  | some position =>
    match ← readHeader { container, position } with
    | .ok header _ => return .ok { container, header }
    | .error error _ => return .error error

theorem findRun?_le {run bytes : Bytes} {start position : Nat}
    (found : Lynx.findRun? run bytes start = some position) : position ≤ start + bytes.length := by
  fun_induction Lynx.findRun? run bytes start with
  | case1 start =>
    cases found
    exact Nat.le_refl _
  | case2 start => cases found
  | case3 start byte rest here =>
    cases found
    exact Nat.le_add_right ..
  | case4 start byte rest other ih =>
    have later := ih found
    rw [List.length_cons]
    omega

theorem headerStart?_eq (addressable : container.size < UInt64.size) :
    headerStart? container
      = .ok (Lynx.headerStart? (container.readAt 0 Lynx.scanLimit)) := by
  have scanned : container.toBytes.field 0 (min container.size Lynx.scanLimit)
      = container.readAt 0 Lynx.scanLimit := by
    rw [Container.readAt_eq, Bytes.field, List.take_eq_take_iff, List.length_drop, length_toBytes]
    omega
  have size := container.length_readAt 0 Lynx.scanLimit
  unfold headerStart? Lynx.headerStart?
  rw [part_eq (Nat.zero_le _) (by rw [length_toBytes]; exact Nat.min_le_left ..), ok_bind,
    Nat.sub_zero, scanned]
  cases found : Lynx.findRun? Lynx.marker (container.readAt 0 Lynx.scanLimit) 0 with
  | none => rfl
  | some position =>
    have inside := findRun?_le found
    have before : ((container.readAt 0 Lynx.scanLimit).take position).length = position := by
      rw [List.length_take]
      omega
    have line : (((container.readAt 0 Lynx.scanLimit).take position).reverse.takeWhile
          (· != Lynx.lineEnd)).length
        = ((container.readAt 0 Lynx.scanLimit).take position).reverse.findIdx (· == Lynx.lineEnd) := by
      have found : (fun byte => !(byte != Lynx.lineEnd)) = (· == Lynx.lineEnd) :=
        funext fun byte => Bool.not_not _
      rw [List.takeWhile_eq_take_findIdx_not, List.length_take, found,
        Nat.min_eq_left List.findIdx_le_length]
    dsimp only
    rw [part_eq (Nat.zero_le _) (by omega), ok_bind, Nat.sub_zero, Bytes.field, List.drop_zero,
      endOfLast_eq (by omega), before, ← line]
    rfl

/-- An archive announces no more files than a word can count. -/
structure Sound (archive : Lynx.Archive) : Prop where
  addressable : archive.container.size < UInt64.size
  few : archive.header.entryCount < UInt64.size

theorem opens_openArchive (addressable : container.size < UInt64.size) :
    Opens Sound id (openArchive container) (Lynx.Archive.open container) := by
  unfold openArchive Lynx.Archive.open
  rw [headerStart?_eq addressable, ok_bind]
  cases Lynx.headerStart? (container.readAt 0 Lynx.scanLimit) with
  | none => exact opens_error _
  | some position =>
    obtain ⟨same, few⟩ := safe_readHeader addressable { container, position } rfl
    dsimp only
    rw [same, ok_bind]
    cases read : Lynx.readHeader { container, position } with
    | error error after => exact opens_error error
    | ok header after =>
      rw [read] at few
      exact opens_ok id ⟨addressable, few⟩

variable (archive : Lynx.Archive)

/-- The entries of the next `count` records. -/
def listRecords : Nat → Nat → Nat → Cursor → Program Progress (List Entry)
  | 0, _, _, _ => return []
  | count + 1, index, offset, cursor => do
    tick
    match ← (readRecord cursor) with
    | .error error _ => throw error
    | .ok record cursor =>
      match Lynx.storedSize record.blocks record.lastUsed with
      | none => throw .invalidLayout
      | some stored =>
        let name ← toText record.rawName
        match (Lynx.blockAlign stored).bind fun aligned => Lynx.word? (offset + aligned) with
        | none => throw .invalidLayout
        | some next =>
          let more ← listRecords count (index + 1) next cursor
          return { archive.entryOf index offset record stored with name } :: more

/-- The directory, in order. -/
def entries : Program Progress (List Entry) := do
  let progress ← Program.current
  if progress.limits.maxEntries < archive.header.entryCount then throw .chainTooLong
  else
    listRecords archive archive.header.entryCount 1 archive.header.dataStart
      { container := archive.container, position := archive.header.directoryStart }

variable {archive}

theorem takes_listRecords (sound : Sound archive) (count index offset : Nat) {cursor : Cursor}
    (here : At archive.container cursor) :
    Takes count (listRecords archive count index offset cursor)
      (archive.listRecords count index offset cursor) fun _ => True := by
  induction count generalizing index offset cursor with
  | zero => exact takes_pure trivial
  | succ count ih =>
    obtain ⟨same, law⟩ := safe_readRecord sound.addressable cursor here
    unfold listRecords Lynx.Archive.listRecords
    rw [Nat.add_comm count 1]
    refine takes_tick.bind fun _ _ => ?_
    apply Takes.lift same
    cases read : Lynx.readRecord cursor with
    | error error after => exact (takes_throw error).mono (Nat.zero_le _)
    | ok record after =>
      rw [read] at law
      dsimp only
      cases Lynx.storedSize record.blocks record.lastUsed with
      | none => exact (takes_throw _).mono (Nat.zero_le _)
      | some stored =>
        apply Takes.lift (toText_eq record.rawName)
        dsimp only
        cases (Lynx.blockAlign stored).bind fun aligned => Lynx.word? (offset + aligned) with
        | none => exact (takes_throw _).mono (Nat.zero_le _)
        | some next => exact (ih (index + 1) next law).last fun more _ => takes_pure trivial

theorem entries_eq (sound : Sound archive) {progress : Progress} (fresh : progress.count = 0) :
    entries archive progress = .ok (archive.entries progress) := by
  have room : Room (archive.header.entryCount + 0) progress := by
    have few := sound.few
    unfold Room
    omega
  have here : At archive.container
      { container := archive.container, position := archive.header.directoryStart } := rfl
  have listed : Takes archive.header.entryCount (entries archive) archive.entries fun _ => True := by
    intro spare
    refine safe_current.bind fun progress => ?_
    dsimp only
    by_cases many : progress.limits.maxEntries < archive.header.entryCount
    · rw [if_pos many, if_pos many]
      exact safe_throw _
    · rw [if_neg many, if_neg many]
      exact takes_listRecords sound _ _ _ here spare
  exact (listed 0 progress room).1

end Archive
end Checked
end RetroMedia
