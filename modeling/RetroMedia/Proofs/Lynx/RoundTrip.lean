import RetroMedia.Proofs.Lynx.Layout
import RetroMedia.Proofs.Progress.Counting
import RetroMedia.Proofs.Stream.Outlook
import RetroMedia.Proofs.Stream.Readers

/-! Archives read as they were written. The marker leads to the header, the header to the directory, and
the records add up to the places of the files. -/
namespace RetroMedia.Lynx

/-- A run that occurs is found, there or before. -/
theorem findRun?_of_begins {run : Bytes} (some : run ≠ []) {bytes : Bytes} {place : Nat}
    (here : run <+: bytes.drop place) (position : Nat) :
    ∃ found ≤ place, findRun? run bytes position = .some (position + found) ∧
      run <+: bytes.drop found := by
  induction bytes generalizing place position with
  | nil =>
    rw [List.drop_nil, List.prefix_nil] at here
    exact absurd here some
  | cons byte rest ih =>
    unfold findRun?
    by_cases found : run.isPrefixOf (byte :: rest) = true
    · rw [if_pos found]
      exact ⟨0, Nat.zero_le _, rfl, List.isPrefixOf_iff_prefix.1 found⟩
    · rw [if_neg found]
      cases place with
      | zero => exact absurd (List.isPrefixOf_iff_prefix.2 here) found
      | succ place =>
        obtain ⟨place', early, same, there⟩ := ih here (position + 1)
        refine ⟨place' + 1, by omega, ?_, there⟩
        rw [same, Nat.add_assoc, Nat.add_comm 1]

/-- A run without the byte that stops it ends before that byte. -/
theorem begins_of_stop {run front back : Bytes} {stop : UInt8} (without : stop ∉ run)
    (here : run <+: front ++ stop :: back) : run <+: front := by
  obtain ⟨after, whole⟩ := here
  rcases List.append_eq_append_iff.1 whole with ⟨more, short, _⟩ | ⟨rest, long, later⟩
  · exact ⟨more, short.symm⟩
  · cases rest with
    | nil => exact ⟨[], by simp [long]⟩
    | cons byte rest =>
      obtain ⟨rfl, _⟩ := List.cons.inj later
      exact absurd (long ▸ List.mem_append_right _ List.mem_cons_self) without

/-- The marker leads back to the beginning of its line. -/
theorem headerStart?_of_line {preamble window before : Bytes} (unmarked : ¬ marker <:+: preamble)
    (begins : before ++ marker <+: window) (oneLine : lineEnd ∉ before) :
    headerStart? (preamble ++ lineEnd :: window) = some (preamble.length + 1) := by
  obtain ⟨rest, rfl⟩ := begins
  have occurs : marker <+: (preamble ++ lineEnd :: (before ++ marker ++ rest)).drop
      (preamble.length + (before.length + 1)) := by
    rw [List.drop_length_add_append, List.drop_succ_cons, List.append_assoc, List.drop_left]
    exact List.prefix_append ..
  obtain ⟨found, early, search, there⟩ := findRun?_of_begins (by decide) occurs 0
  -- before the line there is no marker, and none across the end of the line before
  have behind : preamble.length < found := by
    rcases Nat.lt_or_ge preamble.length found with behind | within
    · exact behind
    · rw [List.drop_append_of_le_length within] at there
      have inside := begins_of_stop (by decide) there
      exact absurd (inside.isInfix.trans (List.drop_suffix ..).isInfix) unmarked
  obtain ⟨place, rfl⟩ : ∃ place, found = preamble.length + (place + 1) :=
    ⟨found - (preamble.length + 1), by omega⟩
  have inLine : place ≤ before.length := by omega
  have line : ∀ byte ∈ (before.take place).reverse, (byte != lineEnd) = true := by
    intro byte member
    rw [bne_iff_ne]
    rintro rfl
    exact oneLine (List.mem_of_mem_take (List.mem_reverse.1 member))
  rw [headerStart?, search]
  simp only [Nat.zero_add, Option.bind_eq_bind, Option.bind_some, Option.pure_def]
  rw [List.take_length_add_append, List.take_succ_cons, List.append_assoc,
    List.take_append_of_le_length inLine, List.reverse_append, List.reverse_cons, List.append_assoc,
    List.takeWhile_append_of_pos line]
  simp [inLine]
  omega

namespace Layout

variable (layout : Layout)

theorem headerStart?_toBytes :
    headerStart? (layout.container.readAt 0 scanLimit) = some (layout.preamble.length + 1) := by
  obtain ⟨before, after, signed, near⟩ := layout.marked
  obtain ⟨rest, begins⟩ : ∃ rest, layout.toBytes
      = layout.preamble ++ lineEnd :: (before ++ marker ++ rest) :=
    ⟨_, by simp [Parts.toBytes, Parts.front, Parts.headerLines, asLine, signed]; rfl⟩
  obtain ⟨limit, reaches⟩ : ∃ limit, scanLimit
      = layout.preamble.length + ((before ++ marker).length + limit + 1) :=
    ⟨scanLimit - (layout.preamble.length + 1 + before.length + marker.length),
      by rw [List.length_append]; omega⟩
  have scanned : layout.container.readAt 0 scanLimit
      = layout.preamble ++ lineEnd :: (before ++ marker ++ rest.take limit) := by
    rw [Container.readAt_eq, List.drop_zero, reaches]
    change List.take _ layout.toBytes = _
    rw [begins, List.take_length_add_append, List.take_succ_cons, List.take_length_add_append]
  rw [scanned]
  apply headerStart?_of_line layout.unmarked (List.prefix_append ..)
  intro member
  apply layout.signature_plain.oneLine
  rw [signed]
  exact List.mem_append_left _ (List.mem_append_left _ member)

theorem length_toBytes : layout.toBytes.length
    = (layout.front ++ layout.gap).length + layout.directory.length + layout.slack.length
      + layout.data.length := by
  simp only [Parts.toBytes, List.length_append]

/-- Each file has a line of its own. -/
theorem length_directory_ge : layout.files.length ≤ layout.directory.length := by
  unfold Parts.directory
  induction layout.files with
  | nil => exact Nat.le_refl _
  | cons file files ih =>
    have line : 1 ≤ file.lines.length := by simp [StoredFile.lines, asLine]; omega
    rw [List.flatMap_cons, List.length_append, List.length_cons]
    omega

theorem size_container : layout.container.size = layout.toBytes.length := by
  simp [Parts.container, Container.size, Container.ofBytes]

/-- Behind the first line of the header the other ones are read, and something must follow. -/
theorem readHeader_eq (addressable : layout.toBytes.length + (blockSize - 1) < UInt64.size) :
    readHeader { container := layout.container, position := layout.preamble.length + 1 }
      = .ok layout.header { container := layout.container, position := layout.front.length } := by
  have whole := layout.length_toBytes
  have starts := layout.slack_fills
  simp only [List.length_append] at whole starts
  have entries_lt : layout.files.length < UInt64.size := by
    have each := layout.length_directory_ge
    omega
  have blocks_lt : layout.directoryBlocks < UInt64.size := by
    unfold blockSize at starts
    omega
  let start : Cursor := { container := layout.container, position := layout.preamble.length + 1 }
  have ahead : start.ahead = asLine layout.signature ++ (asLine (Text.decimal layout.directoryBlocks)
      ++ (asLine (Text.decimal layout.files.length) ++ (asLine layout.creator
        ++ (layout.gap ++ layout.directory ++ layout.slack ++ layout.data)))) := by
    have split : layout.toBytes = asLine layout.preamble ++ (layout.headerLines
        ++ (layout.gap ++ layout.directory ++ layout.slack ++ layout.data)) := by
      simp only [Parts.toBytes, Parts.front, List.append_assoc]
    have line : layout.preamble.length + 1 = (asLine layout.preamble).length := by
      simp [asLine]
    change layout.toBytes.drop (layout.preamble.length + 1) = _
    rw [split, line, List.drop_left]
    simp only [Parts.headerLines, List.append_assoc]
  have afterSignature := Cursor.ahead_skip ahead
  have afterBlocks := Cursor.ahead_skip afterSignature
  have afterCount := Cursor.ahead_skip afterBlocks
  change readHeader start = _
  unfold readHeader
  rw [(reads_textLine layout.signature_plain.oneLine).run_bind ahead]
  dsimp only
  rw [(reads_numberLine _ blocks_lt).run_bind afterSignature,
    (reads_numberLine _ entries_lt).run_bind afterBlocks,
    (reads_textLine layout.creator_plain.oneLine).run_bind afterCount]
  have finish : ((((start.skip (asLine layout.signature).length).skip
      (asLine (Text.decimal layout.directoryBlocks)).length).skip
        (asLine (Text.decimal layout.files.length)).length).skip (asLine layout.creator).length)
      = { container := layout.container, position := layout.front.length } := by
    simp [Cursor.skip, start, Parts.front, Parts.headerLines, asLine]
    omega
  have more : ({ container := layout.container, position := layout.front.length } : Cursor).isExhausted
      = false := by
    have continued := layout.continued
    rw [Cursor.isExhausted, Cursor.available, Cursor.size, layout.size_container, beq_eq_false_iff_ne]
    dsimp only
    omega
  have aligned : blockAlign layout.front.length = some (layout.front ++ layout.gap).length := by
    rw [blockAlign_eq (by omega), ← layout.gap_fills, List.length_append]
  have placed : word? (layout.directoryBlocks * blockSize)
      = some (layout.directoryBlocks * blockSize) := if_pos (by omega)
  rw [finish, run_get]
  dsimp only
  rw [more, aligned, placed, layout.signature_plain.trim, layout.creator_plain.trim]
  rfl

theorem open_container (addressable : layout.toBytes.length + (blockSize - 1) < UInt64.size) :
    Archive.open layout.container = .ok { container := layout.container, header := layout.header } := by
  rw [Archive.open, layout.headerStart?_toBytes]
  dsimp only
  rw [layout.readHeader_eq addressable]

theorem offsetOf_succ {place : Nat} {file : StoredFile} (here : layout.files[place]? = some file) :
    layout.offsetOf (place + 1) = layout.offsetOf place + file.stored.length := by
  rw [offsetOf, offsetOf, List.take_add_one, here, List.flatMap_append, List.length_append,
    Nat.add_assoc]
  simp

theorem offsetOf_le (place : Nat) : layout.offsetOf place ≤ layout.toBytes.length := by
  have whole := layout.length_toBytes
  have starts := layout.slack_fills
  have data : layout.data = (layout.files.take place).flatMap StoredFile.stored
      ++ (layout.files.drop place).flatMap StoredFile.stored := by
    rw [← List.flatMap_append, List.take_append_drop]
    rfl
  rw [data, List.length_append] at whole
  simp only [List.length_append] at whole starts
  rw [offsetOf]
  omega

/-- What stands at the offset of a file is the file. -/
theorem drop_offsetOf {place : Nat} {file : StoredFile} (here : layout.files[place]? = some file) :
    ∃ rest, layout.toBytes.drop (layout.offsetOf place) = file.stored ++ rest := by
  obtain ⟨bound, same⟩ := List.getElem?_eq_some_iff.1 here
  have split : layout.files = layout.files.take place ++ file :: layout.files.drop (place + 1) := by
    rw [← same, ← List.drop_eq_getElem_cons bound, List.take_append_drop]
  have data : layout.data = (layout.files.take place).flatMap StoredFile.stored
      ++ (file.stored ++ (layout.files.drop (place + 1)).flatMap StoredFile.stored) := by
    rw [← List.flatMap_cons, ← List.flatMap_append, ← split]
    rfl
  refine ⟨(layout.files.drop (place + 1)).flatMap StoredFile.stored, ?_⟩
  rw [offsetOf, ← layout.slack_fills, Parts.toBytes, List.drop_length_add_append, data,
    List.drop_left]

/-- The data of a file lies in the archive. -/
theorem readAt_offsetOf {place : Nat} {file : StoredFile}
    (here : layout.files[place]? = some file) :
    layout.container.readAt (layout.offsetOf place) file.content.length = file.content := by
  obtain ⟨rest, there⟩ := layout.drop_offsetOf here
  rw [Container.readAt_eq]
  change (layout.toBytes.drop _).take _ = _
  rw [there, StoredFile.stored, List.append_assoc, List.take_left]

theorem clamp_offsetOf {place : Nat} {file : StoredFile} (here : layout.files[place]? = some file) :
    layout.container.clamp (layout.offsetOf place) file.content.length = file.content.length := by
  have size := layout.container.length_readAt (layout.offsetOf place) file.content.length
  rw [layout.readAt_offsetOf here] at size
  exact size.symm

/-- From each file on the rest of the directory is read as it was written. It takes a step for each
file, whatever else the counter holds. -/
theorem listRecords_eq (addressable : layout.toBytes.length + (blockSize - 1) < UInt64.size)
    {place : Nat} {files : List StoredFile} (left : layout.files.drop place = files) {cursor : Cursor}
    {rest : Bytes} (ahead : cursor.ahead = files.flatMap StoredFile.lines ++ rest) :
    { container := layout.container, header := layout.header : Archive }.listRecords files.length
        (place + 1) (layout.offsetOf place) cursor
      = Walk.counted (.ok (files.mapIdx fun index => layout.entryOf (place + index))) files.length := by
  induction files generalizing place cursor with
  | nil => rfl
  | cons file files ih =>
    have here : layout.files[place]? = some file := by
      rw [← List.head?_drop, left]
      rfl
    have later : layout.files.drop (place + 1) = files := by
      rw [← List.drop_drop, left]
      rfl
    have next := layout.offsetOf_succ here
    have inside := layout.offsetOf_le (place + 1)
    have size := file.length_stored
    have content : file.content.length ≤ file.stored.length := by
      rw [StoredFile.stored, List.length_append]
      exact Nat.le_add_right ..
    have content_lt : file.content.length < UInt64.size := by omega
    rw [List.flatMap_cons, List.append_assoc] at ahead
    have read := file.reads_lines content_lt cursor _ ahead
    have stored : storedSize file.record.blocks file.record.lastUsed = some file.content.length :=
      file.storedSize_eq content_lt
    have aligned : (blockAlign file.content.length).bind
        (fun aligned => word? (layout.offsetOf place + aligned)) = some (layout.offsetOf (place + 1)) := by
      rw [blockAlign_eq (by omega), ← size, Option.bind_some, ← next]
      exact if_pos (by omega)
    have onward := ih later (Cursor.ahead_skip ahead)
    have entry : { container := layout.container, header := layout.header : Archive }.entryOf (place + 1)
        (layout.offsetOf place) file.record file.content.length = layout.entryOf place file := by
      rw [Archive.entryOf, layout.clamp_offsetOf here]
      rfl
    have listed : (layout.entryOf place file :: files.mapIdx fun index =>
        layout.entryOf (place + 1 + index)) = (file :: files).mapIdx fun index =>
          layout.entryOf (place + index) := by
      simp only [List.mapIdx_cons, Nat.add_zero, Nat.add_assoc, Nat.add_comm 1]
    rw [List.length_cons, Archive.listRecords, read, Walk.counted_succ, ← listed]
    dsimp only
    rw [stored]
    dsimp only
    rw [aligned]
    dsimp only
    rw [onward, entry]
    exact congrArg (Progress.tick >>= fun _ => ·) (Walk.counted_bind _ _ fun more =>
      .ok (layout.entryOf place file :: more))

/-- The bytes of an entry are those of its file. -/
theorem openEntry_yields {archive : Archive} (same : archive.container = layout.container)
    {place : Nat} {file : StoredFile} (here : layout.files[place]? = some file) (signals : Signals) :
    ByteSource.YieldsExactly (archive.openEntry (layout.entryOf place file), signals)
      file.content := by
  have inside : file.content.length ≤ layout.container.size - layout.offsetOf place := by
    have whole := layout.clamp_offsetOf here
    rw [Container.clamp] at whole
    omega
  have ahead : (archive.openEntry (layout.entryOf place file)).outlook signals
      = ⟨file.content, none⟩ := by
    change Outlook.mk (archive.container.readAt (layout.offsetOf place) file.content.length)
      (if file.content.length ≤ archive.container.size - layout.offsetOf place then none
        else some .shortRead) = _
    rw [same, layout.readAt_offsetOf here, if_pos inside]
  have sound : (archive.openEntry (layout.entryOf place file)).Sound := trivial
  exact Reader.foretells.yieldsExactly sound ahead

end Layout

/-- An archive is read as it was written. Its header is found behind any bootstrap, its directory lists
the files that it was made of, each with its name, type, size and place, and every entry yields the
bytes of its file, into nonempty buffers of any sizes. Only a reading of the cancellation flag that
finds it set comes between. -/
theorem layout_round_trip (layout : Layout)
    (addressable : layout.toBytes.length + (blockSize - 1) < UInt64.size) :
    ∃ archive, Archive.open layout.container = .ok archive ∧
      archive.container = layout.container ∧ archive.header = layout.header ∧
      (∀ progress : Progress, layout.files.length ≤ progress.limits.maxEntries →
        (∀ bound, progress.bound = some bound → progress.count + layout.files.length ≤ bound) →
        ∃ after : Progress, progress.signals.Follows after.signals ∧
          ((¬ progress.signals.Interrupted after.signals ∧
              archive.entries progress = .ok layout.entries after) ∨
            (progress.signals.Interrupted after.signals ∧
              archive.entries progress = .error .cancelled after))) ∧
      ∀ place file, layout.files[place]? = some file →
        layout.entries[place]? = some (layout.entryOf place file) ∧
          ∀ signals : Signals, ByteSource.YieldsExactly
            (archive.openEntry (layout.entryOf place file), signals) file.content := by
  refine ⟨_, layout.open_container addressable, rfl, rfl, ?_, ?_⟩
  · intro progress allowed room
    have ahead : ({ container := layout.container, position := layout.header.directoryStart }
        : Cursor).ahead = layout.files.flatMap StoredFile.lines ++ (layout.slack ++ layout.data) := by
      change layout.toBytes.drop (layout.front ++ layout.gap).length = _
      rw [Parts.toBytes, List.append_assoc, List.append_assoc, List.drop_left]
      rfl
    have listed := layout.listRecords_eq addressable (show layout.files.drop 0 = _ from List.drop_zero)
      ahead
    have start : layout.offsetOf 0 = layout.header.dataStart := by simp [Layout.offsetOf, Layout.header]
    have table : (layout.files.mapIdx fun index => layout.entryOf (0 + index)) = layout.entries := by
      simp only [Nat.zero_add]
      rfl
    rw [start, table] at listed
    obtain ⟨after, follows, law⟩ :=
      Walk.counted_cases (.ok layout.entries) room
    refine ⟨after, follows, ?_⟩
    have run : ({ container := layout.container, header := layout.header } : Archive).entries progress
        = Walk.counted (.ok layout.entries) layout.files.length progress := by
      have allowed' : ¬ progress.limits.maxEntries < layout.header.entryCount := Nat.not_lt.2 allowed
      rw [← listed, Archive.entries, run_get]
      dsimp only
      rw [if_neg allowed']
      rfl
    rw [run]
    exact law
  · intro place file here
    refine ⟨?_, fun signals => layout.openEntry_yields rfl here signals⟩
    rw [Layout.entries, List.getElem?_mapIdx, here]
    rfl

/-- A program of three bytes. -/
def shortProgram : StoredFile where
  rawName := [0x41]
  type := .program
  content := [1, 2, 3]
  filler := List.replicate 251 0
  name_fits := by decide
  name_oneLine := by decide
  name_ends := by decide
  filled := by rw [List.length_replicate]; rfl

/-- A file of records of which none was written. -/
def noRecords : StoredFile where
  rawName := [0x42]
  type := .relative 32
  content := []
  filler := []
  name_fits := by decide
  name_oneLine := by decide
  name_ends := by decide
  filled := rfl

/-- Both files behind a bootstrap of two bytes and a signature of one word. -/
def smallArchive : Layout where
  preamble := [0x01, 0x08]
  signature := marker
  directoryBlocks := 2
  creator := [0x43]
  gap := List.replicate 240 0
  files := [shortProgram, noRecords]
  slack := List.replicate 205 0
  unmarked := by decide
  marked := ⟨[], [], rfl, by decide⟩
  signature_plain := ⟨ascii_of_all (by decide), by decide, by rintro byte ⟨⟩; decide,
    by rintro byte ⟨⟩; decide⟩
  creator_plain := ⟨ascii_of_all (by decide), by decide, by rintro byte ⟨⟩; decide,
    by rintro byte ⟨⟩; decide⟩
  gap_fills := by
    rw [List.length_replicate]
    decide
  slack_fills := by
    simp only [List.length_append, List.length_replicate]
    decide
  continued := by
    simp only [Parts.toBytes, List.length_append, List.length_replicate]
    omega

/-- Both files of the archive are listed and read. -/
theorem layout_round_trip_of_two :
    smallArchive.toBytes.length + (blockSize - 1) < UInt64.size ∧
      ∃ archive, Archive.open smallArchive.container = .ok archive ∧
        (∃ after, archive.entries {} = .ok smallArchive.entries after) ∧
        ∀ signals : Signals, ByteSource.YieldsExactly
          (archive.openEntry (smallArchive.entryOf 0 shortProgram), signals) [1, 2, 3] := by
  have addressable : smallArchive.toBytes.length + (blockSize - 1) < UInt64.size := by
    have starts : _ = 508 := smallArchive.slack_fills
    have data : smallArchive.data.length = 254 := by
      change (shortProgram.stored ++ (noRecords.stored ++ [])).length = 254
      rw [List.length_append, List.length_append, StoredFile.length_stored,
        StoredFile.length_stored]
      rfl
    rw [Parts.toBytes, List.length_append, starts, data]
    decide
  obtain ⟨archive, opened, _, _, listed, read⟩ := layout_round_trip smallArchive addressable
  refine ⟨addressable, archive, opened, ?_, (read 0 shortProgram rfl).2⟩
  obtain ⟨after, _, ⟨_, table⟩ | ⟨stopped, _⟩⟩ := listed {} (by decide) nofun
  · exact ⟨after, table⟩
  · exact absurd stopped Signals.calm_quiet.not_interrupted

end RetroMedia.Lynx
