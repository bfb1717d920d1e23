import RetroMedia.Proofs.Image.Outlook
import RetroMedia.Proofs.Image.Refinement
import RetroMedia.Proofs.Stream.Outlook
import RetroMedia.Vfs.File

/-! The size of an entry. Whatever sizes, addresses and offsets a directory stores, the size that an
image announces for an entry is the number of bytes that every way of reading the entry yields. -/
namespace RetroMedia

variable {image : Image} {entry : Entry} {bytes : Bytes} {reader : Reader}

/-- What is before a reader is what it yields. -/
theorem Reader.Faces.yieldsExactly (faces : reader.Faces ⟨bytes, none⟩) {signals : Signals}
    (calm : signals.Calm) : ByteSource.YieldsExactly (reader, signals) bytes :=
  Reader.foretells_settled.yieldsExactly (faces.settled calm) (faces.ahead signals calm)

/-- A stream of an image that has just selected an entry has the entry before it as far as its size
reaches. -/
theorem Checkout.select_outlook {checkout : Checkout} (same : checkout.image = image)
    (calm : checkout.shared.signals.Calm)
    (opened : image.handler.openEntry entry image.limits = .ok reader) {outlook : Outlook}
    (faces : reader.Faces outlook) :
    ∃ chosen, Checkout.select entry checkout = .ok () chosen ∧ chosen.size = entry.size ∧
      chosen.Sound ∧ chosen.outlook = outlook.clip entry.size := by
  let chosen : Checkout := { checkout with
    stream := { checkout.stream with selected := some entry, reader := none, entryPosition := 0 } }
  have sound : chosen.Sound := by
    rintro _ ⟨⟩
  have opened' : chosen.readerOf entry = .ok reader := by
    rw [← opened, ← same]
    rfl
  refine ⟨chosen, rfl, rfl, sound, ?_⟩
  rw [outlook_reader rfl opened', faces.ahead _ calm]
  rfl

theorem Checkout.select_yieldsExactly {checkout : Checkout} (same : checkout.image = image)
    (calm : checkout.shared.signals.Calm)
    (opened : image.handler.openEntry entry image.limits = .ok reader)
    (faces : reader.Faces ⟨bytes, none⟩) (size : bytes.length = entry.size) :
    ∃ chosen, Checkout.select entry checkout = .ok () chosen ∧ chosen.size = entry.size ∧
      ByteSource.YieldsExactly chosen bytes := by
  obtain ⟨chosen, step, room, sound, ahead⟩ := select_outlook same calm opened faces
  rw [← size, Outlook.clip, if_pos (Nat.le_refl _), List.take_length] at ahead
  exact ⟨chosen, step, room, foretells.yieldsExactly sound ahead⟩

/-- A file that stands for an entry is read by the entry's reader. -/
theorem File.reader_of_entry {file : File} {held : HeldImage} (same : held.image = image)
    (node : file.node = .entry held entry) (complete : entry.incomplete = false)
    (opened : image.handler.openEntry entry image.limits = .ok reader) (host : Host) :
    file.reader host = .ok reader := by
  unfold File.reader
  rw [node]
  dsimp only
  rw [complete, Bool.and_false, if_neg (by decide), same, opened]
  rfl

theorem File.reads_entry {file : File} {held : HeldImage} (same : held.image = image)
    (node : file.node = .entry held entry) (complete : entry.incomplete = false)
    (opened : image.handler.openEntry entry image.limits = .ok reader)
    (faces : reader.Faces ⟨bytes, none⟩) (host : Host) :
    file.size host = entry.size ∧ file.reader host = .ok reader ∧
      file.container host = .ok (.ofBytes bytes) := by
  have read := File.reader_of_entry same node complete opened host
  refine ⟨?_, read, ?_⟩
  · unfold File.size
    rw [node]
  · have drained := faces.drain Signals.calm_quiet
    unfold File.container
    rw [node, read]
    dsimp only [bind, Except.bind]
    rcases step : ByteSource.drain (reader, Signals.quiet) with ⟨found, failure, last⟩
    rw [step] at drained
    obtain ⟨(all : found = bytes), (quiet : failure = none)⟩ := drained
    rw [all, quiet]
    rfl

/-- The size that an image announces for an entry that it listed in full is the number of bytes that
all readers of the entry yield, in reads of any sizes: the reader of the image itself, every stream of
the image that selects the entry, and every file that stands for it. -/
theorem entry_yields_its_size {url : String} {container : Container} {format : Option Format}
    {limits : Limits} (opened : Image.open url container format limits = .ok image)
    {signals : Signals} {table : List Entry} (listed : (image.entries { signals }).1 = .ok table)
    (member : entry ∈ table)
    (resolved : image.handler.Resolved (image.entryCounter signals) entry) :
    ∃ bytes reader, bytes.length = entry.size ∧
      image.handler.openEntry entry image.limits = .ok reader ∧
      (∀ later : Signals, later.Calm → ByteSource.YieldsExactly (reader, later) bytes) ∧
      (∀ checkout : Checkout, checkout.image = image → checkout.shared.signals.Calm →
        ∃ chosen, Checkout.select entry checkout = .ok () chosen ∧ chosen.size = entry.size ∧
          ByteSource.YieldsExactly chosen bytes) ∧
      ∀ (file : File) (held : HeldImage) (host : Host), held.image = image →
        file.node = .entry held entry → file.size host = entry.size ∧
          file.reader host = .ok reader ∧ file.container host = .ok (.ofBytes bytes) := by
  obtain ⟨after, step⟩ := Image.listed_of_entries listed
  obtain ⟨complete, reader, found, bytes, faces, size⟩ :=
    Handler.fills_of_resolved (Image.regular_of_open opened).honest step member resolved
  change image.handler.openEntry entry image.limits = .ok reader at found
  refine ⟨bytes, reader, size, found, ?_, ?_, ?_⟩
  · intro later calm
    exact faces.yieldsExactly calm
  · intro checkout same calm
    exact Checkout.select_yieldsExactly same calm found faces size
  · intro file held host same node
    exact File.reads_entry same node complete found faces host

/-- A tape whose file announces more than the container holds: the address at which it ends lies
before the one at which it begins. -/
def Tape.ofReversedFile : Container :=
  .ofBytes (signature ++ List.replicate 29 0 ++ [0, 0, 1, 0, 1, 0] ++ List.replicate 26 0
    ++ [1, 0x82, 0x04, 0x08, 0x01, 0x08, 0, 0, 0x60, 0, 0, 0, 0, 0, 0, 0, 0x41]
    ++ List.replicate 15 0x20 ++ [7, 8, 9])

/-- The file of a tape with reversed addresses is read as its load address and what there is of it. -/
theorem entry_yields_its_size_of_tape :
    ∃ image table entry, Image.open "tape" Tape.ofReversedFile none {} = .ok image ∧
      (image.entries {}).1 = .ok table ∧ entry ∈ table ∧ entry.size = 5 ∧
      ∃ bytes reader, bytes.length = 5 ∧
        image.handler.openEntry entry image.limits = .ok reader ∧
        ByteSource.YieldsExactly (reader, Signals.quiet) bytes := by
  obtain ⟨image, table, entry, opened, listed, member, resolved, size⟩ : ∃ image table entry,
      Image.open "tape" Tape.ofReversedFile none {} = .ok image ∧ (image.entries {}).1 = .ok table ∧
        entry ∈ table ∧ image.handler.Resolved (image.entryCounter {}) entry ∧ entry.size = 5 :=
    ⟨_, _, _, rfl, rfl, List.mem_cons_self, rfl, rfl⟩
  obtain ⟨bytes, reader, length, found, exact', _⟩ :=
    entry_yields_its_size opened listed member resolved
  exact ⟨image, table, entry, opened, listed, member, size, bytes, reader, length.trans size, found,
    exact' .quiet Signals.calm_quiet⟩

end RetroMedia
