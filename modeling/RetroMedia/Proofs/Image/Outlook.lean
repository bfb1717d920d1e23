import RetroMedia.Image.Checkout
import RetroMedia.Proofs.Stream.Readers

/-! The outlook of a stream: the rest of the raw container, or the rest of the selected entry as far
as its reader has it and its size reaches. -/
namespace RetroMedia.Checkout

/-- What a stream still has to deliver. -/
def outlook (checkout : Checkout) : Outlook :=
  match checkout.stream.selected with
  | none => ⟨checkout.image.container.readAt checkout.stream.position checkout.available, none⟩
  | some entry =>
    match checkout.readerOf entry with
    | .error error => (Outlook.mk [] (some error)).clip checkout.available
    | .ok reader => (reader.outlook checkout.shared.signals).clip checkout.available

/-- The reader in use keeps a failure back only if it has nothing else left. -/
def Sound (checkout : Checkout) : Prop :=
  ∀ reader, checkout.stream.reader = some reader → reader.Sound

theorem sound_of_openEntry {handler : Handler} {entry : Entry} {limits : Limits} {reader : Reader}
    (opened : handler.openEntry entry limits = .ok reader) : reader.Sound := by
  cases handler with
  | disk volume =>
    simp only [Handler.openEntry, Disk.Volume.openEntry] at opened
    split at opened <;> cases opened
    exact Disk.ChainReader.sound_start _ _ _
  | archive | tape | cartridge =>
    simp only [Handler.openEntry] at opened
    cases opened
    trivial
  | hardDisk volume =>
    simp only [Handler.openEntry, HardDisk.Volume.openEntry] at opened
    split at opened <;> cases opened
    trivial
  | document json =>
    simp only [Handler.openEntry, Document.openEntry] at opened
    split at opened <;> cases opened
    trivial

theorem Sound.readerOf {checkout : Checkout} (sound : checkout.Sound) {entry : Entry}
    {reader : Reader} (opened : checkout.readerOf entry = .ok reader) : reader.Sound := by
  unfold Checkout.readerOf at opened
  split at opened
  · rename_i held
    cases opened
    exact sound _ held
  · exact sound_of_openEntry opened

/-- To open an entry reads no flag. -/
theorem readerOf_ne_cancelled (checkout : Checkout) (entry : Entry) :
    checkout.readerOf entry ≠ .error .cancelled := by
  unfold Checkout.readerOf
  split
  · intro found
    cases found
  · exact openEntry_ne_cancelled _ _ _

variable {checkout : Checkout} {entry : Entry}

theorem outlook_raw (raw : checkout.stream.selected = none) :
    checkout.outlook = ⟨checkout.image.container.readAt checkout.stream.position
      (checkout.image.container.size - checkout.stream.position), none⟩ := by
  simp only [outlook, available, size, position, raw]

theorem outlook_reader {reader : Reader} (chosen : checkout.stream.selected = some entry)
    (opened : checkout.readerOf entry = .ok reader) :
    checkout.outlook = (reader.outlook checkout.shared.signals).clip checkout.available := by
  simp only [outlook, chosen, opened]

theorem outlook_unopened {error : MediaError} (chosen : checkout.stream.selected = some entry)
    (failed : checkout.readerOf entry = .error error) :
    checkout.outlook = (Outlook.mk [] (some error)).clip checkout.available := by
  simp only [outlook, chosen, failed]

theorem outlook_of_exhausted (chosen : checkout.stream.selected = some entry)
    (done : checkout.available = 0) : checkout.outlook = .finished := by
  cases opened : checkout.readerOf entry with
  | error error => rw [outlook_unopened chosen opened, done, Outlook.clip_zero]
  | ok reader => rw [outlook_reader chosen opened, done, Outlook.clip_zero]

private theorem raw_consumes (checkout : Checkout) (count : Nat) (sound : checkout.Sound)
    (raw : checkout.stream.selected = none) (positive : 0 < count) :
    ByteSource.Consumes Sound outlook checkout count (checkout.read count) := by
  unfold read
  rw [raw]
  dsimp only
  have size := checkout.image.container.length_readAt checkout.stream.position count
  refine ⟨sound, size ▸ Nat.min_le_left .., ?_, fun none => ?_⟩
  · rw [outlook_raw raw, outlook_raw]
    · exact congrArg (Outlook.mk · none)
        (checkout.image.container.readAt_rest checkout.stream.position count)
    · exact raw
  · have beyond : checkout.image.container.size ≤ checkout.stream.position :=
      (Container.readAt_eq_nil_iff.1 none).resolve_left (by omega)
    rw [outlook_raw raw, Nat.sub_eq_zero_of_le beyond, Container.readAt_zero]
    rfl

private theorem entry_consumes (checkout : Checkout) (entry : Entry) (count : Nat)
    (sound : checkout.Sound) (chosen : checkout.stream.selected = some entry)
    (positive : 0 < count) :
    ByteSource.Consumes Sound outlook checkout count (checkout.readEntry entry count) := by
  unfold readEntry
  dsimp only
  split
  · rename_i idle
    have finished := outlook_of_exhausted chosen (show checkout.available = 0 by omega)
    exact ⟨sound, Nat.zero_le _, (Outlook.behind_nil _).symm, fun _ => finished⟩
  · rename_i busy
    split
    · rename_i error failed
      have here : checkout.outlook = ⟨[], some error⟩ := by
        rw [outlook_unopened chosen failed, Outlook.clip, if_neg (by simp; omega)]
      refine ⟨sound, here, fun cancelled => ?_⟩
      subst cancelled
      exact absurd failed (readerOf_ne_cancelled checkout entry)
    · rename_i reader opened
      have law := Reader.foretells (reader, checkout.shared.signals)
        (min count checkout.available) (sound.readerOf opened) (by omega)
      change ByteSource.Consumes _ _ _ _ (reader.read _ _) at law
      have here := outlook_reader chosen opened
      split
      · rename_i bytes after signals step
        rw [step] at law
        obtain ⟨still, fits, same, ends⟩ := law
        let moved := (checkout.keepReader after signals).atEntryPosition
          (checkout.stream.entryPosition + bytes.length)
        have there : moved.outlook = (after.outlook signals).clip moved.available :=
          outlook_reader chosen rfl
        have left : moved.available = checkout.available - bytes.length := by
          simp only [moved, available, size, position, keepReader, atEntryPosition, chosen]
          omega
        refine ⟨?_, by omega, ?_, fun none => ?_⟩
        · rintro reader' held
          cases held
          exact still
        · change checkout.outlook = moved.outlook.behind bytes
          rw [there, left, here]
          dsimp only at same
          rw [same, Outlook.clip_behind _ (by omega)]
        · have finished := ends none
          dsimp only at finished
          rw [here, finished, Outlook.clip_over]
      · rename_i error after signals step
        rw [step] at law
        obtain ⟨still, same, ends⟩ := law
        dsimp only at same
        refine ⟨?_, ?_, fun cancelled => ?_⟩
        · rintro reader' held
          cases held
          exact still
        · rw [here, same, Outlook.clip, if_neg (by simp; omega)]
        · have finished := ends cancelled
          dsimp only at finished
          have there : (checkout.keepReader after signals).outlook
              = (after.outlook signals).clip (checkout.keepReader after signals).available :=
            outlook_reader chosen rfl
          rw [there, finished, Outlook.clip_over]

/-- The outlook of a stream foretells all that it will deliver. -/
theorem foretells : ByteSource.Foretells Sound outlook := by
  intro checkout count sound positive
  change ByteSource.Consumes _ _ _ _ (checkout.read count)
  cases chosen : checkout.stream.selected with
  | none => exact raw_consumes checkout count sound chosen positive
  | some entry =>
    rw [read, chosen]
    exact entry_consumes checkout entry count sound chosen positive

end RetroMedia.Checkout
