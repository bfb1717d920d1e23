import RetroMedia.Proofs.Image.Damage
import RetroMedia.Proofs.Image.Position
import RetroMedia.Proofs.Stream.Disturbed

/-! Seeks inside an entry. To go forward a stream reads what it skips, and it keeps the reader that it
did this with, also when the seek fails or is interrupted. Whether the stream then still reads on where
it says it stands depends on what is left of the entry. -/
namespace RetroMedia

open Disk.Volume (slotEntry)

namespace Image

/-- What a new reader of an entry has before it where nothing is cancelled. -/
def outlookOf (image : Image) (entry : Entry) : Outlook :=
  match image.handler.openEntry entry image.limits with
  | .ok reader => reader.outlook .quiet
  | .error error => ⟨[], some error⟩

/-- The bytes of an entry: what draining a new reader of it delivers, within the size of the entry. -/
def bytesOf (image : Image) (entry : Entry) : Bytes :=
  match image.handler.openEntry entry image.limits with
  | .ok reader => (ByteSource.drain (reader, Signals.quiet)).1.take entry.size
  | .error _ => []

theorem bytesOf_eq (image : Image) (entry : Entry) :
    image.bytesOf entry = (image.outlookOf entry).bytes.take entry.size := by
  unfold bytesOf outlookOf
  cases opened : image.handler.openEntry entry image.limits with
  | error error => simp
  | ok reader =>
    have law := Reader.foretells.drain_eq (reader, .quiet) (Checkout.sound_of_openEntry opened)
    dsimp only at law ⊢
    rw [law.1]

end Image

theorem Reader.honest_of_regular {reader : Reader} (regular : reader.Regular) : reader.Honest := by
  cases reader with
  | chain data => exact Disk.SectorSource.Regular.honest regular
  | memory | range | cursor => trivial

namespace Checkout

/-- Whoever reads on once the flag is clear gets these bytes. -/
def Delivers (checkout : Checkout) (bytes : Bytes) : Prop :=
  ∀ signals : Signals, signals.Calm →
    (ByteSource.drain { checkout with shared := { checkout.shared with signals } }).1 = bytes

/-- Reading on delivers the entry from the position on at which the stream says that it stands. -/
def InStep (checkout : Checkout) (entry : Entry) : Prop :=
  checkout.Delivers ((checkout.image.bytesOf entry).drop checkout.position)

/-- A seek that went all the way, or one that failed and left the stream as it was. -/
def AllOrNothing (before : Checkout) (entry : Entry) : Except MediaError Nat × Checkout → Prop
  | (.ok position, after) => after.position = position ∧ after.InStep entry
  | (.error _, after) => after.position = before.position ∧ after.InStep entry

variable {image : Image} {entry : Entry} {checkout : Checkout}

/-- The reader of the entry stands where the stream stands, or has nothing more to deliver. -/
def Paced (checkout : Checkout) (entry : Entry) : Prop :=
  match checkout.readerOf entry with
  | .ok reader =>
    reader.Honest ∧ reader.Sound ∧
      (reader.outlook .quiet
          = (checkout.image.outlookOf entry).drop checkout.stream.entryPosition ∨
        (reader.outlook .quiet).bytes = [])
  | .error _ => checkout.stream.entryPosition = 0

/-- The reader of the entry stands where the stream stands, or there is nothing left to miss. -/
def Abreast (checkout : Checkout) (entry : Entry) : Prop :=
  (checkout.image.bytesOf entry).length ≤ checkout.stream.entryPosition ∨
    ∃ reader, checkout.readerOf entry = .ok reader ∧
      reader.outlook .quiet = (checkout.image.outlookOf entry).drop checkout.stream.entryPosition

theorem bytesOf_of_unopened {error : MediaError} (failed : checkout.readerOf entry = .error error) :
    checkout.image.bytesOf entry = [] := by
  unfold readerOf at failed
  split at failed
  · cases failed
  · rw [Image.bytesOf, failed]

/-- With no reader that has bytes, a stream is only abreast where the entry is over. -/
theorem abreast_iff_of_spent {reader : Reader} (opened : checkout.readerOf entry = .ok reader)
    (spent : (reader.outlook .quiet).bytes = []) :
    checkout.Abreast entry ↔
      (checkout.image.bytesOf entry).length ≤ checkout.stream.entryPosition := by
  refine ⟨?_, .inl⟩
  rintro (ended | ⟨other, same, here⟩)
  · exact ended
  · cases opened.symm.trans same
    have nothing := List.drop_eq_nil_iff.1 ((congrArg Outlook.bytes here).symm.trans spent)
    rw [Image.bytesOf_eq, List.length_take]
    omega

/-- Reading on delivers what the reader has, within the size of the entry. -/
theorem drain_of_reader (chosen : checkout.stream.selected = some entry) {reader : Reader}
    (opened : checkout.readerOf entry = .ok reader) (honest : reader.Honest)
    (sound : reader.Sound) {signals : Signals} (calm : signals.Calm) :
    (ByteSource.drain { checkout with shared := { checkout.shared with signals } }).1
      = (reader.outlook .quiet).bytes.take (entry.size - checkout.stream.entryPosition) := by
  let calmed : Checkout := { checkout with shared := { checkout.shared with signals } }
  have sound' : calmed.Sound := by
    intro held same
    have here : checkout.stream.reader = some held := same
    rw [readerOf, here] at opened
    cases opened
    exact sound
  have opened' : calmed.readerOf entry = .ok reader := opened
  have room : calmed.available = entry.size - checkout.stream.entryPosition := by
    simp only [calmed, available, size, position, chosen]
  have ahead : calmed.outlook = (reader.outlook signals).clip calmed.available :=
    outlook_reader chosen opened'
  rw [Reader.outlook_of_calm honest calm Signals.calm_quiet, room] at ahead
  exact (foretells.drain_eq calmed sound').1.trans (ahead ▸ Outlook.bytes_clip _ _)

theorem drain_of_unopened (chosen : checkout.stream.selected = some entry) {error : MediaError}
    (failed : checkout.readerOf entry = .error error) (signals : Signals) :
    (ByteSource.drain { checkout with shared := { checkout.shared with signals } }).1 = [] := by
  let calmed : Checkout := { checkout with shared := { checkout.shared with signals } }
  have sound : calmed.Sound := by
    intro held same
    have here : checkout.stream.reader = some held := same
    rw [readerOf, here] at failed
    cases failed
  have ahead : calmed.outlook = (Outlook.mk [] (some error)).clip calmed.available :=
    outlook_unopened chosen failed
  have law := (foretells.drain_eq calmed sound).1
  rw [ahead, Outlook.bytes_clip, List.take_nil] at law
  exact law

/-- A stream is in step as long as its reader is. -/
theorem Paced.inStep_iff (paced : checkout.Paced entry)
    (chosen : checkout.stream.selected = some entry) :
    checkout.InStep entry ↔ checkout.Abreast entry := by
  have here : checkout.position = checkout.stream.entryPosition := by rw [position, chosen]
  unfold InStep Delivers
  rw [here]
  unfold Paced at paced
  cases opened : checkout.readerOf entry with
  | error error =>
    rw [bytesOf_of_unopened opened]
    constructor
    · intro _
      exact .inl (by rw [bytesOf_of_unopened opened]; exact Nat.zero_le _)
    · intro _ signals _
      rw [drain_of_unopened chosen opened, List.drop_nil]
  | ok reader =>
    rw [opened] at paced
    obtain ⟨honest, sound, same | spent⟩ := paced
    · refine iff_of_true (fun signals calm => ?_) (.inr ⟨reader, opened, same⟩)
      rw [drain_of_reader chosen opened honest sound calm, same, Image.bytesOf_eq, List.drop_take]
      rfl
    · rw [abreast_iff_of_spent opened spent, ← List.drop_eq_nil_iff]
      constructor
      · intro delivers
        have nothing := delivers .quiet Signals.calm_quiet
        rw [drain_of_reader chosen opened honest sound Signals.calm_quiet, spent,
          List.take_nil] at nothing
        exact nothing.symm
      · intro ended signals calm
        rw [drain_of_reader chosen opened honest sound calm, spent, ended, List.take_nil]

/-- A stream that is abreast before it skips more than its reader has comes behind the end of the
entry. -/
theorem Abreast.behind (abreast : checkout.Abreast entry) {reader : Reader}
    (opened : checkout.readerOf entry = .ok reader) {target : Nat}
    (forward : checkout.stream.entryPosition ≤ target)
    (short : (reader.outlook .quiet).bytes.length < target - checkout.stream.entryPosition) :
    (checkout.image.bytesOf entry).length ≤ target := by
  rcases abreast with ended | ⟨other, same, here⟩
  · exact Nat.le_trans ended forward
  · cases opened.symm.trans same
    rw [here, Outlook.drop, List.length_drop] at short
    rw [Image.bytesOf_eq, List.length_take]
    omega

/-- Skipping forward leaves a stream abreast if it was so before and nothing disturbed it, or if nothing
of the entry is left. A failure leaves it abreast only if nothing was left before. -/
theorem Paced.skipTo (paced : checkout.Paced entry) {target : Nat}
    (forward : checkout.stream.entryPosition ≤ target) :
    ∃ result after, checkout.skipTo entry target = (result, after) ∧
      after.image = checkout.image ∧ after.stream.selected = checkout.stream.selected ∧
      after.Paced entry ∧
      match result with
      | .ok _ => after.stream.entryPosition = target ∧
          (after.Abreast entry ↔ (checkout.image.bytesOf entry).length ≤ target ∨
            (¬ checkout.shared.signals.Interrupted after.shared.signals ∧ checkout.Abreast entry))
      | .error _ => after.stream.entryPosition = checkout.stream.entryPosition ∧
          (after.Abreast entry ↔
            (checkout.image.bytesOf entry).length ≤ checkout.stream.entryPosition) := by
  unfold Checkout.skipTo
  dsimp only
  by_cases idle : target - checkout.stream.entryPosition = 0
  · have here : target = checkout.stream.entryPosition := by omega
    subst here
    rw [if_pos idle]
    refine ⟨_, checkout, rfl, rfl, rfl, paced, rfl, ?_⟩
    constructor
    · exact fun abreast => .inr ⟨Signals.not_interrupted_self _, abreast⟩
    · rintro (ended | ⟨_, abreast⟩)
      · exact .inl ended
      · exact abreast
  · rw [if_neg idle]
    have paced' := paced
    unfold Paced at paced'
    cases opened : checkout.readerOf entry with
    | error error =>
      refine ⟨_, checkout, rfl, rfl, rfl, paced, rfl, ?_⟩
      have ended : (checkout.image.bytesOf entry).length ≤ checkout.stream.entryPosition := by
        rw [bytesOf_of_unopened opened]
        exact Nat.zero_le _
      exact iff_of_true (.inl ended) ended
    | ok reader =>
      rw [opened] at paced'
      obtain ⟨honest, sound, same⟩ := paced'
      obtain ⟨bytes, failure, last, signals, step, _, honest', sound', law⟩ :=
        Reader.gather_disturbed honest sound (target - checkout.stream.entryPosition)
          checkout.shared.signals
      dsimp only
      rw [step]
      let moved := (checkout.keepReader last signals).atEntryPosition target
      have there : moved.readerOf entry = .ok last := rfl
      rcases law with ⟨clear, enough, rfl, rest⟩ | ⟨clear, short, _, spent, _⟩ | ⟨hit, rfl, spent, _⟩
      · rcases same with same | spent
        · have onward : last.outlook .quiet = (checkout.image.outlookOf entry).drop target := by
            rw [rest, same]
            simp only [Outlook.drop, List.drop_drop, Nat.add_sub_cancel' forward]
          refine ⟨_, moved, rfl, rfl, rfl, ⟨honest', sound', .inl onward⟩, rfl, ?_⟩
          exact iff_of_true (.inr ⟨last, there, onward⟩)
            (.inr ⟨clear, .inr ⟨reader, opened, same⟩⟩)
        · rw [spent, List.length_nil] at enough
          omega
      · cases failure with
        | none =>
          refine ⟨_, moved, rfl, rfl, rfl, ⟨honest', sound', .inr spent⟩, rfl, ?_⟩
          refine (abreast_iff_of_spent there spent).trans ⟨.inl, ?_⟩
          rintro (ended | ⟨_, abreast⟩)
          · exact ended
          · exact abreast.behind opened forward short
        | some error =>
          let stayed := checkout.keepReader last signals
          have there' : stayed.readerOf entry = .ok last := rfl
          exact ⟨_, stayed, rfl, rfl, rfl, ⟨honest', sound', .inr spent⟩, rfl,
            abreast_iff_of_spent there' spent⟩
      · refine ⟨_, moved, rfl, rfl, rfl, ⟨honest', sound', .inr spent⟩, rfl, ?_⟩
        refine (abreast_iff_of_spent there spent).trans ⟨.inl, ?_⟩
        rintro (ended | ⟨clear, _⟩)
        · exact ended
        · exact absurd hit clear

/-- A selection without a reader is at its beginning, and nothing of it is missed. -/
theorem paced_start (checkout : Checkout) (regular : checkout.image.handler.Regular)
    (unopened : checkout.stream.reader = none) (start : checkout.stream.entryPosition = 0)
    (entry : Entry) : checkout.Paced entry ∧ checkout.Abreast entry := by
  have here : checkout.readerOf entry
      = checkout.image.handler.openEntry entry checkout.image.limits := by
    unfold readerOf
    rw [unopened]
  cases opened : checkout.readerOf entry with
  | error error =>
    have ended : (checkout.image.bytesOf entry).length ≤ checkout.stream.entryPosition := by
      rw [bytesOf_of_unopened opened]
      exact Nat.zero_le _
    refine ⟨?_, .inl ended⟩
    unfold Paced
    rw [opened]
    exact start
  | ok reader =>
    have found := here.symm.trans opened
    have same : reader.outlook .quiet
        = (checkout.image.outlookOf entry).drop checkout.stream.entryPosition := by
      rw [start, Outlook.drop_zero, Image.outlookOf, found]
    refine ⟨?_, .inr ⟨reader, opened, same⟩⟩
    unfold Paced
    rw [opened]
    exact ⟨Reader.honest_of_regular (regular.openEntry found), sound_of_openEntry found, .inl same⟩

theorem Paced.read (paced : checkout.Paced entry) (chosen : checkout.stream.selected = some entry)
    (count : Nat) : (checkout.read count).2.Paced entry := by
  rw [Checkout.read, chosen]
  dsimp only
  unfold readEntry
  dsimp only
  by_cases idle : min count checkout.available = 0
  · rw [if_pos idle]
    exact paced
  · rw [if_neg idle]
    have paced' := paced
    unfold Paced at paced'
    cases opened : checkout.readerOf entry with
    | error error => exact paced
    | ok reader =>
      rw [opened] at paced'
      obtain ⟨honest, sound, same⟩ := paced'
      obtain ⟨result, after, signals, step, _, honest', sound', law⟩ :=
        Reader.read_disturbed honest sound (Nat.pos_of_ne_zero idle) checkout.shared.signals
      dsimp only
      rw [step]
      cases result with
      | error error =>
        refine ⟨honest', sound', .inr ?_⟩
        rcases law with ⟨_, _, spent, _⟩ | ⟨_, ⟨spent, _⟩, _⟩
        · exact spent
        · exact spent
      | ok piece =>
        refine ⟨honest', sound', ?_⟩
        rcases law with ⟨_, here, _⟩ | ⟨_, ⟨spent, _⟩, _⟩
        · rcases same with same | spent
          · exact .inl (Outlook.eq_drop_of_behind (same.symm.trans here))
          · refine .inr ?_
            rw [here] at spent
            exact (List.append_eq_nil_iff.1 spent).2
        · exact .inr spent

/-- A stream of the image whose reader, if an entry is selected, keeps pace with it. -/
structure Standing (image : Image) (checkout : Checkout) : Prop where
  here : checkout.image = image
  paced : ∀ entry, checkout.stream.selected = some entry → checkout.Paced entry

/-- What a seek does to a stream that stands somewhere in an entry. -/
theorem Standing.seek (standing : checkout.Standing image) (regular : image.handler.Regular)
    (chosen : checkout.stream.selected = some entry) (target : Seek) :
    ∃ result after, checkout.seek target = (result, after) ∧ after.image = image ∧
      after.stream.selected = some entry ∧ after.Paced entry ∧
      match target.resolve checkout.position checkout.size, result with
      | .error error, result => result = .error error ∧ after = checkout
      | .ok goal, .ok position => position = goal ∧ after.stream.entryPosition = goal ∧
          (after.Abreast entry ↔ (image.bytesOf entry).length ≤ goal ∨
            (¬ checkout.shared.signals.Interrupted after.shared.signals ∧
              (goal < checkout.stream.entryPosition ∨ checkout.Abreast entry)))
      | .ok goal, .error _ =>
          if goal < checkout.stream.entryPosition then after.stream.entryPosition = 0
          else after.stream.entryPosition = checkout.stream.entryPosition ∧
            (after.Abreast entry ↔
              (image.bytesOf entry).length ≤ checkout.stream.entryPosition) := by
  obtain ⟨rfl, paced⟩ := standing
  unfold Checkout.seek
  cases resolved : target.resolve checkout.position checkout.size with
  | error error => exact ⟨_, _, rfl, rfl, chosen, paced entry chosen, rfl, rfl⟩
  | ok goal =>
    dsimp only
    rw [chosen]
    dsimp only
    unfold seekInEntry
    by_cases back : goal < checkout.stream.entryPosition
    · rw [if_pos back]
      let reopened : Checkout :=
        { checkout with stream := { checkout.stream with reader := none, entryPosition := 0 } }
      obtain ⟨pace, abreast⟩ := paced_start reopened regular rfl rfl entry
      obtain ⟨result, after, step, same, selected, still, law⟩ := pace.skipTo (Nat.zero_le goal)
      rw [step]
      cases result with
      | ok _ =>
        obtain ⟨there, law⟩ := law
        refine ⟨_, after, rfl, same, selected.trans chosen, still, rfl, there, law.trans ?_⟩
        exact or_congr Iff.rfl (and_congr Iff.rfl (iff_of_true abreast (.inl back)))
      | error error =>
        refine ⟨_, after, rfl, same, selected.trans chosen, still, ?_⟩
        dsimp only
        rw [if_pos back]
        exact law.1
    · rw [if_neg back]
      obtain ⟨result, after, step, same, selected, still, law⟩ :=
        (paced entry chosen).skipTo (Nat.le_of_not_lt back)
      rw [step]
      cases result with
      | ok _ =>
        obtain ⟨there, law⟩ := law
        refine ⟨_, after, rfl, same, selected.trans chosen, still, rfl, there, law.trans ?_⟩
        exact or_congr Iff.rfl (and_congr Iff.rfl (or_iff_right back).symm)
      | error error =>
        refine ⟨_, after, rfl, same, selected.trans chosen, still, ?_⟩
        dsimp only
        rw [if_neg back]
        exact law

/-- Whatever is done with a stream, its reader keeps pace with it or is silent. -/
theorem invariant_standing (regular : image.handler.Regular) : Invariant image (Standing image) where
  here standing := standing.here
  share standing _ := ⟨standing.here, standing.paced⟩
  choose := by
    rintro checkout ⟨rfl, _⟩ selected
    let chosen : Checkout := { checkout with
      stream := { checkout.stream with selected, reader := none, entryPosition := 0 } }
    exact ⟨rfl, fun entry _ => (paced_start chosen regular rfl rfl entry).1⟩
  walk standing _ := ⟨standing.here, standing.paced⟩
  move standing _ _ := ⟨standing.here, standing.paced⟩
  seek := by
    intro checkout standing target
    cases chosen : checkout.stream.selected with
    | none =>
      unfold Checkout.seek
      rw [chosen]
      dsimp only
      split
      · exact standing
      · exact ⟨standing.here, standing.paced⟩
    | some entry =>
      obtain ⟨result, after, step, same, selected, paced, _⟩ := standing.seek regular chosen target
      rw [step]
      refine ⟨same, fun other chosen' => ?_⟩
      cases selected.symm.trans chosen'
      exact paced
  read := by
    intro checkout standing count
    obtain ⟨same, _, selected⟩ := checkout.read_sameChoice count
    refine ⟨same.trans standing.here, fun entry chosen => ?_⟩
    have chosen' := selected.symm.trans chosen
    exact (standing.paced entry chosen').read chosen' count

/-- When a seek in an entry is all or nothing, for a stream that got wherever it stands in whatever way.
A seek that names no place does nothing. One that succeeds is as it should be if nothing of the entry is
left where it goes, or if no reading of the flag disturbed it and it went back, or went on from where
the stream was in step. One that fails is so only if it did not go back, and nothing of the entry was
left where the stream stood. -/
theorem seek_all_or_nothing_iff {url : String} {container : Container} {format : Option Format}
    {limits : Limits} (opened : Image.open url container format limits = .ok image)
    (shared : Shared) (events : List Event)
    (chosen : (meetAll { image, shared } events).stream.selected = some entry) (target : Seek) :
    let checkout := meetAll { image, shared } events
    checkout.AllOrNothing entry (checkout.seek target) ↔
      match target.resolve checkout.position checkout.size, (checkout.seek target).1 with
      | .error _, _ => checkout.InStep entry
      | .ok goal, .ok _ => (image.bytesOf entry).length ≤ goal ∨
          (¬ checkout.shared.signals.Interrupted (checkout.seek target).2.shared.signals ∧
            (goal < checkout.position ∨ checkout.InStep entry))
      | .ok goal, .error _ =>
          ¬ goal < checkout.position ∧ (image.bytesOf entry).length ≤ checkout.position := by
  have regular := Image.regular_of_open opened
  have start : Standing image { image, shared } := ⟨rfl, fun _ never => by cases never⟩
  have standing := (invariant_standing regular).meetAll start events
  generalize meetAll { image, shared } events = checkout at chosen standing
  dsimp only
  have paced := standing.paced entry chosen
  have here : checkout.position = checkout.stream.entryPosition := by rw [position, chosen]
  obtain ⟨result, after, step, same, selected, still, law⟩ := standing.seek regular chosen target
  have there : after.position = after.stream.entryPosition := by rw [position, selected]
  rw [step]
  cases resolved : target.resolve checkout.position checkout.size with
  | error error =>
    rw [resolved] at law
    obtain ⟨rfl, rfl⟩ := law
    exact ⟨fun both => both.2, fun inStep => ⟨rfl, inStep⟩⟩
  | ok goal =>
    rw [resolved] at law
    cases result with
    | ok position =>
      obtain ⟨rfl, moved, law⟩ := law
      dsimp only [AllOrNothing]
      rw [still.inStep_iff selected, law, paced.inStep_iff chosen, there, here]
      exact ⟨fun both => both.2, fun abreast => ⟨moved, abreast⟩⟩
    | error error =>
      dsimp only [AllOrNothing] at law ⊢
      rw [still.inStep_iff selected, there, here]
      split at law
      · rename_i back
        constructor
        · rintro ⟨stayed, _⟩
          omega
        · rintro ⟨ahead, _⟩
          exact absurd back ahead
      · rename_i ahead
        obtain ⟨stayed, law⟩ := law
        rw [law]
        exact ⟨fun both => ⟨ahead, both.2⟩, fun both => ⟨stayed, both.2⟩⟩

/-- The second file of the damaged disk. -/
def damagedEntry : Entry := slotEntry 2 (Disk.damagedSlot 0x42 2)

/-- The directory of this disk. -/
def damagedTable : List Entry := [slotEntry 1 (Disk.damagedSlot 0x41 1), damagedEntry]

/-- A stream that has selected the second file. -/
def damagedStream : Checkout where
  image := damagedImage
  shared := { table := some damagedTable }
  stream := { selected := some damagedEntry }

theorem meetAll_damagedImage :
    meetAll { image := damagedImage } [.inquiry (.request (.seekIndex 2))] = damagedStream := by
  obtain ⟨after, quiet, surveyed⟩ := Disk.survey_damagedDisk
  have listed : damagedImage.handler.entries { bound := some 4096 } = .ok damagedTable after := by
    change (Disk.sectorVolume Disk.damagedDisk).entries { bound := some 4096 } = _
    rw [← Disk.Volume.map_survey, Walk.run_map, surveyed]
    rfl
  have start : ({ image := damagedImage } : Checkout).shared.table = none := rfl
  have shown := entries_of_listed start listed
  rw [quiet] at shown
  have chosen := seekIndex_of_entries shown 1
  rw [meetAll, List.foldl_cons, List.foldl_nil, meet, Checkout.answer, serve, chosen]
  rfl

theorem bytesOf_damagedEntry :
    damagedImage.bytesOf damagedEntry = (Disk.damagedDisk ⟨1, 0⟩).bytes.drop 2 := by
  have opened : damagedImage.handler.openEntry damagedEntry damagedImage.limits
      = .ok damagedReader := rfl
  rw [Image.bytesOf_eq, Image.outlookOf, opened]
  dsimp only
  rw [faces_damagedReader.ahead .quiet Signals.calm_quiet]
  exact List.take_of_length_le (by rw [length_damagedDisk]; decide)

/-- As much can be skipped as can be read of the file. -/
theorem seek_damagedStream {target : Nat} (positive : 0 < target) (inside : target ≤ 508) :
    (damagedStream.seek (.start target)).1
      = if target ≤ 254 then .ok target else .error .invalidLocation := by
  have resolved : Seek.resolve (.start target) damagedStream.position damagedStream.size
      = .ok target := congrArg Except.ok (Nat.min_eq_left inside)
  have opened : damagedStream.readerOf damagedEntry = .ok damagedReader := rfl
  obtain ⟨failure, last, step, _, law⟩ := Reader.foretells_settled.gather_cases
    (damagedReader, .quiet) target (faces_damagedReader.settled Signals.calm_quiet)
  rw [faces_damagedReader.ahead .quiet Signals.calm_quiet] at step law
  rw [length_damagedDisk] at law
  have skipped : (damagedStream.skipTo damagedEntry target).1
      = if target ≤ 254 then .ok () else .error .invalidLocation := by
    have ahead : target - damagedStream.stream.entryPosition = target := rfl
    have gathered : ByteSource.gather (damagedReader, damagedStream.shared.signals) target
        = (_, failure, last) := step
    unfold skipTo
    dsimp only
    rw [ahead, if_neg (Nat.pos_iff_ne_zero.1 positive), opened]
    dsimp only
    rw [gathered]
    rcases law with ⟨enough, rfl, _⟩ | ⟨short, rfl, _⟩
    · rw [if_pos enough]
    · rw [if_neg (Nat.not_le.2 short)]
      rfl
  have forward : ¬ target < damagedStream.stream.entryPosition := Nat.not_lt_zero _
  have chosen : damagedStream.stream.selected = some damagedEntry := rfl
  unfold Checkout.seek
  rw [resolved]
  dsimp only
  rw [chosen]
  dsimp only
  rw [seekInEntry, if_neg forward]
  rcases step' : damagedStream.skipTo damagedEntry target with ⟨result, after⟩
  rw [step'] at skipped
  dsimp only at skipped
  rw [skipped]
  by_cases enough : target ≤ 254
  · rw [if_pos enough, if_pos enough]
  · rw [if_neg enough, if_neg enough]

theorem standing_damagedStream : damagedStream.Standing damagedImage := by
  have start : Standing damagedImage { image := damagedImage } := ⟨rfl, fun _ never => by cases never⟩
  rw [← meetAll_damagedImage]
  exact (invariant_standing (Image.regular_of_open open_damagedImage)).meetAll start _

/-- Inside of what can be read of the file, a seek takes place. -/
theorem seek_all_or_nothing_iff_of_disk :
    (damagedStream.seek (.start 100)).1 = .ok 100 ∧
      damagedStream.AllOrNothing damagedEntry (damagedStream.seek (.start 100)) := by
  have chosen : (meetAll { image := damagedImage } [.inquiry (.request (.seekIndex 2))]
      ).stream.selected = some damagedEntry := by
    rw [meetAll_damagedImage]
    rfl
  have law := seek_all_or_nothing_iff open_damagedImage {} [.inquiry (.request (.seekIndex 2))]
    chosen (.start 100)
  have resolved : Seek.resolve (.start 100) damagedStream.position damagedStream.size = .ok 100 := rfl
  have outcome : (damagedStream.seek (.start 100)).1 = .ok 100 :=
    seek_damagedStream (by decide) (by decide)
  obtain ⟨paced, abreast⟩ := paced_start damagedStream (Image.regular_of_open open_damagedImage) rfl
    rfl damagedEntry
  dsimp only at law
  rw [meetAll_damagedImage, resolved, outcome] at law
  exact ⟨outcome, law.2 (.inr ⟨Signals.calm_quiet.not_interrupted, .inr ((paced.inStep_iff rfl).2 abreast)⟩)⟩

/-- A seek behind it fails and stays where the stream was, but what the stream reads from then on is not
what the file has there. -/
theorem failed_seek_loses_bytes :
    ∃ image entry events checkout after,
      Image.open "disk" (Disk.Geometry.track35.imageOf Disk.damagedDisk) (some .d64) {} = .ok image ∧
      checkout = meetAll { image } events ∧ checkout.stream.selected = some entry ∧
      checkout.shared.signals.Calm ∧
      checkout.seek (.start 300) = (.error .invalidLocation, after) ∧
      after.position = checkout.position ∧ (image.bytesOf entry).length = 254 ∧
      ¬ checkout.AllOrNothing entry (checkout.seek (.start 300)) := by
  obtain ⟨result, after, step, same, selected, still, law⟩ := standing_damagedStream.seek
    (Image.regular_of_open open_damagedImage) rfl (.start 300)
  have outcome : (damagedStream.seek (.start 300)).1 = .error .invalidLocation :=
    seek_damagedStream (by decide) (by decide)
  have size : (damagedImage.bytesOf damagedEntry).length = 254 := by
    rw [bytesOf_damagedEntry, length_damagedDisk]
  have resolved : Seek.resolve (.start 300) damagedStream.position damagedStream.size = .ok 300 := rfl
  rw [step] at outcome
  cases outcome
  rw [resolved] at law
  obtain ⟨stayed, lost⟩ := law
  refine ⟨damagedImage, damagedEntry, _, damagedStream, after, open_damagedImage,
    meetAll_damagedImage.symm, rfl, Signals.calm_quiet, step, ?_, size, ?_⟩
  · rw [position, selected]
    exact stayed
  · rw [step]
    rintro ⟨_, inStep⟩
    have ended := lost.1 ((still.inStep_iff selected).1 inStep)
    rw [size] at ended
    exact absurd ended (by decide)

end Checkout
end RetroMedia
