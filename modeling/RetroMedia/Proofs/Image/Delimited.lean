import RetroMedia.Proofs.Image.Cancellation
import RetroMedia.Proofs.Image.InStep
import RetroMedia.Proofs.Stream.Delivery

/-! Scanning a stream for a delimiter. The raw container is scanned like a cursor. In an entry that
can be read as far as its size says, a call takes the bytes up to the delimiter exactly if the stream
was in step and no reading of the flag disturbed it. -/
namespace RetroMedia.Checkout

open Disk.Volume (slotEntry)
open ByteSource (Cuts Joins ReadsPiece ScanEnds Splits SplitsInto cut_cases drop_cut pieceOf
  pieceOf_cons pieceOf_cons_self readUntil scanEnds scanUntil)

variable {image : Image} {entry : Entry} {checkout : Checkout} {delimiter : UInt8}

section Raw

/-- These bytes of the raw container are ahead of the stream. -/
structure RawAhead (image : Image) (finish : Nat) (checkout : Checkout) (bytes : Bytes) : Prop where
  here : checkout.image = image
  raw : checkout.stream.selected = none
  ahead : image.container.Ahead finish checkout.stream.position bytes

variable {finish : Nat} {bytes : Bytes}

theorem rawAhead_start (raw : checkout.stream.selected = none) :
    checkout.RawAhead checkout.image
      (checkout.stream.position
        + (checkout.image.container.toBytes.drop checkout.stream.position).length)
      (checkout.image.container.toBytes.drop checkout.position) := by
  rw [position, raw]
  exact ⟨rfl, raw, checkout.image.container.ahead_start _⟩

theorem RawAhead.placed (ahead : checkout.RawAhead image finish bytes) :
    checkout.position + bytes.length = finish := by
  rw [position, ahead.raw]
  exact ahead.ahead.2

theorem RawAhead.exhausted_iff (ahead : checkout.RawAhead image finish bytes) :
    checkout.isExhausted = true ↔ bytes = [] := by
  rw [ahead.ahead.nil_iff, isExhausted, beq_iff_eq, available, size, position, ahead.raw, ahead.here]

theorem delivers_raw (image : Image) (finish : Nat) :
    ByteSource.Delivers (RawAhead image finish) := by
  rintro checkout bytes count ⟨rfl, raw, ahead⟩ positive
  obtain ⟨rest, same, fits, ends, left⟩ := ahead.readAt positive
  change ByteSource.Delivered _ _ _ (checkout.read count)
  rw [read, raw]
  exact ⟨rest, same, fits, ends, rfl, raw, left⟩

/-- The raw container is scanned from wherever the stream stands. -/
theorem scans_raw (raw : checkout.stream.selected = none) (delimiter : UInt8) :
    ReadsPiece position delimiter checkout
        (checkout.image.container.toBytes.drop checkout.position) ∧
      SplitsInto isExhausted delimiter checkout
        (checkout.image.container.toBytes.drop checkout.position) := by
  have start := rawAhead_start raw
  have delivers := delivers_raw checkout.image (checkout.stream.position
    + (checkout.image.container.toBytes.drop checkout.stream.position).length)
  exact ⟨delivers.readsPiece (fun _ _ ahead => ahead.placed) start delimiter,
    (delivers.cuts (fun _ _ ahead => ahead.exhausted_iff) delimiter).splitsInto start⟩

end Raw

section Entries

/-- The bytes of the entry from where the stream stands on. -/
def leftOf (checkout : Checkout) (entry : Entry) : Bytes :=
  (checkout.image.bytesOf entry).drop checkout.stream.entryPosition

/-- A stream in an entry that can be read as far as its size says. -/
structure Readable (entry : Entry) (checkout : Checkout) : Prop where
  chosen : checkout.stream.selected = some entry
  paced : checkout.Paced entry
  complete : (checkout.image.bytesOf entry).length = entry.size

theorem Readable.available_eq (readable : checkout.Readable entry) :
    checkout.available = (checkout.leftOf entry).length := by
  rw [available, size, position, readable.chosen, leftOf, List.length_drop, readable.complete]

theorem Readable.isExhausted_iff (readable : checkout.Readable entry) :
    checkout.isExhausted = true ↔ checkout.leftOf entry = [] := by
  rw [isExhausted, beq_iff_eq, readable.available_eq, List.length_eq_zero_iff]

theorem leftOf_eq_nil_iff : checkout.leftOf entry = [] ↔
    (checkout.image.bytesOf entry).length ≤ checkout.stream.entryPosition :=
  List.drop_eq_nil_iff

/-- The bytes that a reader in step has, as far as the size of the entry reaches. -/
theorem leftOf_eq {reader : Reader}
    (same : reader.outlook .quiet
      = (checkout.image.outlookOf entry).drop checkout.stream.entryPosition) :
    checkout.leftOf entry
      = (reader.outlook .quiet).bytes.take (entry.size - checkout.stream.entryPosition) := by
  rw [leftOf, Image.bytesOf_eq, List.drop_take, same]
  rfl

/-- A reader without bytes is not abreast where some of the entry are left. -/
theorem not_abreast_of_spent {reader : Reader} (opened : checkout.readerOf entry = .ok reader)
    (spent : (reader.outlook .quiet).bytes = []) (more : checkout.leftOf entry ≠ []) :
    ¬ checkout.Abreast entry := by
  rw [abreast_iff_of_spent opened spent, ← leftOf_eq_nil_iff]
  exact more

/-- What a read of one byte comes to. At the end of the entry it does nothing. It takes the next byte, or
the stream is not abreast any more, as it was not before or as a reading of the flag disturbed it. -/
inductive ByteRead (entry : Entry) (before : Checkout) : Except MediaError Bytes × Checkout → Prop
  | ended (gone : before.leftOf entry = []) : ByteRead entry before (.ok [], before)
  | taken {byte : UInt8} {after : Checkout} (next : before.leftOf entry = byte :: after.leftOf entry)
      (moved : after.stream.entryPosition = before.stream.entryPosition + 1)
      (clear : ¬ before.shared.signals.Interrupted after.shared.signals)
      (abreast : before.Abreast entry) (still : after.Abreast entry) :
      ByteRead entry before (.ok [byte], after)
  | lost {result : Except MediaError Bytes} {after : Checkout}
      (stayed : after.stream.entryPosition = before.stream.entryPosition)
      (astray : ¬ after.Abreast entry)
      (cause : before.Abreast entry → before.shared.signals.Interrupted after.shared.signals)
      (nothing : ∀ piece, result = .ok piece → piece = []) : ByteRead entry before (result, after)

theorem Readable.read_ended (readable : checkout.Readable entry)
    (gone : checkout.leftOf entry = []) (count : Nat) :
    checkout.read count = (.ok [], checkout) := by
  have room := readable.available_eq
  rw [gone, List.length_nil] at room
  rw [Checkout.read, readable.chosen]
  dsimp only
  rw [readEntry, room, Nat.min_zero]
  rfl

/-- The stream when its reader has answered. -/
def resume (checkout : Checkout) (reader : Reader) (signals : Signals) :
    Except MediaError Bytes → Checkout
  | .ok bytes => (checkout.keepReader reader signals).atEntryPosition
      (checkout.stream.entryPosition + bytes.length)
  | .error _ => checkout.keepReader reader signals

/-- Before the end of the entry, a read of one byte is one of its reader. -/
theorem Readable.read_of_reader (readable : checkout.Readable entry)
    (more : checkout.leftOf entry ≠ []) {reader after : Reader}
    (opened : checkout.readerOf entry = .ok reader) {result : Except MediaError Bytes}
    {signals : Signals}
    (step : reader.read 1 checkout.shared.signals = (result, after, signals)) :
    checkout.read 1 = (result, checkout.resume after signals result) := by
  have some := List.length_pos_iff.2 more
  have single : min 1 checkout.available = 1 :=
    Nat.min_eq_left (readable.available_eq ▸ some)
  rw [Checkout.read, readable.chosen]
  dsimp only
  unfold readEntry
  dsimp only
  rw [single, if_neg Nat.one_ne_zero, opened]
  dsimp only
  rw [step]
  cases result <;> rfl

/-- A byte that the reader hands out is the next one of the entry. -/
theorem Readable.taken (readable : checkout.Readable entry) {reader after : Reader}
    (opened : checkout.readerOf entry = .ok reader) {byte : UInt8}
    (here : reader.outlook .quiet = (after.outlook .quiet).behind [byte])
    (more : checkout.leftOf entry ≠ []) {signals : Signals}
    (clear : ¬ checkout.shared.signals.Interrupted signals) :
    ByteRead entry checkout (.ok [byte], checkout.resume after signals (.ok [byte])) := by
  let moved := checkout.resume after signals (.ok [byte])
  have paced := readable.paced
  unfold Paced at paced
  rw [opened] at paced
  obtain ⟨_, _, same | spent⟩ := paced
  · have there : after.outlook .quiet = (moved.image.outlookOf entry).drop
        moved.stream.entryPosition := Outlook.eq_drop_of_behind (same.symm.trans here)
    have inside : checkout.stream.entryPosition < entry.size := by
      have some := List.length_pos_iff.2 more
      rw [leftOf, List.length_drop, readable.complete] at some
      omega
    have size : entry.size - checkout.stream.entryPosition
        = entry.size - (checkout.stream.entryPosition + 1) + 1 := by omega
    refine .taken ?_ rfl clear (.inr ⟨reader, opened, same⟩) (.inr ⟨after, rfl, there⟩)
    rw [leftOf_eq same, leftOf_eq there, here, size]
    rfl
  · rw [here] at spent
    cases spent

/-- What does not change while a stream is scanned. -/
structure Onward (entry : Entry) (before after : Checkout) : Prop where
  readable : after.Readable entry
  image : after.image = before.image
  follows : before.shared.signals.Follows after.shared.signals

theorem Readable.onward (readable : checkout.Readable entry) : Onward entry checkout checkout :=
  ⟨readable, rfl, .refl _⟩

theorem Onward.trans {first second third : Checkout} (early : Onward entry first second)
    (late : Onward entry second third) : Onward entry first third :=
  ⟨late.readable, late.image.trans early.image, early.follows.trans late.follows⟩

theorem Readable.read_byte (readable : checkout.Readable entry) :
    Onward entry checkout (checkout.read 1).2 ∧ ByteRead entry checkout (checkout.read 1) := by
  obtain ⟨image, _, selected⟩ := checkout.read_sameChoice 1
  have still : (checkout.read 1).2.Readable entry := ⟨selected.trans readable.chosen,
    readable.paced.read readable.chosen 1, image ▸ readable.complete⟩
  suffices outcome : checkout.shared.signals.Follows (checkout.read 1).2.shared.signals ∧
      ByteRead entry checkout (checkout.read 1) from ⟨⟨still, image, outcome.1⟩, outcome.2⟩
  rcases eq_or_ne (checkout.leftOf entry) [] with gone | more
  · rw [readable.read_ended gone]
    exact ⟨.refl _, .ended gone⟩
  · have paced := readable.paced
    unfold Paced at paced
    cases opened : checkout.readerOf entry with
    | error error =>
      rw [leftOf, bytesOf_of_unopened opened, List.drop_nil] at more
      exact absurd rfl more
    | ok reader =>
      rw [opened] at paced
      obtain ⟨honest, sound, _⟩ := paced
      obtain ⟨result, after, signals, step, follows, _, _, law⟩ :=
        Reader.read_disturbed honest sound Nat.one_pos checkout.shared.signals
      have astray {other : Checkout} (same : other.readerOf entry = .ok after)
          (left : other.leftOf entry = checkout.leftOf entry)
          (spent : (after.outlook .quiet).bytes = []) : ¬ other.Abreast entry :=
        not_abreast_of_spent same spent (left ▸ more)
      rw [readable.read_of_reader more opened step]
      cases result with
      | error error =>
        refine ⟨follows, ?_⟩
        rcases law with ⟨_, here, spent, _⟩ | ⟨hit, silent, _⟩
        · have before := not_abreast_of_spent opened (congrArg Outlook.bytes here) more
          exact .lost rfl (astray rfl rfl spent) (absurd · before) fun _ never => by cases never
        · exact .lost rfl (astray rfl rfl silent.1) (fun _ => hit) fun _ never => by cases never
      | ok piece =>
        refine ⟨follows, ?_⟩
        have clear := Reader.clear_of_read_byte honest step
        obtain ⟨here, ends⟩ := (law.resolve_right fun disturbed => clear disturbed.1).2
        cases piece with
        | nil =>
          have finished := ends rfl
          have before := not_abreast_of_spent opened (congrArg Outlook.bytes finished) more
          have spent := congrArg Outlook.bytes (here.symm.trans finished)
          exact .lost rfl (astray rfl rfl spent) (absurd · before) fun _ same => by cases same; rfl
        | cons byte piece =>
          obtain rfl : piece = [] := by
            have fits := Reader.length_le_of_read step
            exact List.length_eq_zero_iff.1 (Nat.le_zero.1 (Nat.le_of_succ_le_succ fits))
          exact readable.taken opened here more clear

/-- What a scan comes to that has collected some bytes. It takes the bytes before the delimiter, and
moves behind it. Or the stream is not abreast any more, as it was not before or as a reading of the flag
disturbed it, and has moved by what it took only. -/
inductive Scanned (entry : Entry) (delimiter : UInt8) (collected : Bytes) (before : Checkout) :
    Except MediaError Bytes × Checkout → Prop
  | cut {result : Except MediaError Bytes} {after : Checkout}
      (all : result = .ok (collected ++ pieceOf delimiter (before.leftOf entry)))
      (moved : after.stream.entryPosition = before.stream.entryPosition
        + ((pieceOf delimiter (before.leftOf entry)).length
          + if delimiter ∈ before.leftOf entry then 1 else 0))
      (clear : ¬ before.shared.signals.Interrupted after.shared.signals)
      (abreast : before.Abreast entry) (still : after.Abreast entry) :
      Scanned entry delimiter collected before (result, after)
  | lost {result : Except MediaError Bytes} {after : Checkout} (astray : ¬ after.Abreast entry)
      (cause : before.Abreast entry → before.shared.signals.Interrupted after.shared.signals)
      (moved : ∀ piece, result = .ok piece → after.stream.entryPosition + collected.length
        = before.stream.entryPosition + piece.length) :
      Scanned entry delimiter collected before (result, after)

/-- A byte before the delimiter is taken, and what follows is scanned. -/
theorem Scanned.cons {before between : Checkout} {collected : Bytes} {byte : UInt8}
    (other : byte ≠ delimiter) (next : before.leftOf entry = byte :: between.leftOf entry)
    (step : between.stream.entryPosition = before.stream.entryPosition + 1)
    (early : before.shared.signals.Follows between.shared.signals)
    (clear : ¬ before.shared.signals.Interrupted between.shared.signals)
    (abreast : before.Abreast entry) (still : between.Abreast entry)
    {outcome : Except MediaError Bytes × Checkout}
    (late : between.shared.signals.Follows outcome.2.shared.signals)
    (scanned : Scanned entry delimiter (collected ++ [byte]) between outcome) :
    Scanned entry delimiter collected before outcome := by
  cases scanned with
  | cut all moved clear' _ still =>
    refine .cut ?_ ?_ (Signals.not_interrupted_trans early late clear clear') abreast still
    · rw [all, next, pieceOf_cons other, List.append_assoc, List.singleton_append]
    · simp only [moved, step, next, pieceOf_cons other, List.mem_cons, Ne.symm other, false_or,
        List.length_cons]
      omega
  | lost astray cause moved =>
    refine .lost astray (fun _ => (Signals.interrupted_iff early late).2 (.inr (cause still))) ?_
    intro piece same
    have found := moved piece same
    rw [step, List.length_append, List.length_singleton] at found
    omega

/-- What is not abreast before a scan is not abreast behind it. -/
theorem Scanned.of_lost {before between : Checkout} {collected : Bytes}
    (stayed : between.stream.entryPosition = before.stream.entryPosition)
    (early : before.shared.signals.Follows between.shared.signals)
    (astray : ¬ between.Abreast entry)
    (cause : before.Abreast entry → before.shared.signals.Interrupted between.shared.signals)
    {outcome : Except MediaError Bytes × Checkout}
    (late : between.shared.signals.Follows outcome.2.shared.signals)
    (scanned : Scanned entry delimiter collected between outcome) :
    Scanned entry delimiter collected before outcome := by
  cases scanned with
  | cut _ _ _ abreast _ => exact absurd abreast astray
  | lost astray' _ moved =>
    refine .lost astray' (fun abreast => ?_) (stayed ▸ moved)
    exact (Signals.interrupted_iff early late).2 (.inl (cause abreast))

/-- A scan of an entry, one read at a time. -/
theorem Readable.scanned (readable : checkout.Readable entry) (delimiter : UInt8)
    (newestFirst : Bytes) :
    Onward entry checkout (scanUntil delimiter checkout newestFirst).2 ∧
      Scanned entry delimiter newestFirst.reverse checkout
        (scanUntil delimiter checkout newestFirst) := by
  fun_induction scanUntil delimiter checkout newestFirst with
  | case1 checkout newestFirst after step =>
    obtain ⟨onward, read⟩ := readable.read_byte
    change checkout.read 1 = _ at step
    rw [step] at onward read
    refine ⟨onward, ?_⟩
    cases read with
    | ended gone =>
      have abreast : checkout.Abreast entry := .inl (leftOf_eq_nil_iff.1 gone)
      refine .cut ?_ ?_ (Signals.not_interrupted_self _) abreast abreast
      · rw [gone]
        simp [pieceOf]
      · rw [gone]
        rfl
    | lost stayed astray cause _ =>
      refine .lost astray cause fun piece same => ?_
      cases same
      rw [stayed]
  | case2 checkout newestFirst byte rest after step found =>
    obtain ⟨onward, read⟩ := readable.read_byte
    change checkout.read 1 = _ at step
    rw [step] at onward read
    refine ⟨onward, ?_⟩
    obtain rfl : byte = delimiter := eq_of_beq found
    cases read with
    | taken next moved clear abreast still =>
      refine .cut ?_ ?_ clear abreast still
      · rw [next, pieceOf_cons_self, List.append_nil]
      · rw [next, pieceOf_cons_self, moved, if_pos List.mem_cons_self]
        rfl
    | lost _ _ _ nothing => cases nothing _ rfl
  | case3 checkout newestFirst byte rest after step missed ih =>
    obtain ⟨onward, read⟩ := readable.read_byte
    change checkout.read 1 = _ at step
    rw [step] at onward read
    have other : byte ≠ delimiter := by simpa using missed
    cases read with
    | taken next moved clear abreast still =>
      obtain ⟨further, scanned⟩ := ih onward.readable
      rw [List.reverse_cons] at scanned
      exact ⟨onward.trans further,
        scanned.cons other next moved onward.follows clear abreast still
          further.follows⟩
    | lost _ _ _ nothing => cases nothing _ rfl
  | case4 checkout newestFirst after step ih =>
    obtain ⟨onward, read⟩ := readable.read_byte
    change checkout.read 1 = _ at step
    rw [step] at onward read
    obtain ⟨further, scanned⟩ := ih onward.readable
    refine ⟨onward.trans further, ?_⟩
    cases read with
    | lost stayed astray cause _ =>
      -- The scan goes on after an interruption, but the reader has nothing left for it.
      exact scanned.of_lost stayed onward.follows astray cause further.follows
  | case5 checkout newestFirst error after lasting step =>
    obtain ⟨onward, read⟩ := readable.read_byte
    change checkout.read 1 = _ at step
    rw [step] at onward read
    refine ⟨onward, ?_⟩
    cases read with
    | lost _ astray cause _ => exact .lost astray cause fun _ never => by cases never

/-- A call of the scanner. -/
theorem Readable.call (readable : checkout.Readable entry) (delimiter : UInt8) :
    Onward entry checkout (readUntil checkout delimiter).2 ∧
      Scanned entry delimiter [] checkout (readUntil checkout delimiter) :=
  readable.scanned delimiter []

theorem Readable.position_eq (readable : checkout.Readable entry) :
    checkout.position = checkout.stream.entryPosition := by
  rw [position, readable.chosen]

/-- One call takes the next piece exactly if the stream is abreast and no reading of the flag disturbs
it. A call that loses bytes may still come to the last piece, but does not move behind it. -/
theorem Readable.readsPiece_iff (readable : checkout.Readable entry) (delimiter : UInt8) :
    ReadsPiece position delimiter checkout (checkout.leftOf entry) ↔
      checkout.Abreast entry ∧ ¬ checkout.shared.signals.Interrupted
        (readUntil checkout delimiter).2.shared.signals := by
  obtain ⟨onward, scanned⟩ := readable.call delimiter
  have here := readable.position_eq
  have there := onward.readable.position_eq
  unfold ReadsPiece
  generalize readUntil checkout delimiter = outcome at *
  cases scanned with
  | cut all moved clear abreast still =>
    refine iff_of_true ⟨_, by rw [all, List.nil_append], ?_⟩ ⟨abreast, clear⟩
    rw [there, moved, here, Nat.add_assoc]
  | lost astray cause moved =>
    constructor
    · rintro ⟨after, found, placed⟩
      cases found
      have stayed := moved _ rfl
      dsimp only at there
      rw [there, here] at placed
      rw [List.length_nil] at stayed
      have absent : delimiter ∉ checkout.leftOf entry := by
        intro present
        rw [if_pos present] at placed
        omega
      have whole := ((cut_cases delimiter _).resolve_right fun both => absent both.1).2.1
      rw [whole, leftOf, List.length_drop] at stayed
      refine absurd (.inl ?_) astray
      rw [onward.image]
      omega
    · rintro ⟨abreast, clear⟩
      exact absurd (cause abreast) clear

/-- At the end of the entry a call finds nothing and does nothing. -/
theorem Readable.call_ended (readable : checkout.Readable entry) (gone : checkout.leftOf entry = [])
    (delimiter : UInt8) : readUntil checkout delimiter = (.ok [], checkout) := by
  have ended : ByteSource.read checkout 1 = (.ok [], checkout) := readable.read_ended gone 1
  rw [readUntil, scanUntil, ended]
  rfl

theorem Readable.afterCalls (readable : checkout.Readable entry) (delimiter : UInt8) (calls : Nat) :
    Onward entry checkout (ByteSource.afterCalls delimiter calls checkout) := by
  induction calls generalizing checkout with
  | zero => exact readable.onward
  | succ calls ih =>
    obtain ⟨onward, _⟩ := readable.call delimiter
    exact onward.trans (ih onward.readable)

/-- No reading of the flag disturbs the calls, however many there are. -/
def Undisturbed (delimiter : UInt8) (checkout : Checkout) : Prop :=
  ∀ calls, ¬ checkout.shared.signals.Interrupted
    (ByteSource.afterCalls delimiter calls checkout).shared.signals

theorem Readable.undisturbed_of_ended (readable : checkout.Readable entry)
    (gone : checkout.leftOf entry = []) (delimiter : UInt8) : checkout.Undisturbed delimiter := by
  intro calls
  have same : ByteSource.afterCalls delimiter calls checkout = checkout := by
    induction calls with
    | zero => rfl
    | succ calls ih => rw [ByteSource.afterCalls, readable.call_ended gone, ih]
  rw [same]
  exact Signals.not_interrupted_self _

/-- The calls are undisturbed if the first one is and the ones after it are. -/
theorem Readable.undisturbed_iff (readable : checkout.Readable entry) (delimiter : UInt8) :
    checkout.Undisturbed delimiter ↔
      ¬ checkout.shared.signals.Interrupted (readUntil checkout delimiter).2.shared.signals ∧
        (readUntil checkout delimiter).2.Undisturbed delimiter := by
  obtain ⟨early, _⟩ := readable.call delimiter
  have both (calls : Nat) := Signals.interrupted_iff early.follows
    (early.readable.afterCalls delimiter calls).follows
  constructor
  · intro undisturbed
    exact ⟨undisturbed 1, fun calls hit => undisturbed (calls + 1) ((both calls).2 (.inr hit))⟩
  · rintro ⟨clear, undisturbed⟩ calls
    cases calls with
    | zero => exact Signals.not_interrupted_self _
    | succ calls => exact fun hit => ((both calls).1 hit).elim clear (undisturbed calls)

/-- Calls that come to the end of the entry were undisturbed, on a stream that was abreast. The
induction is on the calls from the last one back: where they end the stream is abreast, and a call that
loses bytes leaves it astray. -/
theorem Readable.of_splits {pieces : List Bytes} (readable : checkout.Readable entry)
    (splits : Splits isExhausted delimiter checkout pieces) :
    checkout.Abreast entry ∧ checkout.Undisturbed delimiter := by
  induction splits with
  | done ended =>
    have gone := readable.isExhausted_iff.1 ended
    exact ⟨.inl (leftOf_eq_nil_iff.1 gone), readable.undisturbed_of_ended gone delimiter⟩
  | step going read rest ih =>
    obtain ⟨onward, scanned⟩ := readable.call delimiter
    have law := readable.undisturbed_iff delimiter
    rw [read] at onward scanned law
    obtain ⟨still, undisturbed⟩ := ih onward.readable
    cases scanned with
    | cut _ _ clear abreast _ => exact ⟨abreast, law.2 ⟨clear, undisturbed⟩⟩
    | lost astray _ _ => exact absurd still astray

/-- These bytes of the entry are ahead of a stream that nothing keeps from them. -/
structure EntryAhead (entry : Entry) (delimiter : UInt8) (checkout : Checkout) (bytes : Bytes) :
    Prop where
  readable : checkout.Readable entry
  left : checkout.leftOf entry = bytes
  abreast : checkout.Abreast entry
  undisturbed : checkout.Undisturbed delimiter

theorem cuts (entry : Entry) (delimiter : UInt8) :
    Cuts isExhausted delimiter (EntryAhead entry delimiter) where
  exhausted_iff := by
    rintro checkout _ ⟨readable, rfl, _, _⟩
    exact readable.isExhausted_iff
  piece := by
    rintro checkout _ ⟨readable, rfl, abreast, undisturbed⟩ _
    obtain ⟨onward, scanned⟩ := readable.call delimiter
    obtain ⟨clear, undisturbed⟩ := (readable.undisturbed_iff delimiter).1 undisturbed
    generalize readUntil checkout delimiter = outcome at *
    cases scanned with
    | cut all moved _ _ still =>
      refine ⟨_, by rw [all, List.nil_append], onward.readable, ?_, still, undisturbed⟩
      dsimp only at onward
      rw [leftOf, onward.image, moved, ← List.drop_drop]
      exact drop_cut delimiter (checkout.leftOf entry)
    | lost _ cause _ => exact absurd (cause abreast) clear

/-- The calls come to the pieces of the entry exactly if the stream is abreast and nothing disturbs
them. -/
theorem Readable.splitsInto_iff (readable : checkout.Readable entry) (delimiter : UInt8) :
    SplitsInto isExhausted delimiter checkout (checkout.leftOf entry) ↔
      checkout.Abreast entry ∧ checkout.Undisturbed delimiter := by
  constructor
  · rintro ⟨pieces, splits, _⟩
    exact readable.of_splits ((splits pieces).2 rfl)
  · rintro ⟨abreast, undisturbed⟩
    exact (cuts entry delimiter).splitsInto ⟨readable, rfl, abreast, undisturbed⟩

end Entries

/-- The scanner cuts what it reads at the delimiters, wherever it stands. So it does on a cursor, on the
raw container and, as long as the flag stays clear, in every entry that can be read as far as its size
says. Whatever the flag does, one call takes its piece exactly if the stream was in step and no reading
of the flag disturbed it, calls take all the pieces exactly if nothing disturbed any of them, and calls
that come to the end of the entry have taken all of it. Every scan ends. -/
theorem scanning_cuts_at_delimiters (delimiter : UInt8) :
    (∀ cursor : Cursor,
      ReadsPiece Cursor.position delimiter cursor
          (cursor.container.toBytes.drop cursor.position) ∧
        SplitsInto Cursor.isExhausted delimiter cursor
          (cursor.container.toBytes.drop cursor.position)) ∧
      (∀ checkout : Checkout, checkout.stream.selected = none →
        ReadsPiece position delimiter checkout
            (checkout.image.container.toBytes.drop checkout.position) ∧
          SplitsInto isExhausted delimiter checkout
            (checkout.image.container.toBytes.drop checkout.position)) ∧
      (∀ (url : String) (container : Container) (format : Option Format) (limits : Limits)
          (image : Image), Image.open url container format limits = .ok image →
        ∀ (shared : Shared) (events : List Event) (entry : Entry),
          let checkout := meetAll { image, shared } events
          let rest := (image.bytesOf entry).drop checkout.position
          checkout.stream.selected = some entry → (image.bytesOf entry).length = entry.size →
          (shared.signals.Calm → (∀ event ∈ events, event.Calm) →
            ReadsPiece position delimiter checkout rest ∧
              SplitsInto isExhausted delimiter checkout rest) ∧
          (ReadsPiece position delimiter checkout rest ↔
            checkout.InStep entry ∧ ¬ checkout.shared.signals.Interrupted
              (readUntil checkout delimiter).2.shared.signals) ∧
          (SplitsInto isExhausted delimiter checkout rest ↔
            checkout.InStep entry ∧ checkout.Undisturbed delimiter) ∧
          ∀ pieces, Splits isExhausted delimiter checkout pieces → Joins delimiter rest pieces) ∧
      (∀ reader : Reader × Signals, ScanEnds delimiter reader) ∧
      (∀ cursor : Cursor, ScanEnds delimiter cursor) ∧
      ∀ checkout : Checkout, ScanEnds delimiter checkout := by
  refine ⟨fun cursor => cursor.scans delimiter, fun checkout raw => scans_raw raw delimiter, ?_,
    scanEnds delimiter, scanEnds delimiter, scanEnds delimiter⟩
  intro url container format limits image opened shared events entry
  have regular := Image.regular_of_open opened
  have start : Standing image { image, shared } := ⟨rfl, fun _ never => by cases never⟩
  have standing := (invariant_standing regular).meetAll start events
  have unhindered (calm : shared.signals.Calm) := unhindered_meetAll regular calm events
  generalize meetAll { image, shared } events = checkout at *
  intro checkout rest chosen complete
  obtain ⟨rfl, paced⟩ := standing
  have readable : checkout.Readable entry := ⟨chosen, paced entry chosen, complete⟩
  have left : rest = checkout.leftOf entry := by rw [leftOf, ← readable.position_eq]
  have piece := readable.readsPiece_iff delimiter
  have pieces := readable.splitsInto_iff delimiter
  rw [(paced entry chosen).inStep_iff chosen, left]
  refine ⟨fun calm clear => ?_, piece, pieces, fun found splits => ?_⟩
  · obtain ⟨_, still, abreast⟩ := unhindered calm clear
    have here := abreast entry chosen complete
    exact ⟨piece.2 ⟨here, still.not_interrupted⟩, pieces.2 ⟨here, fun _ => still.not_interrupted⟩⟩
  · obtain ⟨all, unique, joins⟩ := pieces.2 (readable.of_splits splits)
    rwa [(unique found).1 splits]

section BriefDisk

open Disk (ChainReader ChainWalk SectorSource sectorVolume briefDisk briefSlot briefSource)

/-- The file of the disk with one short file. -/
def briefEntry : Entry := { slotEntry 1 briefSlot with size := 5 }

/-- The reader of this file. -/
def briefReader : Reader := .chain (ChainReader.start (sectorVolume briefDisk).source ⟨1, 0⟩ {})

theorem outlook_briefReader : briefReader.outlook .quiet = ⟨[1, 2, 3, 4, 5], none⟩ := by
  rw [briefReader, Disk.source_briefDisk, Reader.outlook, ChainReader.outlook, ChainReader.start]
  dsimp only
  rw [ChainReader.ahead, if_neg (by decide), ChainWalk.sectors_of_ok rfl,
    ChainWalk.sectors_of_over rfl]
  rfl

theorem bytesOf_briefEntry : briefImage.bytesOf briefEntry = [1, 2, 3, 4, 5] := by
  have opened : briefImage.handler.openEntry briefEntry briefImage.limits = .ok briefReader := rfl
  rw [Image.bytesOf_eq, Image.outlookOf, opened]
  dsimp only
  rw [outlook_briefReader]
  rfl

/-- A stream that has selected the file. -/
def briefStream : Checkout where
  image := briefImage
  shared := { table := some [briefEntry] }
  stream := { selected := some briefEntry }

theorem meetAll_briefImage :
    meetAll { image := briefImage } [.inquiry (.request (.seekIndex 1))] = briefStream := by
  have listed : briefImage.handler.entries { bound := some 4096 }
      = .ok [briefEntry] { count := 1, bound := some 4096 } := by
    change (sectorVolume briefDisk).entries { bound := some 4096 } = _
    rw [← Disk.Volume.map_survey, Walk.run_map, Disk.survey_briefDisk]
    rfl
  have start : ({ image := briefImage } : Checkout).shared.table = none := rfl
  have shown := entries_of_listed start listed
  have chosen : seekIndex 1 { image := briefImage } = .ok briefEntry briefStream :=
    seekIndex_of_entries shown 0
  rw [meetAll, List.foldl_cons, List.foldl_nil, meet, Checkout.answer, serve, chosen]
  rfl

/-- A delimiter in the file splits it in two, and the raw container is split as well. -/
theorem scanning_cuts_at_delimiters_of_disk :
    (∃ after pieces, readUntil briefStream 3 = (.ok [1, 2], after) ∧ after.position = 3 ∧
        Splits isExhausted 3 briefStream pieces ∧ Joins 3 [1, 2, 3, 4, 5] pieces) ∧
      SplitsInto isExhausted 3 { image := briefImage } briefImage.container.toBytes := by
  obtain ⟨_, raw, entries, _⟩ := scanning_cuts_at_delimiters 3
  have chosen : (meetAll { image := briefImage } [.inquiry (.request (.seekIndex 1))]
      ).stream.selected = some briefEntry := by
    rw [meetAll_briefImage]
    rfl
  have complete : (briefImage.bytesOf briefEntry).length = briefEntry.size := by
    rw [bytesOf_briefEntry]
    rfl
  obtain ⟨calm, _, _, joined⟩ := entries _ _ _ _ _ open_briefImage {}
    [.inquiry (.request (.seekIndex 1))] briefEntry chosen complete
  obtain ⟨⟨after, read, moved⟩, pieces, splits, _⟩ :=
    calm Signals.calm_quiet fun event member => by cases List.mem_singleton.1 member; trivial
  have start : briefStream.position = 0 := rfl
  rw [meetAll_briefImage, start, bytesOf_briefEntry, List.drop_zero] at read moved joined
  rw [meetAll_briefImage] at splits
  have all := (splits pieces).2 rfl
  exact ⟨⟨after, pieces, read, moved, all, joined pieces all⟩, (raw { image := briefImage } rfl).2⟩

/-- A flag that is set at its first reading and never again. -/
def raisedOnce : Signals := { cancel := some (· == 0) }

theorem outlook_briefReader_of_raisedOnce :
    briefReader.outlook raisedOnce = ⟨[], some .cancelled⟩ := by
  rw [briefReader, Disk.source_briefDisk, Reader.outlook, ChainReader.outlook, ChainReader.start]
  dsimp only
  rw [ChainReader.ahead, if_neg (by decide), ChainWalk.sectors_of_error rfl]
  rfl

/-- The stream that has selected the file, under this flag. -/
def interruptedStream : Checkout :=
  { briefStream with shared := { table := some [briefEntry], signals := raisedOnce } }

theorem meetAll_briefImage_of_raisedOnce :
    meetAll { image := briefImage } [.inquiry (.request (.seekIndex 1)),
      .shared { table := some [briefEntry], signals := raisedOnce }] = interruptedStream := by
  have first := meetAll_briefImage
  rw [meetAll, List.foldl_cons, List.foldl_nil] at first
  rw [meetAll, List.foldl_cons, List.foldl_cons, List.foldl_nil, first]
  rfl

theorem readable_interruptedStream : interruptedStream.Readable briefEntry where
  chosen := rfl
  paced := (paced_start interruptedStream (Image.regular_of_open open_briefImage) rfl rfl briefEntry).1
  complete := by
    change (briefImage.bytesOf briefEntry).length = 5
    rw [bytesOf_briefEntry]
    rfl

theorem leftOf_interruptedStream : interruptedStream.leftOf briefEntry = [1, 2, 3, 4, 5] := by
  change (briefImage.bytesOf briefEntry).drop 0 = _
  rw [bytesOf_briefEntry]
  rfl

theorem readUntil_interruptedStream : ∃ after, readUntil interruptedStream 3 = (.ok [], after) := by
  have sound : interruptedStream.Sound := fun _ never => by cases never
  have opened : interruptedStream.readerOf briefEntry = .ok briefReader := rfl
  have ahead : interruptedStream.outlook = (briefReader.outlook raisedOnce).clip 5 :=
    outlook_reader rfl opened
  rw [outlook_briefReader_of_raisedOnce] at ahead
  obtain ⟨after, read, _⟩ := foretells.delivers.scanUntil_eq 3 interruptedStream []
    ⟨sound, congrArg Outlook.bytes ahead, congrArg Outlook.lasting ahead⟩
  exact ⟨after, read⟩

/-- The first read of a call is interrupted, and no other one is. The call finds nothing where two bytes
stand before the delimiter, the stream stays where it is, and no number of calls comes to the end of the
file. -/
theorem scanning_finds_nothing :
    ∃ image entry events checkout after,
      Image.open "disk" (Disk.Geometry.track35.imageOf briefDisk) (some .d64) {} = .ok image ∧
      checkout = meetAll { image } events ∧ checkout.stream.selected = some entry ∧
      image.bytesOf entry = [1, 2, 3, 4, 5] ∧ entry.size = 5 ∧ checkout.position = 0 ∧
      readUntil checkout 3 = (.ok [], after) ∧ after.position = 0 ∧
      ¬ ReadsPiece position 3 checkout [1, 2, 3, 4, 5] ∧
      ∀ pieces, ¬ Splits isExhausted 3 checkout pieces := by
  obtain ⟨after, read⟩ := readUntil_interruptedStream
  have readable := readable_interruptedStream
  obtain ⟨onward, scanned⟩ := readable.call 3
  have fails : ¬ ReadsPiece position 3 interruptedStream [1, 2, 3, 4, 5] := by
    rintro ⟨_, found, _⟩
    cases read.symm.trans found
  have stayed : after.position = 0 := by
    rw [read] at onward scanned
    rw [onward.readable.position_eq]
    cases scanned with
    | cut all =>
      rw [leftOf_interruptedStream] at all
      cases all
    | lost _ _ moved => exact moved [] rfl
  refine ⟨briefImage, briefEntry, _, interruptedStream, after, open_briefImage,
    meetAll_briefImage_of_raisedOnce.symm, rfl, bytesOf_briefEntry, rfl, rfl, read, stayed, fails,
    fun pieces splits => fails ?_⟩
  obtain ⟨abreast, undisturbed⟩ := readable.of_splits splits
  have whole := (readable.readsPiece_iff 3).2 ⟨abreast, undisturbed 1⟩
  rwa [leftOf_interruptedStream] at whole

end BriefDisk

end RetroMedia.Checkout
