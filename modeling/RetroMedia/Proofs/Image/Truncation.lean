import RetroMedia.Proofs.Disk.Truncation
import RetroMedia.Proofs.Image.Outlook

/-! Streams of disks under a cancellation flag. The stream keeps the reader that an interruption cut
off, so what it reads on is missing the rest of the chain, until a step back opens a new reader. -/
namespace RetroMedia

/-- A prefix that reaches to a position is followed by the bytes from there on. -/
theorem take_of_prefix {whole got bytes : Bytes} {position : Nat} (here : got = whole.take position)
    (prefixed : got ++ bytes <+: whole) : got ++ bytes = whole.take (position + bytes.length) := by
  have fits := prefixed.length_le
  have size : got.length = min position whole.length := by rw [here, List.length_take]
  rw [List.length_append] at fits
  by_cases inside : position ≤ whole.length
  · have same := List.prefix_iff_eq_take.1 prefixed
    rwa [List.length_append, size, Nat.min_eq_left inside] at same
  · have nothing : bytes = [] := List.length_eq_zero_iff.1 (by omega)
    rw [nothing, here]
    simp

namespace Disk.ChainReader

theorem Stands.prefix {chain : List ChainSector} {got : Bytes} {disturbed : Prop}
    {reader : ChainReader} (stands : reader.Stands chain got disturbed) : got <+: payload chain := by
  rcases stands with ⟨_, intact⟩ | ⟨_, cut⟩
  · obtain ⟨past, split, passed⟩ := intact.passed
    refine ⟨reader.block ++ payload reader.walk.course.1, ?_⟩
    rw [← List.append_assoc, passed, ← payload_append, ← split]
  · obtain ⟨past, lost, split, _, passed⟩ := cut.lost
    exact ⟨payload lost, by rw [split, payload_append, passed]⟩

/-- Where the reader of an entry stands after some reads that began under the signals `start`. -/
private def KeptSince (chain : List ChainSector) (disturbed : Prop) (start : Signals)
    (state : Reader × Signals) (got : Bytes) : Prop :=
  ∃ reader, state.1 = .chain reader ∧ Since chain disturbed start (reader, state.2) got

private theorem keptSince_read {chain : List ChainSector} {disturbed : Prop} {start : Signals}
    (state : Reader × Signals) (got : Bytes) (count : Nat)
    (kept : KeptSince chain disturbed start state got) :
    KeptSince chain disturbed start (ByteSource.read state count).2
      (got ++ ByteSource.delivered (ByteSource.read state count).1) := by
  obtain ⟨_, signals⟩ := state
  obtain ⟨reader, rfl, since⟩ := kept
  exact ⟨_, rfl, since.read (reader, signals) got count⟩

/-- Gathering takes a reader as far as is asked, or to the end of what it will deliver. -/
theorem Stands.gather {chain : List ChainSector} {got : Bytes} {disturbed : Prop}
    {reader : ChainReader} (stands : reader.Stands chain got disturbed) (wanted : Nat)
    (signals : Signals) :
    ∃ bytes after signals', ByteSource.gather (Reader.chain reader, signals) wanted
        = (bytes, none, .chain after, signals') ∧
      signals.Follows signals' ∧ bytes.length ≤ wanted ∧
      after.Stands chain (got ++ bytes) (disturbed ∨ signals.Interrupted signals') ∧
      (¬ (disturbed ∨ signals.Interrupted signals') →
        bytes.length = wanted ∨ got ++ bytes = payload chain) := by
  have lasting := stands.lasting signals
  obtain ⟨failure, ⟨last, signals'⟩, step, _, law⟩ :=
    Reader.foretells.gather_cases (Reader.chain reader, signals) wanted stands.sound
  have quiet : failure = none := by
    rcases law with ⟨_, quiet, _⟩ | ⟨_, failed, _⟩
    · exact quiet
    · exact failed.trans lasting
  have kept := ByteSource.gather_invariant keptSince_read (Reader.chain reader, signals) wanted got
    ⟨reader, rfl, stands.since signals⟩
  rw [step] at kept
  obtain ⟨after, same, follows, onward⟩ := kept
  cases same
  subst quiet
  refine ⟨_, after, signals', step, follows, List.length_take_le .., onward, fun calm => ?_⟩
  rcases law with ⟨enough, _⟩ | ⟨_, _, spent⟩
  · exact .inl (List.length_take_of_le enough)
  · rcases onward with ⟨_, intact⟩ | ⟨stopped, _⟩
    · exact .inr (intact.spent (spent rfl))
    · exact absurd stopped calm

end Disk.ChainReader

namespace Checkout

open Disk (ChainSector ChainReader payload)
open ByteSource (delivered)

/-- An entry of a disk whose chain can be walked to its end. -/
structure Chained (image : Image) (entry : Entry) (chain : List ChainSector) : Prop where
  opens : ∃ volume location, image.handler = .disk volume ∧ entry.location = some location ∧
    volume.source.Honest ∧
    (Disk.ChainWalk.start volume.source location image.limits).course = (chain, none)

/-- A stream of such an entry: its reader has delivered `got`, of which `since` came from behind
`origin`. -/
structure Reads (image : Image) (entry : Entry) (chain : List ChainSector) (origin : Nat)
    (since : Bytes) (disturbed : Prop) (checkout : Checkout) : Prop where
  image : checkout.image = image
  chosen : checkout.stream.selected = some entry
  bounded : checkout.stream.entryPosition ≤ entry.size
  reader : ∃ reader got, checkout.readerOf entry = .ok (.chain reader) ∧
    reader.Stands chain got disturbed ∧ since = got.drop origin ∧
    got.length ≤ checkout.stream.entryPosition ∧
    (¬ disturbed → got = (payload chain).take checkout.stream.entryPosition)

variable {image : Image} {entry : Entry} {chain : List ChainSector} {origin : Nat} {since : Bytes}
  {disturbed : Prop} {checkout : Checkout}

/-- A selection without a reader is at its beginning. -/
theorem reads_fresh (chained : Chained image entry chain) (same : checkout.image = image)
    (chosen : checkout.stream.selected = some entry) (unopened : checkout.stream.reader = none)
    (start : checkout.stream.entryPosition = 0) :
    checkout.Reads image entry chain 0 [] False := by
  obtain ⟨volume, location, disk, place, honest, course⟩ := chained.opens
  refine ⟨same, chosen, by omega, ChainReader.start volume.source location image.limits, [], ?_, ?_,
    rfl, Nat.zero_le _, ?_⟩
  · rw [readerOf, unopened]
    dsimp only
    rw [same, disk]
    simp only [Handler.openEntry, Disk.Volume.openEntry, place]
  · exact .inl ⟨not_false, ChainReader.intact_start honest course⟩
  · intro _
    rw [start]
    rfl

theorem Reads.position_eq (reads : checkout.Reads image entry chain origin since disturbed) :
    checkout.position = checkout.stream.entryPosition := by
  rw [position, reads.chosen]

theorem Reads.size_eq (reads : checkout.Reads image entry chain origin since disturbed) :
    checkout.size = entry.size := by
  rw [size, reads.chosen]

theorem Reads.available_eq (reads : checkout.Reads image entry chain origin since disturbed) :
    checkout.available = entry.size - checkout.stream.entryPosition := by
  rw [available, reads.size_eq, reads.position_eq]

/-- Counting starts anew at the position of the stream. -/
theorem Reads.rebase (reads : checkout.Reads image entry chain origin since disturbed) :
    checkout.Reads image entry chain checkout.stream.entryPosition [] disturbed := by
  obtain ⟨reader, got, opened, stands, _, short, intact⟩ := reads.reader
  exact ⟨reads.image, reads.chosen, reads.bounded, reader, got, opened, stands,
    (List.drop_eq_nil_of_le short).symm, short, intact⟩

theorem Reads.iff {disturbed' : Prop} (same : disturbed ↔ disturbed')
    (reads : checkout.Reads image entry chain origin since disturbed) :
    checkout.Reads image entry chain origin since disturbed' := by
  rwa [propext same] at reads

/-- Bytes that a reader delivers go on from where it stands. -/
private theorem counted_on {after : ChainReader} {got bytes : Bytes} {position : Nat}
    {disturbed' : Prop} (passed : origin ≤ position)
    (intact : ¬ disturbed → got = (payload chain).take position)
    (silent : disturbed → bytes = []) (onward : after.Stands chain (got ++ bytes) disturbed') :
    got.drop origin ++ bytes = (got ++ bytes).drop origin := by
  by_cases nothing : bytes = []
  · simp [nothing]
  · have calm : ¬ disturbed := fun stopped => nothing (silent stopped)
    have here := intact calm
    have size : got.length = min position (payload chain).length := by rw [here, List.length_take]
    have fits := onward.prefix.length_le
    have some := List.length_pos_iff.2 nothing
    rw [List.length_append] at fits
    rw [List.drop_append_of_le_length (by omega)]

/-- Where a stream stands behind some bytes of its reader, at a position that they reach. -/
private theorem moved {after : ChainReader} {got bytes : Bytes} {position : Nat}
    {disturbed' : Prop} {signals : Signals}
    (reads : checkout.Reads image entry chain origin since disturbed) {origin' : Nat}
    {since' : Bytes} (counted : since' = (got ++ bytes).drop origin')
    (short : (got ++ bytes).length ≤ position) (fits : position ≤ entry.size)
    (onward : after.Stands chain (got ++ bytes) disturbed')
    (intact : ¬ disturbed' → got ++ bytes = (payload chain).take position) :
    ((checkout.keepReader (.chain after) signals).atEntryPosition position).Reads image entry chain
      origin' since' disturbed' :=
  ⟨reads.image, reads.chosen, fits, after, got ++ bytes, rfl, onward, counted, short, intact⟩

/-- What a stream reads is what its reader delivers, and is disturbed with it. -/
theorem Reads.read (reads : checkout.Reads image entry chain origin since disturbed)
    (passed : origin ≤ checkout.stream.entryPosition) (count : Nat) :
    ∃ result after, checkout.read count = (result, after) ∧
      checkout.shared.signals.Follows after.shared.signals ∧
      origin ≤ after.stream.entryPosition ∧
      after.Reads image entry chain origin (since ++ delivered result)
        (disturbed ∨ checkout.shared.signals.Interrupted after.shared.signals) := by
  obtain ⟨reader, got, opened, stands, counted, short, intact⟩ := reads.reader
  rw [Checkout.read, reads.chosen]
  dsimp only
  unfold readEntry
  dsimp only
  by_cases idle : min count checkout.available = 0
  · rw [if_pos idle]
    refine ⟨_, _, rfl, .refl _, passed, ?_⟩
    simpa [delivered] using reads.iff (Signals.or_interrupted_self checkout.shared.signals)
  · rw [if_neg idle, opened]
    have room := reads.available_eq
    obtain ⟨result, after, signals, step, follows, silent, onward⟩ :=
      stands.read (min count checkout.available) checkout.shared.signals
    have law := ChainReader.foretells (reader, checkout.shared.signals)
      (min count checkout.available) stands.sound (by omega)
    change ByteSource.Consumes _ _ _ _ (reader.read _ _) at law
    have on := counted_on passed intact silent onward
    rw [← counted] at on
    simp only [Reader.read, step]
    rw [step] at law
    cases result with
    | ok bytes =>
      obtain ⟨_, fits, _⟩ := law
      have size : (got ++ bytes).length ≤ checkout.stream.entryPosition + bytes.length := by
        rw [List.length_append]
        omega
      refine ⟨_, _, rfl, follows, Nat.le_trans passed (Nat.le_add_right _ _), ?_⟩
      refine moved reads on size (by omega) onward fun calm => ?_
      exact take_of_prefix (intact fun stopped => calm (.inl stopped)) onward.prefix
    | error error =>
      refine ⟨_, _, rfl, follows, passed, ?_⟩
      refine moved reads on (by simpa [delivered] using short) reads.bounded onward fun calm => ?_
      simpa [delivered] using intact fun stopped => calm (.inl stopped)

/-- Skipping forward takes the reader along, as far as it goes. -/
theorem Reads.skipTo (reads : checkout.Reads image entry chain origin since disturbed)
    {target : Nat} (forward : checkout.stream.entryPosition ≤ target) (fits : target ≤ entry.size) :
    ∃ after, checkout.skipTo entry target = (.ok (), after) ∧
      checkout.shared.signals.Follows after.shared.signals ∧
      after.stream.entryPosition = target ∧
      after.Reads image entry chain target []
        (disturbed ∨ checkout.shared.signals.Interrupted after.shared.signals) := by
  obtain ⟨reader, got, opened, stands, _, short, intact⟩ := reads.reader
  unfold Checkout.skipTo
  dsimp only
  by_cases idle : target - checkout.stream.entryPosition = 0
  · have here : checkout.stream.entryPosition = target := by omega
    subst here
    rw [if_pos idle]
    exact ⟨_, rfl, .refl _, rfl, reads.rebase.iff (Signals.or_interrupted_self _)⟩
  · obtain ⟨bytes, after, signals, step, follows, size, onward, law⟩ :=
      stands.gather (target - checkout.stream.entryPosition) checkout.shared.signals
    rw [if_neg idle, opened]
    dsimp only
    rw [step]
    have reach : (got ++ bytes).length ≤ target := by
      rw [List.length_append]
      omega
    refine ⟨_, rfl, follows, rfl, ?_⟩
    refine moved reads (List.drop_eq_nil_of_le reach).symm reach fits onward fun calm => ?_
    have on := take_of_prefix (intact fun stopped => calm (.inl stopped)) onward.prefix
    rcases law calm with all | spent
    · rw [on, all]
      congr 1
      omega
    · rw [spent] at reach ⊢
      exact (List.take_of_length_le reach).symm

/-- A seek goes on with the reader, or opens a new one to go back. -/
theorem Reads.seek (reads : checkout.Reads image entry chain origin since disturbed)
    (chained : Chained image entry chain) (target : Seek) :
    ∃ result after, checkout.seek target = (result, after) ∧
      checkout.shared.signals.Follows after.shared.signals ∧
      after.Reads image entry chain after.stream.entryPosition []
        ((¬ after.position < checkout.position ∧ disturbed) ∨
          checkout.shared.signals.Interrupted after.shared.signals) := by
  have here := reads.position_eq
  unfold Checkout.seek
  cases resolved : target.resolve checkout.position checkout.size with
  | error error =>
    refine ⟨_, _, rfl, .refl _, reads.rebase.iff ⟨fun stopped => .inl ⟨by omega, stopped⟩, ?_⟩⟩
    rintro (⟨_, stopped⟩ | never)
    · exact stopped
    · exact absurd never (Signals.not_interrupted_self _)
  | ok goal =>
    have fits : goal ≤ entry.size := reads.size_eq ▸ Seek.resolve_le resolved
    dsimp only
    rw [reads.chosen]
    dsimp only
    unfold seekInEntry
    by_cases back : goal < checkout.stream.entryPosition
    · rw [if_pos back]
      let reopened : Checkout :=
        { checkout with stream := { checkout.stream with reader := none, entryPosition := 0 } }
      have fresh : reopened.Reads image entry chain 0 [] False :=
        reads_fresh chained reads.image reads.chosen rfl rfl
      obtain ⟨after, step, follows, there, onward⟩ := fresh.skipTo (Nat.zero_le goal) fits
      have at' : after.position = goal := onward.position_eq.trans there
      rw [step]
      refine ⟨_, _, rfl, follows, there ▸ onward.iff ⟨?_, ?_⟩⟩
      · rintro (never | hit)
        · exact never.elim
        · exact .inr hit
      · rintro (⟨ahead, _⟩ | hit)
        · exact absurd (by omega) ahead
        · exact .inr hit
    · rw [if_neg back]
      obtain ⟨after, step, follows, there, onward⟩ := reads.skipTo (Nat.le_of_not_lt back) fits
      have at' : after.position = goal := onward.position_eq.trans there
      rw [step]
      refine ⟨_, _, rfl, follows, there ▸ onward.iff ⟨?_, ?_⟩⟩
      · rintro (stopped | hit)
        · exact .inl ⟨by omega, stopped⟩
        · exact .inr hit
      · rintro (⟨_, stopped⟩ | hit)
        · exact .inl stopped
        · exact .inr hit

/-- A stream in use since an entry was selected, with the spans of the signals in which its reader
was read. A step back begins with a new reader. -/
inductive Using (image : Image) (entry : Entry) : Checkout → List (Signals × Signals) → Prop
  | selected {checkout : Checkout} (same : checkout.image = image)
      (chosen : checkout.stream.selected = some entry) (unopened : checkout.stream.reader = none)
      (start : checkout.stream.entryPosition = 0) : Using image entry checkout []
  | read {before after : Checkout} {spans : List (Signals × Signals)} {count : Nat}
      {result : Except MediaError Bytes} (held : Using image entry before spans)
      (step : before.read count = (result, after)) :
      Using image entry after ((before.shared.signals, after.shared.signals) :: spans)
  | seek {before after : Checkout} {spans : List (Signals × Signals)} {target : Seek}
      {result : Except MediaError Nat} (held : Using image entry before spans)
      (step : before.seek target = (result, after)) :
      Using image entry after ((before.shared.signals, after.shared.signals)
        :: if after.position < before.position then [] else spans)
  /-- Whatever else goes on with the image, its signals and the rest of the stream. -/
  | meanwhile {before after : Checkout} {spans : List (Signals × Signals)}
      (held : Using image entry before spans) (same : after.image = before.image)
      (chosen : after.stream.selected = before.stream.selected)
      (reader : after.stream.reader = before.stream.reader)
      (position : after.stream.entryPosition = before.stream.entryPosition) :
      Using image entry after spans

open Disk.ChainReader (Disturbed disturbed_cons)

theorem Using.reads {spans : List (Signals × Signals)} (held : Using image entry checkout spans)
    (chained : Chained image entry chain) :
    checkout.Reads image entry chain checkout.stream.entryPosition [] (Disturbed spans) := by
  induction held with
  | selected same chosen unopened start =>
    rw [start]
    exact (reads_fresh chained same chosen unopened start).iff (by simp [Disturbed])
  | read held step ih =>
    obtain ⟨_, _, same, _, _, onward⟩ := ih.read (Nat.le_refl _) _
    rw [step] at same
    cases same
    exact onward.rebase.iff disturbed_cons.symm
  | seek held step ih =>
    obtain ⟨_, _, same, _, onward⟩ := ih.seek chained _
    rw [step] at same
    cases same
    refine onward.iff (disturbed_cons.trans ?_).symm
    split
    · rename_i back
      simp [Disturbed, back]
    · rename_i ahead
      simp [ahead]
  | meanwhile held same chosen reader position ih =>
    obtain ⟨chain', got, opened, stands, counted, short, intact⟩ := ih.reader
    rw [position]
    refine ⟨same.trans ih.image, chosen.trans ih.chosen, position ▸ ih.bounded, chain', got, ?_,
      stands, counted, position ▸ short, position ▸ intact⟩
    rw [← opened, readerOf, readerOf, reader, same]

theorem Reads.sound (reads : checkout.Reads image entry chain origin since disturbed) :
    checkout.Sound := by
  obtain ⟨reader, got, opened, stands, _⟩ := reads.reader
  intro held same
  rw [readerOf, same] at opened
  cases opened
  exact stands.sound

/-- Whoever retries interruptions sees no failure. -/
theorem Reads.lasting (reads : checkout.Reads image entry chain origin since disturbed) :
    checkout.outlook.lasting = none := by
  obtain ⟨reader, got, opened, stands, _⟩ := reads.reader
  rw [outlook_reader reads.chosen opened, Outlook.clip]
  split
  · rfl
  · exact stands.lasting checkout.shared.signals

/-- A stream that is over has reached the end of its entry or that of its chain. -/
theorem Reads.spent (reads : checkout.Reads image entry chain origin since disturbed)
    (calm : ¬ disturbed) (finished : checkout.outlook = .finished) :
    since = ((payload chain).take entry.size).drop origin := by
  obtain ⟨reader, got, opened, stands, counted, short, intact⟩ := reads.reader
  have bounded := reads.bounded
  have room := reads.available_eq
  rw [outlook_reader reads.chosen opened, Outlook.clip] at finished
  split at finished
  · rename_i enough
    simp only [Outlook.finished, Outlook.mk.injEq, List.take_eq_nil_iff, and_true] at finished
    have full : checkout.stream.entryPosition = entry.size := by
      rcases finished with done | none
      · omega
      · rw [none, List.length_nil] at enough
        omega
    rw [counted, intact calm, full]
  · rcases stands with ⟨_, whole⟩ | ⟨stopped, _⟩
    · have all := whole.spent finished
      have reach : (payload chain).length ≤ entry.size := by
        rw [← all]
        omega
      rw [counted, all, List.take_of_length_le reach]
    · exact absurd stopped calm

/-- Where a stream stands after some reads that began under the signals `start`. -/
private def ReadsSince (image : Image) (entry : Entry) (chain : List ChainSector) (origin : Nat)
    (disturbed : Prop) (start : Signals) (checkout : Checkout) (since : Bytes) : Prop :=
  start.Follows checkout.shared.signals ∧ origin ≤ checkout.stream.entryPosition ∧
    checkout.Reads image entry chain origin since
      (disturbed ∨ start.Interrupted checkout.shared.signals)

private theorem readsSince_read {start : Signals} (checkout : Checkout) (since : Bytes)
    (kept : ReadsSince image entry chain origin disturbed start checkout since) :
    ReadsSince image entry chain origin disturbed start
      (ByteSource.read checkout ByteSource.pieceSize).2
      (since ++ delivered (ByteSource.read checkout ByteSource.pieceSize).1) := by
  obtain ⟨follows, passed, reads⟩ := kept
  obtain ⟨result, after, step, on, passed', onward⟩ := reads.read passed ByteSource.pieceSize
  have same : ByteSource.read checkout ByteSource.pieceSize = (result, after) := step
  rw [same]
  refine ⟨follows.trans on, passed', onward.iff ?_⟩
  rw [Signals.interrupted_iff follows on, or_assoc]

/-- Draining a stream reports no failure. It yields the rest of the entry, or the rest up to the
sector at which a reading of the flag found it set. -/
theorem Reads.drain (reads : checkout.Reads image entry chain origin since disturbed) :
    ∃ bytes last, ByteSource.drain checkout = (bytes, none, last) ∧
      ∃ fetched ≤ chain.length,
        bytes = ((payload (chain.take fetched)).take entry.size).drop
          checkout.stream.entryPosition ∧
        (fetched = chain.length
          ↔ ¬ (disturbed ∨ checkout.shared.signals.Interrupted last.shared.signals)) := by
  have quiet := (foretells.drain_eq checkout reads.sound).2.trans reads.lasting
  have spent := foretells.drain_spent checkout reads.sound quiet
  have kept := ByteSource.drain_invariant readsSince_read checkout []
    ⟨.refl _, Nat.le_refl _, reads.rebase.iff (Signals.or_interrupted_self _)⟩
  rcases drained : ByteSource.drain checkout with ⟨bytes, failure, last⟩
  rw [drained] at quiet spent kept
  cases quiet
  obtain ⟨_, _, onward⟩ := kept
  refine ⟨bytes, last, rfl, ?_⟩
  obtain ⟨reader, got, opened, ⟨calm, intact⟩ | ⟨stopped, cut⟩, counted, short, _⟩ := onward.reader
  · refine ⟨chain.length, Nat.le_refl _, ?_, fun _ => calm, fun _ => rfl⟩
    rw [List.take_length]
    exact onward.spent calm spent
  · obtain ⟨past, lost, split, some, delivered⟩ := cut.lost
    have size : chain.length = past.length + lost.length := by rw [split, List.length_append]
    have more := List.length_pos_iff.2 some
    have bounded := onward.bounded
    refine ⟨past.length, by omega, ?_, fun all => by omega, fun calm => absurd stopped calm⟩
    rw [split, List.take_left, ← delivered, List.take_of_length_le (by omega)]
    exact counted

end Checkout

open Disk (ChainSector ChainReader ChainWalk SectorSource Location payload)
open Disk.ChainReader (Reached Disturbed disturbed_cons)

/-- The bytes fetched and no others are left within `size` exactly if none are lost that remain. -/
private theorem drop_eq_drop_iff {fetched lost : Bytes} {size position : Nat} :
    (fetched.take size).drop position = (fetched ++ lost).drop position ↔
      (fetched ++ lost).length ≤ position ∨ ((fetched ++ lost).length ≤ size ∧ lost = []) := by
  constructor
  · intro same
    have lengths := congrArg List.length same
    simp only [List.length_drop, List.length_take, List.length_append] at lengths ⊢
    by_cases beyond : fetched.length + lost.length ≤ position
    · exact .inl beyond
    · exact .inr ⟨by omega, List.length_eq_zero_iff.1 (by omega)⟩
  · rintro (beyond | ⟨fits, rfl⟩)
    · rw [List.drop_eq_nil_of_le beyond, List.drop_eq_nil_of_le]
      simp only [List.length_take, List.length_append] at beyond ⊢
      omega
    · rw [List.append_nil] at fits ⊢
      rw [List.take_of_length_le fits]

/-- Reading a chain to its end while interruptions are retried never reports a failure, wherever the
reader stands and whatever the flag does. All the bytes that remain come out exactly if the sectors
fetched leave no data behind, and all sectors are fetched exactly if no reading of the flag made for
the reader found it set. A stream delivers the same within the size of its entry. -/
theorem retried_drain_complete_iff {source : SectorSource} {location : Location} {limits : Limits}
    {chain : List ChainSector} (honest : source.Honest)
    (whole : ((ChainWalk.start source location limits).whole .quiet).1 = .ok chain) :
    (∀ (reader : ChainReader) (got : Bytes) (spans : List (Signals × Signals)) (signals : Signals),
      Reached source location limits reader got spans →
      ∃ bytes last signals' fetched,
        ByteSource.drain (reader, signals) = (bytes, none, last, signals') ∧
        fetched ≤ chain.length ∧
        (fetched = chain.length ↔ ¬ Disturbed ((signals, signals') :: spans)) ∧
        bytes = (payload (chain.take fetched)).drop got.length ∧
        (bytes = (payload chain).drop got.length ↔ payload (chain.drop fetched) = [])) ∧
      (∀ (image : Image) (volume : Disk.Volume) (entry : Entry) (checkout : Checkout)
          (spans : List (Signals × Signals)),
        image.handler = .disk volume → volume.source = source → image.limits = limits →
        entry.location = some location → Checkout.Using image entry checkout spans →
        ∃ bytes last fetched, ByteSource.drain checkout = (bytes, none, last) ∧
          fetched ≤ chain.length ∧
          (fetched = chain.length
            ↔ ¬ Disturbed ((checkout.shared.signals, last.shared.signals) :: spans)) ∧
          bytes = ((payload (chain.take fetched)).take entry.size).drop checkout.position ∧
          (bytes = (payload chain).drop checkout.position ↔
            (payload chain).length ≤ checkout.position ∨
              ((payload chain).length ≤ entry.size ∧ payload (chain.drop fetched) = []))) := by
  constructor
  · intro reader got spans signals reached
    have stands := reached.stands honest (ChainWalk.course_of_whole honest whole)
    obtain ⟨bytes, last, signals', drained, fetched, fits, delivered, all⟩ := stands.drain signals
    have rest : bytes = (payload (chain.take fetched)).drop got.length := by
      rw [← delivered, List.drop_left]
    have split : payload chain = payload (chain.take fetched) ++ payload (chain.drop fetched) := by
      rw [← Disk.payload_append, List.take_append_drop]
    refine ⟨bytes, last, signals', fetched, drained, fits, all.trans ?_, rest, ?_⟩
    · rw [disturbed_cons]
    · rw [split, ← delivered, List.append_assoc, List.drop_left]
      constructor
      · intro same
        exact List.append_right_eq_self.1 same.symm
      · intro nothing
        rw [nothing, List.append_nil]
  · rintro image volume entry checkout spans disk rfl rfl place held
    have chained : Checkout.Chained image entry chain :=
      ⟨volume, location, disk, place, honest, ChainWalk.course_of_whole honest whole⟩
    have reads := held.reads chained
    obtain ⟨bytes, last, drained, fetched, fits, delivered, all⟩ := reads.drain
    have here := reads.position_eq
    have split : payload chain = payload (chain.take fetched) ++ payload (chain.drop fetched) := by
      rw [← Disk.payload_append, List.take_append_drop]
    refine ⟨bytes, last, fetched, drained, fits, all.trans ?_, here ▸ delivered, ?_⟩
    · rw [disturbed_cons]
    · rw [delivered, here, split]
      exact drop_eq_drop_iff

/-- A source each of whose sectors ends a chain and holds one byte. -/
def lastSectors : SectorSource := .ofLookup fun _ => .ok (.ofBytes [0, 2, 7])

def lastSectorEntry : Entry where
  index := 1
  name := "a"
  rawName := []
  size := 1
  location := some ⟨1, 0⟩

/-- A stream of an entry that begins in such a source. -/
def lastSectorStream : Checkout where
  image :=
    { url := ""
      handler := .disk
        { format := .d64
          container := .ofBytes []
          source := lastSectors
          header := ⟨"", [], []⟩
          firstDirectory := ⟨18, 1⟩ } }
  stream := { selected := some lastSectorEntry }

private theorem honest_lastSectors : lastSectors.Honest :=
  SectorSource.honest_of_heeds SectorSource.heeds_ofLookup

private theorem whole_lastSectors :
    ((ChainWalk.start lastSectors ⟨1, 0⟩ {}).whole .quiet).1 = .ok [⟨[0, 2, 7], ⟨1, 0⟩⟩] := by
  rw [ChainWalk.whole, ChainWalk.sectors_of_ok rfl, ChainWalk.sectors_of_over rfl]
  rfl

/-- Without a flag both come to the byte of the chain. -/
theorem retried_drain_of_quiet :
    (ByteSource.drain (ChainReader.start lastSectors ⟨1, 0⟩ {}, Signals.quiet)).1 = [7] ∧
      (ByteSource.drain lastSectorStream).1 = [7] := by
  constructor
  · obtain ⟨bytes, last, signals', fetched, drained, _, all, rest, _⟩ :=
      (retried_drain_complete_iff honest_lastSectors whole_lastSectors).1 _ _ _ .quiet .start
    have calm : ¬ Disturbed [(.quiet, signals')] := by
      simpa [Disturbed] using Signals.calm_quiet.not_interrupted
    rw [drained, rest, all.2 calm]
    rfl
  · obtain ⟨bytes, last, fetched, drained, _, all, rest, _⟩ :=
      (retried_drain_complete_iff honest_lastSectors whole_lastSectors).2 lastSectorStream.image _ _
        lastSectorStream [] rfl rfl rfl rfl (.selected rfl rfl rfl rfl)
    have calm : ¬ Disturbed [(.quiet, last.shared.signals)] := by
      simpa [Disturbed] using Signals.calm_quiet.not_interrupted
    rw [drained, rest, all.2 calm]
    rfl

/-- A flag that is set for a moment makes the same chain come out empty, and no failure tells. -/
theorem retried_drain_silently_short :
    ((ChainWalk.start lastSectors ⟨1, 0⟩ {}).whole .quiet).1 = .ok [⟨[0, 2, 7], ⟨1, 0⟩⟩] ∧
      ∃ last, ByteSource.drain
          (ChainReader.start lastSectors ⟨1, 0⟩ {}, ({ cancel := some (· == 0) } : Signals))
        = ([], none, last) := by
  refine ⟨whole_lastSectors, ?_⟩
  have drained := ChainReader.foretells.drain_eq
    (ChainReader.start lastSectors ⟨1, 0⟩ {}, { cancel := some (· == 0) })
    (ChainReader.sound_start _ _ _)
  have nothing : (ChainReader.start lastSectors ⟨1, 0⟩ {}).outlook { cancel := some (· == 0) }
      = ⟨[], some .cancelled⟩ := by
    rw [ChainReader.outlook, ChainReader.start]
    dsimp only
    rw [ChainReader.ahead, if_neg (by decide), ChainWalk.sectors_of_error rfl]
    rfl
  dsimp only at drained
  rw [nothing] at drained
  exact ⟨_, Prod.ext drained.1 (Prod.ext drained.2 rfl)⟩

end RetroMedia
