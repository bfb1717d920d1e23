import RetroMedia.Proofs.Image.Arrays
import RetroMedia.Proofs.Image.Request

/-! Streams keep to the machine of their image. The invariant ties the reader in use to the position
in the entry: what is before the reader is the array from that position on. -/
namespace RetroMedia

/-- An image whose directory is `table` and all of whose entries can be read. -/
structure Image.Complete (image : Image) (table : List Entry) : Prop where
  honest : image.handler.Honest
  listed : (image.entries {}).1 = .ok table
  opens : ∀ entry ∈ table, ∃ reader, image.handler.openEntry entry image.limits = .ok reader ∧
    reader.Faces ⟨(image.machine table).data entry, none⟩ ∧
      ((image.machine table).data entry).length = entry.size

theorem Handler.Honest.chainSize_of_calm {handler : Handler} (honest : handler.Honest)
    (location : Disk.Location) (limits : Limits) {signals : Signals} (calm : signals.Calm) :
    ∃ later, later.Calm ∧ handler.chainSize location limits signals
      = ((handler.chainSize location limits .quiet).1, later) := by
  cases handler with
  | disk volume =>
    obtain ⟨later, still, size⟩ := Disk.chainSize_of_calm honest location limits calm
    obtain ⟨_, _, size'⟩ := Disk.chainSize_of_calm honest location limits Signals.calm_quiet
    refine ⟨later, still, ?_⟩
    simp only [Handler.chainSize, size, size']
  | archive | tape | cartridge | hardDisk | document => exact ⟨signals, calm, rfl⟩

namespace Checkout

/-- A stream that stands in the arrays of its image. -/
structure Tracks (image : Image) (table : List Entry) (checkout : Checkout) : Prop where
  same : checkout.image = image
  known : checkout.shared.table = none ∨ checkout.shared.table = some table
  calm : checkout.shared.signals.Calm
  inside : checkout.stream.position ≤ image.container.size
  reader : ∀ entry, checkout.stream.selected = some entry →
    entry ∈ table ∧ checkout.stream.entryPosition ≤ entry.size ∧
      ∃ reader, checkout.readerOf entry = .ok reader ∧
        reader.Faces ⟨((image.machine table).data entry).drop checkout.stream.entryPosition, none⟩

variable {image : Image} {table : List Entry} {checkout : Checkout}

/-- Whatever else is shared does not concern the stream. -/
theorem Tracks.share (tracks : checkout.Tracks image table) {shared : Shared}
    (known : shared.table = none ∨ shared.table = some table) (calm : shared.signals.Calm) :
    Tracks image table { checkout with shared } :=
  ⟨tracks.same, known, calm, tracks.inside, tracks.reader⟩

theorem Tracks.select (tracks : checkout.Tracks image table) (complete : image.Complete table)
    {entry : Entry} (member : entry ∈ table) :
    Tracks image table { checkout with
      stream := { checkout.stream with selected := some entry, reader := none, entryPosition := 0 } } := by
  refine ⟨tracks.same, tracks.known, tracks.calm, tracks.inside, ?_⟩
  rintro _ ⟨⟩
  obtain ⟨reader, opened, faces, _⟩ := complete.opens entry member
  refine ⟨member, Nat.zero_le _, reader, ?_, faces⟩
  unfold readerOf
  dsimp only
  rw [tracks.same]
  exact opened

theorem Tracks.clear (tracks : checkout.Tracks image table) :
    Tracks image table { checkout with
      stream := { checkout.stream with selected := none, reader := none, entryPosition := 0 } } := by
  refine ⟨tracks.same, tracks.known, tracks.calm, tracks.inside, ?_⟩
  intro _ never
  cases never

theorem Tracks.atCursor (tracks : checkout.Tracks image table) (cursor : Nat) :
    Tracks image table { checkout with stream := { checkout.stream with cursor } } :=
  ⟨tracks.same, tracks.known, tracks.calm, tracks.inside, tracks.reader⟩

theorem Tracks.entries (tracks : checkout.Tracks image table) (complete : image.Complete table) :
    ∃ shared, entries checkout = .ok table { checkout with shared } ∧
      Tracks image table { checkout with shared } := by
  unfold Checkout.entries
  rcases shared : checkout.shared with ⟨known, signals⟩
  have law := tracks.known
  have calm := tracks.calm
  rw [shared] at law calm
  dsimp only at law calm
  rcases law with rfl | rfl
  · obtain ⟨later, still, step⟩ :=
      Image.entries_of_calm complete.honest Signals.calm_quiet calm complete.listed
    have here : checkout.image.entries ⟨none, signals⟩ = (.ok table, ⟨some table, later⟩) := by
      rw [tracks.same]
      exact step
    rw [here]
    exact ⟨_, rfl, tracks.share (.inr rfl) still⟩
  · exact ⟨⟨some table, signals⟩, rfl, tracks.share (.inr rfl) calm⟩

theorem Tracks.size_eq (tracks : checkout.Tracks image table) (complete : image.Complete table) :
    checkout.size = ((image.machine table).source checkout.state).length := by
  unfold size Machine.source
  cases chosen : checkout.stream.selected with
  | none =>
    simp only [state, chosen, tracks.same]
    rfl
  | some entry =>
    obtain ⟨_, _, _, size⟩ := complete.opens entry (tracks.reader entry chosen).1
    simp only [state, chosen, size]

theorem position_eq (checkout : Checkout) : checkout.position = checkout.state.place := rfl

/-- An outcome that the machine allows, and that leaves a stream which tracks the image. -/
def Keeps (image : Image) (table : List Entry) (checkout : Checkout) (request : Request)
    (outcome : Except MediaError Reply × Checkout) : Prop :=
  (image.machine table).Allows checkout.state request (outcome.1, outcome.2.state) ∧
    outcome.2.Tracks image table

/-- To look for an entry by its name selects the first one that fits. -/
theorem Tracks.seekEntry_cases (tracks : checkout.Tracks image table)
    (complete : image.Complete table) (pattern : String) :
    ∃ shared, Tracks image table { checkout with shared } ∧
      match (image.machine table).find? pattern with
      | some entry => entry ∈ table ∧ seekEntry pattern checkout = .ok entry { checkout with
          shared
          stream := { checkout.stream with
            selected := some entry, reader := none, entryPosition := 0 } }
      | none => seekEntry pattern checkout = .error .notFound { checkout with shared } := by
  obtain ⟨shared, step, onward⟩ := tracks.entries complete
  refine ⟨shared, onward, ?_⟩
  have search : (image.machine table).find? pattern = table.find? fun entry =>
      Wildcard.fits pattern entry.name checkout.image.handler.caseSensitive := by
    rw [tracks.same]
    rfl
  rw [seekEntry_of_entries step, search]
  split
  · rename_i entry found
    rw [found]
    exact ⟨List.mem_of_find?_eq_some found, rfl⟩
  · rename_i missing
    rw [missing]

theorem Tracks.seekEntry (tracks : checkout.Tracks image table) (complete : image.Complete table)
    (pattern : String) :
    checkout.Keeps image table (.seekEntry pattern) (checkout.serve (.seekEntry pattern)) := by
  obtain ⟨shared, onward, law⟩ := tracks.seekEntry_cases complete pattern
  change Keeps _ _ _ _ (answered .entry (Checkout.seekEntry pattern checkout))
  cases found : (image.machine table).find? pattern with
  | some entry =>
    rw [found] at law
    obtain ⟨member, step⟩ := law
    rw [step]
    refine ⟨?_, onward.select complete member⟩
    simp only [Machine.Allows, found]
    rfl
  | none =>
    rw [found] at law
    rw [law]
    refine ⟨?_, onward⟩
    simp only [Machine.Allows, found]
    rfl

theorem Tracks.seekIndex (tracks : checkout.Tracks image table) (complete : image.Complete table)
    (index : Nat) :
    checkout.Keeps image table (.seekIndex index) (checkout.serve (.seekIndex index)) := by
  cases index with
  | zero => exact ⟨rfl, tracks⟩
  | succ before =>
    obtain ⟨shared, step, onward⟩ := tracks.entries complete
    change Keeps _ _ _ _ (answered .entry (Checkout.seekIndex (before + 1) checkout))
    unfold Keeps Machine.Allows
    dsimp only
    rw [seekIndex_of_entries step]
    have here : (image.machine table).table[before]? = table[before]? := rfl
    rw [here]
    cases found : table[before]? with
    | some entry => exact ⟨rfl, onward.select complete (List.mem_of_getElem? found)⟩
    | none => exact ⟨rfl, onward⟩

theorem Tracks.seekPath (tracks : checkout.Tracks image table) (complete : image.Complete table)
    (path : String) :
    checkout.Keeps image table (.seekPath path) (checkout.serve (.seekPath path)) := by
  change ((answered .entry (Checkout.seekPath path checkout)).1,
        (answered .entry (Checkout.seekPath path checkout)).2.state)
      = (image.machine table).descend checkout.state (pathNames path) ∧
    Tracks image table (answered .entry (Checkout.seekPath path checkout)).2
  unfold Checkout.seekPath
  match names : pathNames path with
  | [] => exact ⟨rfl, tracks⟩
  | [name] => exact tracks.seekEntry complete name
  | name :: second :: rest =>
    obtain ⟨shared, onward, law⟩ := tracks.seekEntry_cases complete name
    unfold Machine.descend
    dsimp only
    simp only [bind, EStateM.bind]
    cases found : (image.machine table).find? name with
    | none =>
      rw [found] at law
      rw [law]
      exact ⟨rfl, onward⟩
    | some entry =>
      rw [found] at law
      rw [law.2]
      have cleared := onward.clear
      by_cases unresolved : (entry.isDirectory && entry.incomplete) = true
      · simp only [if_pos unresolved]
        exact ⟨rfl, cleared⟩
      · simp only [if_neg unresolved]
        by_cases directory : entry.isDirectory = true
        · simp only [if_pos directory]
          exact ⟨rfl, cleared⟩
        · simp only [if_neg directory]
          exact ⟨rfl, cleared⟩

theorem Tracks.nextEntry (tracks : checkout.Tracks image table) (complete : image.Complete table) :
    checkout.Keeps image table .nextEntry (checkout.serve .nextEntry) := by
  obtain ⟨shared, step, onward⟩ := tracks.entries complete
  change Keeps _ _ _ _ (answered .next (Checkout.nextEntry checkout))
  unfold Checkout.nextEntry Keeps Machine.Allows
  rw [run_of_ok step]
  have here : (image.machine table).table[checkout.state.cursor]?
      = table[checkout.stream.cursor]? := rfl
  rw [here, run_get]
  cases found : table[checkout.stream.cursor]? with
  | some entry => exact ⟨rfl, onward.atCursor _⟩
  | none => exact ⟨rfl, onward.atCursor _⟩

theorem source_of_selected {entry : Entry} (chosen : checkout.stream.selected = some entry) :
    (image.machine table).source checkout.state = (image.machine table).data entry := by
  unfold Machine.source state
  dsimp only
  rw [chosen]

theorem source_of_raw (chosen : checkout.stream.selected = none) :
    (image.machine table).source checkout.state = image.container.toBytes := by
  unfold Machine.source state
  dsimp only
  rw [chosen]
  rfl

private theorem Tracks.readRaw (tracks : checkout.Tracks image table)
    (complete : image.Complete table) (chosen : checkout.stream.selected = none) (count : Nat) :
    checkout.Keeps image table (.read count) (checkout.serve (.read count)) := by
  have whole := tracks.size_eq complete
  have room : checkout.size = image.container.size := by
    simp only [size, chosen, tracks.same]
  have place : checkout.position = checkout.stream.position := by
    simp only [position, chosen]
  let bytes := image.container.readAt checkout.stream.position count
  let after : Checkout := { checkout with
    stream := { checkout.stream with position := checkout.stream.position + bytes.length } }
  have outcome : checkout.serve (.read count) = (.ok (.bytes bytes), after) := by
    simp only [serve, Checkout.read, chosen, tracks.same, bytes, after]
    rfl
  have taken := image.container.length_readAt checkout.stream.position count
  have onward : after.Tracks image table := by
    refine ⟨tracks.same, tracks.known, tracks.calm, ?_, ?_⟩
    · have inside := tracks.inside
      simp only [after, bytes]
      omega
    · intro entry never
      have here : after.stream.selected = none := chosen
      rw [here] at never
      cases never
  rw [outcome]
  refine ⟨?_, onward⟩
  rw [Machine.allows_read_iff, ← whole, ← position_eq, source_of_raw chosen, place, room]
  by_cases more : 0 < count ∧ checkout.stream.position < image.container.size
  · rw [if_pos more]
    refine ⟨bytes.length, ?_, ?_, ?_⟩
    · simp only [bytes]
      omega
    · exact Nat.le_of_eq taken
    · have piece : bytes = (image.container.toBytes.drop checkout.stream.position).take bytes.length := by
        rw [← Container.readAt_eq]
        exact (image.container.readAt_length _ _).symm
      rw [← piece]
      simp only [state, after, Machine.State.moveTo, chosen]
  · rw [if_neg more]
    have nothing : bytes = [] := by
      apply List.eq_nil_of_length_eq_zero
      simp only [bytes]
      omega
    simp only [state, after, nothing, chosen, List.length_nil, Nat.add_zero]

private theorem Tracks.readSelected (tracks : checkout.Tracks image table)
    (complete : image.Complete table) {entry : Entry}
    (chosen : checkout.stream.selected = some entry) (count : Nat) :
    checkout.Keeps image table (.read count) (checkout.serve (.read count)) := by
  obtain ⟨member, inside, reader, opened, faces⟩ := tracks.reader entry chosen
  obtain ⟨_, _, _, length⟩ := complete.opens entry member
  have whole := tracks.size_eq complete
  have room : checkout.size = entry.size := by simp only [size, chosen]
  have place : checkout.position = checkout.stream.entryPosition := by simp only [position, chosen]
  change Keeps _ _ _ _ ((checkout.read count).map (·.map .bytes) id)
  unfold Keeps Checkout.read
  rw [Machine.allows_read_iff, ← whole, ← position_eq, source_of_selected chosen, place, room, chosen]
  dsimp only
  unfold readEntry available
  dsimp only
  rw [place, room]
  by_cases more : 0 < count ∧ checkout.stream.entryPosition < entry.size
  · have busy : ¬ min count (entry.size - checkout.stream.entryPosition) = 0 := by omega
    have ahead : ((image.machine table).data entry).drop checkout.stream.entryPosition ≠ [] := by
      intro none
      have short := List.drop_eq_nil_iff.1 none
      omega
    obtain ⟨size, after, signals, positive, fits, short, step, calm, onward⟩ :=
      faces.read tracks.calm (Nat.pos_of_ne_zero busy) ahead
    dsimp only at step short onward
    rw [List.length_drop] at short
    rw [if_pos more, if_neg busy, opened]
    dsimp only
    rw [step]
    have taken : (List.take size (((image.machine table).data entry).drop
        checkout.stream.entryPosition)).length = size :=
      List.length_take_of_le (by rw [List.length_drop]; exact short)
    refine ⟨⟨size, positive, fits, ?_⟩, tracks.same, tracks.known, calm, tracks.inside, ?_⟩
    · simp only [Prod.map, taken, state, atEntryPosition, keepReader, Machine.State.moveTo, chosen]
      rfl
    · intro entry' same
      have here : some entry = some entry' := chosen.symm.trans same
      cases here
      refine ⟨member, ?_, after, rfl, ?_⟩
      · simp only [Prod.map, id, atEntryPosition, taken]
        omega
      · simp only [Prod.map, id, atEntryPosition, taken]
        simpa only [Outlook.drop, List.drop_drop] using onward
  · have idle : min count (entry.size - checkout.stream.entryPosition) = 0 := by omega
    rw [if_neg more, if_pos idle]
    exact ⟨rfl, tracks⟩

theorem Tracks.read (tracks : checkout.Tracks image table) (complete : image.Complete table)
    (count : Nat) : checkout.Keeps image table (.read count) (checkout.serve (.read count)) := by
  cases chosen : checkout.stream.selected with
  | none => exact tracks.readRaw complete chosen count
  | some entry => exact tracks.readSelected complete chosen count

theorem Tracks.seekData (tracks : checkout.Tracks image table) (offset : Nat) :
    checkout.Keeps image table (.seekData offset) (checkout.serve (.seekData offset)) := by
  change Keeps _ _ _ _ (answered .position (Checkout.seekData offset checkout))
  have start : (image.machine table).dataOffset = checkout.image.handler.dataOffset := by
    rw [tracks.same]
    rfl
  have whole : (image.machine table).raw.length = checkout.image.container.size := by
    rw [tracks.same]
    rfl
  unfold Checkout.seekData Keeps Machine.Allows
  rw [run_get, start, whole]
  by_cases beyond : Seek.positionLimit ≤ checkout.image.handler.dataOffset + offset
  · simp only [if_pos beyond]
    exact ⟨rfl, tracks⟩
  · simp only [if_neg beyond]
    refine ⟨rfl, tracks.same, tracks.known, tracks.calm, ?_, ?_⟩
    · rw [← tracks.same]
      exact Nat.min_le_right _ _
    · intro _ never
      cases never

theorem Tracks.chainSize (tracks : checkout.Tracks image table) (complete : image.Complete table)
    (location : Disk.Location) :
    checkout.Keeps image table (.chainSize location) (checkout.serve (.chainSize location)) := by
  obtain ⟨signals, calm, same⟩ := complete.honest.chainSize_of_calm location image.limits tracks.calm
  have onward : Tracks image table
      { checkout with shared := { checkout.shared with signals } } :=
    tracks.share tracks.known calm
  have outcome : checkout.serve (.chainSize location)
      = (((image.machine table).chainSize location).map .size,
        { checkout with shared := { checkout.shared with signals } }) := by
    have here : (image.machine table).chainSize location
        = (image.handler.chainSize location image.limits .quiet).1 := rfl
    simp only [serve, Checkout.chainSize, tracks.same, same, here]
    cases (image.handler.chainSize location image.limits .quiet).1 <;> rfl
  rw [outcome]
  exact ⟨rfl, onward⟩

/-- Skipping forward takes the reader to the target. -/
theorem Tracks.skipTo (tracks : checkout.Tracks image table) (complete : image.Complete table)
    {entry : Entry} (chosen : checkout.stream.selected = some entry) {target : Nat}
    (forward : checkout.stream.entryPosition ≤ target) (fits : target ≤ entry.size) :
    ∃ after, checkout.skipTo entry target = (.ok (), after) ∧ after.Tracks image table ∧
      after.state = { checkout.state with entryPosition := target } := by
  obtain ⟨member, _, reader, opened, faces⟩ := tracks.reader entry chosen
  obtain ⟨_, _, _, length⟩ := complete.opens entry member
  unfold Checkout.skipTo
  dsimp only
  by_cases idle : target - checkout.stream.entryPosition = 0
  · have here : checkout.stream.entryPosition = target := by omega
    subst here
    rw [if_pos idle]
    exact ⟨_, rfl, tracks, rfl⟩
  · have enough : target - checkout.stream.entryPosition
        ≤ (((image.machine table).data entry).drop checkout.stream.entryPosition).length := by
      rw [List.length_drop]
      omega
    obtain ⟨after, signals, step, calm, onward⟩ := faces.gather tracks.calm enough
    rw [if_neg idle, opened]
    dsimp only
    rw [step]
    refine ⟨_, rfl, ⟨tracks.same, tracks.known, calm, tracks.inside, ?_⟩, rfl⟩
    intro entry' same
    have here : some entry = some entry' := chosen.symm.trans same
    cases here
    refine ⟨member, fits, after, rfl, ?_⟩
    simp only [Outlook.drop, List.drop_drop, Nat.add_sub_cancel' forward] at onward
    exact onward

/-- A seek in an entry goes on with the reader in use, or starts over with a new one. -/
theorem Tracks.seekInEntry (tracks : checkout.Tracks image table) (complete : image.Complete table)
    {entry : Entry} (chosen : checkout.stream.selected = some entry) {target : Nat}
    (fits : target ≤ entry.size) :
    ∃ after, checkout.seekInEntry entry target = (.ok (), after) ∧ after.Tracks image table ∧
      after.state = { checkout.state with entryPosition := target } := by
  unfold Checkout.seekInEntry
  by_cases back : target < checkout.stream.entryPosition
  · rw [if_pos back]
    have reopened := tracks.select complete (tracks.reader entry chosen).1
    obtain ⟨after, step, onward, there⟩ :=
      reopened.skipTo complete rfl (Nat.zero_le target) fits
    have same : ({ checkout with
        stream := { checkout.stream with reader := none, entryPosition := 0 } } : Checkout)
      = { checkout with stream := { checkout.stream with
          selected := some entry, reader := none, entryPosition := 0 } } := by
      rw [← chosen]
    rw [same]
    refine ⟨after, step, onward, there.trans ?_⟩
    simp only [state, chosen]
  · rw [if_neg back]
    exact tracks.skipTo complete chosen (Nat.le_of_not_lt back) fits

theorem shift_eq {base : Nat} {delta : Int} (low : base < Machine.arrayLimit)
    (high : delta < Machine.arrayLimit) :
    Seek.shift base delta
      = if (base : Int) + delta < 0 then none else some ((base : Int) + delta).toNat := by
  have limit : Seek.positionLimit = 2 * Machine.arrayLimit := by decide
  unfold Seek.shift
  dsimp only
  by_cases negative : (base : Int) + delta < 0
  · rw [if_pos negative, if_pos negative]
  · rw [if_neg negative, if_neg negative, if_neg (by omega)]

/-- Where no position is out of range, a seek fails only ahead of the first byte. -/
theorem resolve_eq {machine : Machine} {state : Machine.State} {target : Seek}
    (encodable : (Request.seek target).Encodable)
    (inside : state.place ≤ (machine.source state).length)
    (small : (machine.source state).length < Machine.arrayLimit) :
    target.resolve state.place (machine.source state).length
      = if machine.goal state target < 0 then .error .invalidOffset
        else .ok (min (machine.goal state target).toNat (machine.source state).length) := by
  unfold Seek.resolve
  by_cases negative : machine.goal state target < 0
  · rw [if_pos negative]
    cases target with
    | start offset => exact absurd negative (Int.not_lt.2 (Int.natCast_nonneg offset))
    | current delta =>
      dsimp only
      rw [shift_eq (Nat.lt_of_le_of_lt inside small) encodable.2]
      rw [if_pos (show (state.place : Int) + delta < 0 from negative)]
    | fromEnd delta =>
      dsimp only
      rw [shift_eq small encodable.2]
      rw [if_pos (show ((machine.source state).length : Int) + delta < 0 from negative)]
  · rw [if_neg negative]
    cases target with
    | start offset => rfl
    | current delta =>
      dsimp only
      rw [shift_eq (Nat.lt_of_le_of_lt inside small) encodable.2]
      rw [if_neg (show ¬ (state.place : Int) + delta < 0 from negative)]
      rfl
    | fromEnd delta =>
      dsimp only
      rw [shift_eq small encodable.2]
      rw [if_neg (show ¬ ((machine.source state).length : Int) + delta < 0 from negative)]
      rfl

theorem Tracks.seek (tracks : checkout.Tracks image table) (complete : image.Complete table)
    (small : (image.machine table).InMemory) {target : Seek}
    (encodable : (Request.seek target).Encodable) :
    checkout.Keeps image table (.seek target) (checkout.serve (.seek target)) := by
  have whole := tracks.size_eq complete
  change Keeps _ _ _ _ ((Checkout.seek target checkout).map (·.map .position) id)
  unfold Keeps Checkout.seek
  rw [Machine.allows_seek_iff, position_eq, whole]
  cases chosen : checkout.stream.selected with
  | none =>
    have place : checkout.state.place = checkout.stream.position := by
      simp only [Machine.State.place, state, chosen]
    have source := @source_of_raw image table checkout chosen
    have inside : checkout.state.place ≤ ((image.machine table).source checkout.state).length := by
      rw [place, source]
      exact tracks.inside
    rw [resolve_eq encodable inside (source ▸ small.1)]
    by_cases negative : (image.machine table).goal checkout.state target < 0
    · rw [if_pos negative, if_pos negative]
      exact ⟨rfl, tracks⟩
    · rw [if_neg negative, if_neg negative]
      refine ⟨?_, tracks.same, tracks.known, tracks.calm, ?_, ?_⟩
      · simp only [Prod.map, Except.map, id, state, Machine.State.moveTo, chosen]
      · rw [source]
        exact Nat.min_le_right _ _
      · intro entry never
        cases chosen.symm.trans never
  | some entry =>
    obtain ⟨member, within, _⟩ := tracks.reader entry chosen
    obtain ⟨_, _, _, length⟩ := complete.opens entry member
    have place : checkout.state.place = checkout.stream.entryPosition := by
      simp only [Machine.State.place, state, chosen]
    have source := @source_of_selected image table checkout entry chosen
    have inside : checkout.state.place ≤ ((image.machine table).source checkout.state).length := by
      rw [place, source, length]
      exact within
    rw [resolve_eq encodable inside (source ▸ small.2 entry member)]
    by_cases negative : (image.machine table).goal checkout.state target < 0
    · rw [if_pos negative, if_pos negative]
      exact ⟨rfl, tracks⟩
    · rw [if_neg negative, if_neg negative]
      have fits : min ((image.machine table).goal checkout.state target).toNat
          ((image.machine table).source checkout.state).length ≤ entry.size := by
        rw [source, length]
        exact Nat.min_le_right _ _
      obtain ⟨after, step, onward, there⟩ := tracks.seekInEntry complete chosen fits
      dsimp only
      rw [step]
      refine ⟨?_, onward⟩
      simp only [Prod.map, Except.map, id, there, Machine.State.moveTo]
      simp only [state, chosen]

/-- Every request is answered as the machine allows. -/
theorem Tracks.serve (tracks : checkout.Tracks image table) (complete : image.Complete table)
    (small : (image.machine table).InMemory) (request : Request) (encodable : request.Encodable) :
    checkout.Keeps image table request (checkout.serve request) := by
  cases request with
  | seekEntry pattern => exact tracks.seekEntry complete pattern
  | seekIndex index => exact tracks.seekIndex complete index
  | seekPath path => exact tracks.seekPath complete path
  | clearEntry => exact ⟨rfl, tracks.clear⟩
  | nextEntry => exact tracks.nextEntry complete
  | rewind => exact ⟨rfl, tracks.atCursor 0⟩
  | seekData offset => exact tracks.seekData offset
  | seek target => exact tracks.seek complete small encodable
  | read count => exact tracks.read complete count
  | chainSize location => exact tracks.chainSize complete location

/-- Requests in a row are answered as in a run of the machine. -/
theorem Tracks.serveAll (tracks : checkout.Tracks image table) (complete : image.Complete table)
    (small : (image.machine table).InMemory) (requests : List Request)
    (encodable : ∀ request ∈ requests, request.Encodable) :
    (image.machine table).Runs checkout.state requests (checkout.serveAll requests).1
        (checkout.serveAll requests).2.state ∧
      (checkout.serveAll requests).2.Tracks image table := by
  induction requests generalizing checkout with
  | nil => exact ⟨.nil, tracks⟩
  | cons request rest ih =>
    obtain ⟨step, onward⟩ := tracks.serve complete small request (encodable request List.mem_cons_self)
    obtain ⟨run, last⟩ := ih onward fun later member =>
      encodable later (List.mem_cons_of_mem _ member)
    exact ⟨.cons step run, last⟩

end Checkout

/-- The directory of an image lists entries whose readers have just the announced bytes. -/
theorem Image.complete {image : Image} {table : List Entry} (honest : image.handler.Honest)
    (listed : (image.entries {}).1 = .ok table)
    (readable : ∀ entry ∈ table, image.handler.Readable image.limits entry) :
    image.Complete table := by
  refine ⟨honest, listed, ?_⟩
  intro entry member
  obtain ⟨after, step⟩ := Image.listed_of_entries listed
  have resolved :=
    Handler.resolved_of_readable honest Signals.calm_quiet step member (readable entry member)
  obtain ⟨_, reader, opened, bytes, faces, size⟩ :=
    Handler.fills_of_resolved honest step member resolved
  change image.handler.openEntry entry image.limits = _ at opened
  have drained : (image.machine table).data entry = bytes := by
    unfold machine
    dsimp only
    rw [opened]
    exact (faces.drain Signals.calm_quiet).1
  rw [drained]
  exact ⟨reader, opened, faces, size⟩

/-- A tape with one file of three bytes. -/
def Tape.ofOneFile : Container :=
  .ofBytes (signature ++ List.replicate 29 0 ++ [0, 0, 1, 0, 1, 0] ++ List.replicate 26 0
    ++ [1, 0x82, 0x01, 0x08, 0x04, 0x08, 0, 0, 0x60, 0, 0, 0, 0, 0, 0, 0, 0x41]
    ++ List.replicate 15 0x20 ++ [7, 8, 9])

end RetroMedia
