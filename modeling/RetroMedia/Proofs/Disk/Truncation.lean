import RetroMedia.Proofs.Disk.ChainOutlook
import RetroMedia.Proofs.Disk.ChainWalk

/-! Chain readers under a cancellation flag. A reader that a reading of the flag interrupts counts
the chain as over: whoever retries the interruption gets the end of the data and no failure, so the
bytes of the sectors that were not yet read are lost without a word. -/
namespace RetroMedia.Disk

namespace ChainReader

open ByteSource (delivered)

/-- A reader of a chain that nothing interrupted: it has delivered the data of the sectors behind
it but for what is left of its sector, and the rest of the chain is ahead. -/
structure Intact (chain : List ChainSector) (got : Bytes) (reader : ChainReader) : Prop where
  honest : reader.walk.source.Honest
  free : reader.pending = none
  passed : ∃ past, chain = past ++ reader.walk.course.1 ∧ got ++ reader.block = payload past
  whole : reader.walk.course.2 = none
  ended : reader.exhausted = true → reader.walk.course.1 = [] ∧ reader.block = []

/-- A reader of a chain that was interrupted: it takes the chain to be over before some sectors. -/
structure Cut (chain : List ChainSector) (got : Bytes) (reader : ChainReader) : Prop where
  finished : reader.exhausted = true
  pending : reader.pending = none ∨ reader.pending = some .cancelled
  lost : ∃ past lost, chain = past ++ lost ∧ lost ≠ [] ∧ got = payload past

variable {chain : List ChainSector} {got : Bytes} {reader : ChainReader}

theorem intact_start {source : SectorSource} {location : Location} {limits : Limits}
    (honest : source.Honest)
    (course : (ChainWalk.start source location limits).course = (chain, none)) :
    Intact chain [] (start source location limits) := by
  refine ⟨honest, rfl, ⟨[], ?_, rfl⟩, ?_, fun finished => by cases finished⟩
  · exact (congrArg Prod.fst course).symm
  · exact congrArg Prod.snd course

theorem Intact.take (intact : reader.Intact chain got) (busy : ¬ reader.exhausted = true)
    (wanted : Nat) :
    { reader with block := reader.block.drop wanted }.Intact chain
      (got ++ reader.block.take wanted) := by
  obtain ⟨past, split, passed⟩ := intact.passed
  refine ⟨intact.honest, intact.free, ⟨past, split, ?_⟩, intact.whole, fun finished => ?_⟩
  · rw [List.append_assoc, List.take_append_drop]
    exact passed
  · exact absurd finished busy

theorem Intact.next (intact : reader.Intact chain got) (busy : ¬ reader.exhausted = true)
    (empty : reader.block = []) {sector : ChainSector} {walk : ChainWalk}
    (source : walk.source = reader.walk.source)
    (onward : reader.walk.course = (sector :: walk.course.1, walk.course.2)) :
    { reader with walk, block := sector.data.drop 2 }.Intact chain got := by
  obtain ⟨past, split, passed⟩ := intact.passed
  refine ⟨source ▸ intact.honest, intact.free, ⟨past ++ [sector], ?_, ?_⟩, ?_, fun finished => ?_⟩
  · rw [split, onward]
    simp
  · rw [payload_append, ← passed, empty]
    simp [ChainSector.payload]
  · rw [← intact.whole, onward]
  · exact absurd finished busy

theorem Intact.lost (intact : reader.Intact chain got) (empty : reader.block = [])
    (more : reader.walk.course ≠ ([], none)) :
    ∃ past lost, chain = past ++ lost ∧ lost ≠ [] ∧ got = payload past := by
  obtain ⟨past, split, passed⟩ := intact.passed
  refine ⟨past, reader.walk.course.1, split, ?_, ?_⟩
  · intro none
    exact more (Prod.ext none intact.whole)
  · rw [← passed, empty, List.append_nil]

/-- Filling a buffer takes an intact reader on, or a reading of the flag cuts it off behind the
bytes that were still filled in. -/
theorem Intact.fill (intact : reader.Intact chain got) (wanted : Nat) (signals : Signals) :
    ∃ bytes failure after signals', reader.fill wanted signals = (bytes, failure, after, signals') ∧
      signals.Follows signals' ∧
      ((¬ signals.Interrupted signals' ∧ failure = none ∧ after.Intact chain (got ++ bytes)) ∨
        (signals.Interrupted signals' ∧ failure = some .cancelled ∧
          after.Cut chain (got ++ bytes) ∧ after.pending = none)) := by
  fun_induction ChainReader.fill reader wanted signals generalizing got with
  | case1 reader wanted signals idle =>
    exact ⟨_, _, _, _, rfl, .refl _,
      .inl ⟨Signals.not_interrupted_self _, rfl, by simpa using intact⟩⟩
  | case2 reader wanted signals idle left piece more failure after signals' filled =>
    rename_i ih
    have busy : ¬ reader.exhausted = true := fun finished => idle (.inr finished)
    obtain ⟨_, _, _, _, same, follows, law⟩ := ih (intact.take busy wanted)
    rw [filled] at same
    cases same
    exact ⟨_, _, _, _, rfl, follows, by simpa using law⟩
  | case3 reader wanted signals idle left walk signals' step =>
    have empty : reader.block = [] := Classical.not_not.1 left
    obtain ⟨_, _, _, same, follows, _, ⟨_, stopped, _⟩ | ⟨clear, ends⟩⟩ :=
      reader.walk.advance_cases intact.honest signals
    · rw [step] at same
      cases same
      cases stopped
    · rw [step] at same
      cases same
      obtain ⟨ends, still⟩ := ends
      subst still
      refine ⟨_, _, _, _, rfl, follows, .inl ⟨clear, rfl, intact.honest, intact.free, ?_, intact.whole,
        fun _ => ⟨by rw [ends], empty⟩⟩⟩
      simpa using intact.passed
  | case4 reader wanted signals idle left error walk signals' step =>
    have empty : reader.block = [] := Classical.not_not.1 left
    obtain ⟨_, _, _, same, follows, source, ⟨hit, stopped, more⟩ | ⟨clear, ends⟩⟩ :=
      reader.walk.advance_cases intact.honest signals
    · rw [step] at same
      cases same
      cases stopped
      have cut := intact.lost empty more
      exact ⟨_, _, _, _, rfl, follows, .inr ⟨hit, rfl, ⟨rfl, .inl intact.free, by simpa using cut⟩,
        intact.free⟩⟩
    · rw [step] at same
      cases same
      have failed := intact.whole
      rw [ends] at failed
      cases failed
  | case5 reader wanted signals idle left sector walk signals' step ih =>
    have empty : reader.block = [] := Classical.not_not.1 left
    have busy : ¬ reader.exhausted = true := fun finished => idle (.inr finished)
    obtain ⟨_, _, _, same, follows, source, ⟨_, stopped, _⟩ | ⟨clear, onward⟩⟩ :=
      reader.walk.advance_cases intact.honest signals
    · rw [step] at same
      cases same
      cases stopped
    · rw [step] at same
      cases same
      obtain ⟨_, _, _, _, same, on, law⟩ := ih (intact.next busy empty source onward)
      rw [same]
      refine ⟨_, _, _, _, rfl, follows.trans on, ?_⟩
      rw [Signals.interrupted_iff follows on]
      rcases law with ⟨quiet, law⟩ | ⟨hit, law⟩
      · exact .inl ⟨not_or.2 ⟨clear, quiet⟩, law⟩
      · exact .inr ⟨.inr hit, law⟩

/-- A cut reader has nothing more to fill in. -/
theorem Cut.fill (cut : reader.Cut chain got) (wanted : Nat) (signals : Signals) :
    reader.fill wanted signals = ([], none, reader, signals) := by
  rw [ChainReader.fill, dif_pos (.inr cut.finished)]

/-- Where a reader stands after delivering `got`, if `disturbed` tells whether it was interrupted. -/
def Stands (chain : List ChainSector) (got : Bytes) (disturbed : Prop) (reader : ChainReader) :
    Prop :=
  (¬ disturbed ∧ reader.Intact chain got) ∨ (disturbed ∧ reader.Cut chain got)

/-- A reader is disturbed by the reading of the flag that finds it set, and stays so. -/
theorem Stands.read {disturbed : Prop} (stands : reader.Stands chain got disturbed) (wanted : Nat)
    (signals : Signals) :
    ∃ result after signals', reader.read wanted signals = (result, after, signals') ∧
      signals.Follows signals' ∧ (disturbed → delivered result = []) ∧
      after.Stands chain (got ++ delivered result) (disturbed ∨ signals.Interrupted signals') := by
  rcases stands with ⟨calm, intact⟩ | ⟨stopped, cut⟩
  · obtain ⟨bytes, failure, after, signals', step, follows, law⟩ := intact.fill wanted signals
    unfold ChainReader.read
    rw [intact.free, step]
    dsimp only
    rcases law with ⟨clear, rfl, onward⟩ | ⟨hit, rfl, cut, free⟩
    · exact ⟨_, _, _, rfl, follows, fun stopped => absurd stopped calm,
        .inl ⟨not_or.2 ⟨calm, clear⟩, onward⟩⟩
    · cases bytes with
      | nil => exact ⟨_, _, _, rfl, follows, fun _ => rfl, .inr ⟨.inr hit, cut⟩⟩
      | cons byte bytes =>
        exact ⟨_, _, _, rfl, follows, fun stopped => absurd stopped calm,
          .inr ⟨.inr hit, cut.finished, .inr rfl, cut.lost⟩⟩
  · unfold ChainReader.read
    rcases cut.pending with free | held
    · rw [free, cut.fill]
      exact ⟨_, _, _, rfl, .refl _, fun _ => rfl,
        .inr ⟨.inl stopped, by simpa [delivered] using cut⟩⟩
    · rw [held]
      refine ⟨_, _, _, rfl, .refl _, fun _ => rfl, .inr ⟨.inl stopped, cut.finished, .inl rfl, ?_⟩⟩
      simpa [delivered] using cut.lost

variable {disturbed : Prop}

theorem Stands.sound (stands : reader.Stands chain got disturbed) : reader.Sound := by
  rcases stands with ⟨_, intact⟩ | ⟨_, cut⟩
  · intro held
    rw [intact.free] at held
    cases held
  · exact fun _ => cut.finished

/-- Whoever retries interruptions sees no failure. -/
theorem Stands.lasting (stands : reader.Stands chain got disturbed) (signals : Signals) :
    (reader.outlook signals).lasting = none := by
  rcases stands with ⟨_, intact⟩ | ⟨_, cut⟩
  · rw [outlook, intact.free]
    dsimp only
    by_cases finished : reader.exhausted = true
    · rw [ahead_of_exhausted reader signals finished]
      rfl
    · obtain ⟨found, failure, signals', step, _, law⟩ :=
        reader.walk.sectors_cases intact.honest signals
      rw [ahead, if_neg finished, step]
      rcases law with ⟨_, rfl, _⟩ | ⟨_, whole⟩
      · rfl
      · have quiet := intact.whole
        rw [whole] at quiet
        cases quiet
        rfl
  · rcases cut.pending with free | held
    · rw [outlook, free]
      dsimp only
      rw [ahead_of_exhausted reader signals cut.finished]
      rfl
    · rw [outlook, held]
      rfl

/-- An intact reader that has nothing more to deliver has delivered the chain. -/
theorem Intact.spent (intact : reader.Intact chain got) {signals : Signals}
    (finished : reader.outlook signals = .finished) : got = payload chain := by
  obtain ⟨past, split, passed⟩ := intact.passed
  rw [outlook, intact.free] at finished
  dsimp only at finished
  suffices nothing : reader.block = [] ∧ payload reader.walk.course.1 = [] by
    rw [split, payload_append, ← passed, nothing.1, nothing.2]
    simp
  by_cases ended : reader.exhausted = true
  · obtain ⟨rest, block⟩ := intact.ended ended
    exact ⟨block, by rw [rest, payload_nil]⟩
  · obtain ⟨found, failure, signals', step, _, law⟩ :=
      reader.walk.sectors_cases intact.honest signals
    rw [ahead, if_neg ended, step] at finished
    simp only [Outlook.finished, Outlook.mk.injEq, List.append_eq_nil_iff] at finished
    obtain ⟨⟨block, rest⟩, quiet⟩ := finished
    rcases law with ⟨_, stopped, _⟩ | ⟨_, whole⟩
    · rw [quiet] at stopped
      cases stopped
    · exact ⟨block, by rw [whole, rest]⟩

/-- A reader in use: the bytes it has delivered, and the spans of the signals in which it was read. -/
inductive Reached (source : SectorSource) (location : Location) (limits : Limits) :
    ChainReader → Bytes → List (Signals × Signals) → Prop
  | start : Reached source location limits (start source location limits) [] []
  | read {reader after : ChainReader} {got : Bytes} {spans : List (Signals × Signals)}
      {wanted : Nat} {signals signals' : Signals} {result : Except MediaError Bytes}
      (before : Reached source location limits reader got spans)
      (step : reader.read wanted signals = (result, after, signals')) :
      Reached source location limits after (got ++ delivered result) ((signals, signals') :: spans)

/-- A reading of the flag in one of the spans found it set. -/
def Disturbed (spans : List (Signals × Signals)) : Prop :=
  ∃ span ∈ spans, span.1.Interrupted span.2

theorem disturbed_cons {before after : Signals} {spans : List (Signals × Signals)} :
    Disturbed ((before, after) :: spans) ↔ Disturbed spans ∨ before.Interrupted after := by
  simp [Disturbed, or_comm]

theorem Stands.iff {disturbed' : Prop} (same : disturbed ↔ disturbed')
    (stands : reader.Stands chain got disturbed) : reader.Stands chain got disturbed' := by
  rwa [propext same] at stands

theorem Reached.stands {source : SectorSource} {location : Location} {limits : Limits}
    {spans : List (Signals × Signals)} (reached : Reached source location limits reader got spans)
    (honest : source.Honest)
    (course : (ChainWalk.start source location limits).course = (chain, none)) :
    reader.Stands chain got (Disturbed spans) := by
  induction reached with
  | start => exact .inl ⟨by simp [Disturbed], intact_start honest course⟩
  | read before step ih =>
    obtain ⟨_, _, _, same, _, _, stands⟩ := ih.read _ _
    rw [step] at same
    cases same
    exact stands.iff disturbed_cons.symm

/-- Where a reader stands after some reads that began under the signals `start`. -/
def Since (chain : List ChainSector) (disturbed : Prop) (start : Signals)
    (state : ChainReader × Signals) (got : Bytes) : Prop :=
  start.Follows state.2 ∧ state.1.Stands chain got (disturbed ∨ start.Interrupted state.2)

theorem Stands.since (stands : reader.Stands chain got disturbed) (signals : Signals) :
    Since chain disturbed signals (reader, signals) got :=
  ⟨.refl _, stands.iff signals.or_interrupted_self⟩

theorem Since.read {start : Signals} (state : ChainReader × Signals) (got : Bytes) (wanted : Nat)
    (since : Since chain disturbed start state got) :
    Since chain disturbed start (ByteSource.read state wanted).2
      (got ++ delivered (ByteSource.read state wanted).1) := by
  obtain ⟨here, now⟩ := state
  obtain ⟨follows, stands⟩ := since
  obtain ⟨result, after, later, step, on, _, onward⟩ := stands.read wanted now
  have same : ByteSource.read (here, now) wanted = (result, after, later) := step
  rw [same]
  refine ⟨follows.trans on, onward.iff ?_⟩
  rw [Signals.interrupted_iff follows on, or_assoc]

/-- Draining a reader reports no failure. It yields the rest of the chain, or the rest up to the
sector at which a reading of the flag found it set. -/
theorem Stands.drain (stands : reader.Stands chain got disturbed) (signals : Signals) :
    ∃ bytes last signals', ByteSource.drain (reader, signals) = (bytes, none, last, signals') ∧
      ∃ fetched ≤ chain.length, got ++ bytes = payload (chain.take fetched) ∧
        (fetched = chain.length ↔ ¬ (disturbed ∨ signals.Interrupted signals')) := by
  have valid := stands.sound
  have quiet := (foretells.drain_eq (reader, signals) valid).2.trans (stands.lasting signals)
  have spent := foretells.drain_spent (reader, signals) valid quiet
  have onward := ByteSource.drain_invariant (fun state got => Since.read state got _)
    (reader, signals) got (stands.since signals)
  rcases drained : ByteSource.drain (reader, signals) with ⟨bytes, failure, last, signals'⟩
  rw [drained] at quiet spent onward
  cases quiet
  refine ⟨bytes, last, signals', rfl, ?_⟩
  obtain ⟨_, ⟨calm, intact⟩ | ⟨stopped, cut⟩⟩ := onward
  · refine ⟨chain.length, Nat.le_refl _, ?_, fun _ => calm, fun _ => rfl⟩
    rw [List.take_length]
    exact intact.spent spent
  · obtain ⟨past, lost, split, some, delivered⟩ := cut.lost
    have size : chain.length = past.length + lost.length := by rw [split, List.length_append]
    have more := List.length_pos_iff.2 some
    refine ⟨past.length, by omega, ?_, fun all => by omega, fun calm => absurd stopped calm⟩
    rw [split, List.take_left]
    exact delivered

end ChainReader
end RetroMedia.Disk
