import RetroMedia.Disk.Volume
import RetroMedia.Proofs.Disk.ChainOutlook
import RetroMedia.Proofs.Disk.Sources
import RetroMedia.Proofs.Stream.Outlook

/-! Bytes that are stored in a chain. A file is cut into pieces that fill the sectors of a path, each
with the address of the next one, and the last sector tells how much of it is used. Walking and
reading such a chain, two loops of their own, both give back what was stored. -/
namespace RetroMedia.Disk

namespace SectorSource

/-- The sector at a location holds just these bytes: whenever no flag interrupts it, the source yields
them. Nothing is asked of other locations. -/
def Has (source : SectorSource) (location : Location) (bytes : Bytes) : Prop :=
  ∃ block : Block, block.bytes = bytes ∧ (source location).Heeds (.ok block)

/-- The pieces of `content` are stored one after another in the sectors of `path`. -/
structure Stores (source : SectorSource) (path : List Location) (content : Bytes) : Prop where
  distinct : path.Nodup
  /-- Track zero marks the last sector, so no link can lead to it. -/
  onTracks : ∀ location ∈ path, location.track ≠ 0
  length : path.length = max 1 ((content.length + (chainedSize - 1)) / chainedSize)
  linked : ∀ place location next, path[place]? = some location → path[place + 1]? = some next →
    source.Has location
      ([next.track, next.sector] ++ content.field (place * chainedSize) chainedSize)
  last : ∀ location, path.getLast? = some location → ∃ padding,
    source.Has location
      ([0, UInt8.ofNat ((content.drop ((path.length - 1) * chainedSize)).length + 1)]
        ++ content.drop ((path.length - 1) * chainedSize) ++ padding)

variable {source : SectorSource} {location next : Location} {path : List Location}
  {content bytes : Bytes}

theorem Has.unique (has : source.Has location bytes) {found : Bytes}
    (again : source.Has location found) : found = bytes := by
  obtain ⟨block, rfl, heeds⟩ := has
  obtain ⟨other, rfl, heeds'⟩ := again
  have law := heeds {} rfl
  have law' := heeds' {} rfl
  match step : source location {} with
  | .ok value after =>
    rw [step] at law law'
    cases law.2.2.2.trans law'.2.2.2.symm
    rfl
  | .error error after =>
    rw [step] at law
    obtain ⟨_, _, ⟨_, never⟩ | ⟨never, _⟩⟩ := law
    · cases never
    · exact absurd never Signals.calm_quiet.not_interrupted

theorem Stores.length_of_cons (stores : source.Stores (location :: next :: path) content) :
    chainedSize < content.length := by
  have size := stores.length
  simp only [List.length_cons, chainedSize] at size ⊢
  omega

/-- All sectors but the last are full. -/
theorem Stores.full_le (stores : source.Stores path content) :
    (path.length - 1) * chainedSize ≤ content.length := by
  have size := stores.length
  simp only [chainedSize] at size ⊢
  omega

theorem Stores.length_last (stores : source.Stores path content) :
    (content.drop ((path.length - 1) * chainedSize)).length ≤ chainedSize := by
  have size := stores.length
  simp only [List.length_drop, chainedSize] at size ⊢
  omega

/-- Behind its first sector a path stores what is left behind the first piece. -/
theorem Stores.tail (stores : source.Stores (location :: next :: path) content) :
    source.Stores (next :: path) (content.drop chainedSize) := by
  have more := stores.length_of_cons
  have rest : content.drop ((path.length + 1) * chainedSize)
      = (content.drop chainedSize).drop (path.length * chainedSize) := by
    rw [List.drop_drop, Nat.succ_mul, Nat.add_comm]
  refine ⟨stores.distinct.of_cons, ?_, ?_, ?_, ?_⟩
  · intro other member
    exact stores.onTracks other (List.mem_cons_of_mem _ member)
  · have size := stores.length
    simp only [List.length_cons, List.length_drop, chainedSize] at size more ⊢
    omega
  · intro place here there first second
    have has := stores.linked (place + 1) here there first second
    have piece : content.field ((place + 1) * chainedSize) chainedSize
        = Bytes.field (content.drop chainedSize) (place * chainedSize) chainedSize := by
      simp only [Bytes.field, List.drop_drop, Nat.succ_mul, Nat.add_comm]
    rwa [piece] at has
  · intro here final
    have has := stores.last here final
    simp only [List.length_cons, Nat.add_sub_cancel] at has ⊢
    rwa [rest] at has

end SectorSource

namespace ChainLink

theorem ofBytes_link {next : Location} (onTrack : next.track ≠ 0) (piece : Bytes) :
    ofBytes ([next.track, next.sector] ++ piece) = .ok (.next next) := by
  have other : (next.track == 0) = false := by simpa using onTrack
  simp [ofBytes, Bytes.byte, Location.ofBytes, other]

/-- What is left for the last sector can be counted in its second byte. -/
theorem toNat_mark {rest : Bytes} (fits : rest.length ≤ chainedSize) :
    (UInt8.ofNat (rest.length + 1)).toNat = rest.length + 1 := by
  rw [UInt8.toNat_ofNat']
  unfold chainedSize at fits
  omega

theorem ofBytes_last {rest : Bytes} (fits : rest.length ≤ chainedSize) (padding : Bytes) :
    ofBytes ([0, UInt8.ofNat (rest.length + 1)] ++ rest ++ padding)
      = .ok (.tail (rest.length + 2)) := by
  have value := toNat_mark fits
  generalize UInt8.ofNat (rest.length + 1) = mark at value
  have used : mark ≠ 0 := by
    rintro rfl
    cases value
  simp [ofBytes, Bytes.byte, used, value]

end ChainLink

namespace ChainWalk

variable {walk : ChainWalk} {location : Location} {bytes : Bytes}

/-- A visit to a sector within the bound that was not visited yet comes to its link and its bytes,
or a reading of the flag ends it. -/
theorem visit_of_has (has : walk.source.Has location bytes)
    (room : walk.steps + 1 ≤ walk.limits.maxChainBlocks) (fresh : location ∉ walk.visited)
    (signals : Signals) :
    ∃ signals', signals.Follows signals' ∧
      ((signals.Interrupted signals' ∧
          ∃ after, walk.visit location signals = (.error .cancelled, after, signals')) ∨
        (¬ signals.Interrupted signals' ∧ ∃ scanned,
          let read := { walk with
            steps := walk.steps + 1, visited := walk.visited.insert location, scanned }
          walk.visit location signals = match ChainLink.ofBytes bytes with
            | .error error => (.error error, read, signals')
            | .ok (.next location') =>
              (.ok ⟨bytes, location⟩, { read with next := some location' }, signals')
            | .ok (.tail used) => (.ok ⟨bytes.take used, location⟩, read, signals'))) := by
  obtain ⟨block, rfl, heeds⟩ := has
  unfold visit
  rcases Progress.tick_cases (walk.counter signals) with
    ⟨finished, _⟩ | ⟨_, middle, follows, ⟨stopped, step⟩ | ⟨clear, step⟩⟩
  · have long : walk.limits.maxChainBlocks < walk.steps + 1 := of_decide_eq_true finished
    omega
  · rw [step]
    exact ⟨middle, follows, .inl ⟨stopped, _, rfl⟩⟩
  · rw [step]
    dsimp only
    rw [if_neg fresh]
    let entered : ChainWalk :=
      { walk with steps := walk.steps + 1, visited := walk.visited.insert location }
    have law := heeds (entered.scanCounter middle) rfl
    match read : walk.source location (entered.scanCounter middle) with
    | .error error scan =>
      rw [read] at law
      obtain ⟨_, on, ⟨_, never⟩ | ⟨stopped, rfl⟩⟩ := law
      · cases never
      · exact ⟨_, follows.trans on,
          .inl ⟨(Signals.interrupted_iff follows on).2 (.inr stopped), _, rfl⟩⟩
    | .ok value scan =>
      rw [read] at law
      obtain ⟨_, on, quiet, same⟩ := law
      cases same
      exact ⟨_, follows.trans on,
        .inr ⟨Signals.not_interrupted_trans follows on clear quiet, scan.count, rfl⟩⟩

/-- A walk that stands before a stored path goes along all of it and collects what is stored there,
unless a reading of the flag ends it. -/
theorem sectors_of_stores {path : List Location} {content : Bytes}
    (stores : walk.source.Stores path content) (here : walk.next = path.head?)
    (room : walk.steps + path.length ≤ walk.limits.maxChainBlocks)
    (fresh : ∀ location ∈ path, location ∉ walk.visited) (signals : Signals) :
    ∃ found failure signals', walk.sectors signals = (found, failure, signals') ∧
      signals.Follows signals' ∧
      ((signals.Interrupted signals' ∧ failure = some .cancelled) ∨
        (¬ signals.Interrupted signals' ∧ failure = none ∧
          found.map ChainSector.location = path ∧ payload found = content)) := by
  induction path generalizing walk content signals with
  | nil =>
    have none := stores.length
    simp only [List.length_nil] at none
    omega
  | cons location rest ih =>
    have first : location ∉ walk.visited := fresh location List.mem_cons_self
    have within : walk.steps + 1 ≤ walk.limits.maxChainBlocks := by
      rw [List.length_cons] at room
      omega
    have begins : walk.advance signals = (some ({ walk with next := none }.visit location signals).1,
        ({ walk with next := none }.visit location signals).2) := by
      rw [advance, here]
      rfl
    -- the last sector ends the walk, and every other one leads on to a shorter path
    cases rest with
    | nil =>
      have fits : content.length ≤ chainedSize := by simpa using stores.length_last
      obtain ⟨padding, has⟩ := stores.last location rfl
      simp only [List.length_cons, List.length_nil, Nat.add_sub_cancel, Nat.zero_mul,
        List.drop_zero] at has
      obtain ⟨signals', follows, ⟨stopped, after, step⟩ | ⟨clear, scanned, step⟩⟩ :=
        @visit_of_has { walk with next := none } _ _ has within first signals
      · rw [step] at begins
        exact ⟨_, _, _, sectors_of_error begins, follows, .inl ⟨stopped, rfl⟩⟩
      · rw [ChainLink.ofBytes_last fits] at step
        rw [step] at begins
        have ended : ∀ after : ChainWalk, after.next = none →
            after.sectors signals' = ([], none, signals') := by
          intro after finished
          refine @sectors_of_over _ after _ _ ?_
          rw [advance, finished]
        refine ⟨_, _, _, sectors_of_ok begins, ?_⟩
        rw [ended _ rfl]
        refine ⟨follows, .inr ⟨clear, rfl, rfl, ?_⟩⟩
        simp [ChainSector.payload]
    | cons next rest =>
      have has := stores.linked 0 location next rfl rfl
      have onTrack := stores.onTracks next (by simp)
      obtain ⟨signals', follows, ⟨stopped, after, step⟩ | ⟨clear, scanned, step⟩⟩ :=
        @visit_of_has { walk with next := none } _ _ has within first signals
      · rw [step] at begins
        exact ⟨_, _, _, sectors_of_error begins, follows, .inl ⟨stopped, rfl⟩⟩
      · rw [ChainLink.ofBytes_link onTrack] at step
        rw [step] at begins
        let onward : ChainWalk := { walk with
          steps := walk.steps + 1, visited := walk.visited.insert location, scanned
          next := some next }
        have unvisited : ∀ other ∈ next :: rest, other ∉ onward.visited := by
          intro other member
          rw [LocationSet.mem_insert, not_or]
          refine ⟨?_, fresh other (List.mem_cons_of_mem _ member)⟩
          rintro rfl
          exact (List.nodup_cons.1 stores.distinct).1 member
        have space : onward.steps + (next :: rest).length ≤ onward.limits.maxChainBlocks := by
          simp only [List.length_cons, onward] at room ⊢
          omega
        obtain ⟨found, failure, last, more, on, law⟩ :=
          ih (show onward.source.Stores _ _ from stores.tail) rfl space unvisited signals'
        refine ⟨_, _, _, (sectors_of_ok begins).trans (by rw [more]), follows.trans on, ?_⟩
        rw [Signals.interrupted_iff follows on]
        rcases law with ⟨stopped, same⟩ | ⟨quiet, none, places, data⟩
        · exact .inl ⟨.inr stopped, same⟩
        · refine .inr ⟨not_or.2 ⟨clear, quiet⟩, none, by rw [List.map_cons, places], ?_⟩
          have piece : (ChainSector.mk ([next.track, next.sector]
              ++ content.field (0 * chainedSize) chainedSize) location).payload
              = content.take chainedSize := by
            simp [ChainSector.payload, Bytes.field]
          rw [payload_cons, data, piece, List.take_append_drop]

end ChainWalk

/-- A file that is stored in a chain comes back whole. Walking the chain finds the size of the file
and the path that it was stored on, and reading the chain into nonempty buffers of any sizes gives
the bytes of the file and then nothing. Only a reading of the cancellation flag that finds it set
comes between, and the walk then fails as cancelled. -/
theorem stored_chain_round_trip {source : SectorSource} {path : List Location} {content : Bytes}
    (stores : source.Stores path content) {start : Location} (begins : path.head? = some start)
    {limits : Limits} (fits : path.length ≤ limits.maxChainBlocks) (signals : Signals) :
    (∀ last bytes, path.getLast? = some last → source.Has last bytes →
        content.length = (path.length - 1) * chainedSize + (bytes.byte 1).toNat - 1) ∧
      ∃ after, signals.Follows after ∧
        ((¬ signals.Interrupted after ∧
            chainSize source start limits signals = (.ok content.length, after) ∧
            chainLocations source start limits signals = (.ok path, after) ∧
            ByteSource.YieldsExactly (ChainReader.start source start limits, signals) content) ∨
          (signals.Interrupted after ∧
            chainSize source start limits signals = (.error .cancelled, after) ∧
            chainLocations source start limits signals = (.error .cancelled, after))) := by
  constructor
  · intro last bytes final has
    obtain ⟨padding, stored⟩ := stores.last last final
    obtain rfl := stored.unique has
    have rest := stores.length_last
    have whole := stores.full_le
    simp only [Bytes.byte, List.cons_append, List.nil_append, List.getD_cons_succ,
      List.getD_cons_zero, ChainLink.toNat_mark rest]
    rw [List.length_drop]
    omega
  · let walk := ChainWalk.start source start limits
    have unvisited : ∀ location ∈ path, location ∉ walk.visited :=
      fun location _ => LocationSet.not_mem_empty location
    have room : walk.steps + path.length ≤ walk.limits.maxChainBlocks :=
      (Nat.zero_add path.length).symm ▸ fits
    obtain ⟨found, failure, after, step, follows, law⟩ :=
      ChainWalk.sectors_of_stores (show walk.source.Stores path content from stores) begins.symm room
        unvisited signals
    refine ⟨after, follows, ?_⟩
    unfold chainSize chainLocations ChainWalk.whole
    rw [step]
    rcases law with ⟨stopped, rfl⟩ | ⟨clear, rfl, places, data⟩
    · exact .inr ⟨stopped, rfl, rfl⟩
    · have ahead : (ChainReader.start source start limits).outlook signals = ⟨content, none⟩ := by
        have going : (ChainReader.start source start limits).ahead signals
            = ⟨payload (walk.sectors signals).1, (walk.sectors signals).2.1⟩ := rfl
        rw [step, data] at going
        exact going
      refine .inl ⟨clear, ?_, ?_, ?_⟩
      · rw [← data, length_payload]
        rfl
      · rw [← places]
        rfl
      · exact ChainReader.foretells.yieldsExactly (ChainReader.sound_start _ _ _) ahead

/-- A file of three hundred bytes. -/
def countingFile : Bytes := (List.range 300).map UInt8.ofNat

theorem length_countingFile : countingFile.length = 300 := by
  simp [countingFile]

/-- The file begins in the middle of track 17 and ends on track 1. -/
def countingBytes (location : Location) : Bytes :=
  if location = ⟨17, 3⟩ then [1, 0] ++ countingFile.field 0 chainedSize
  else [0, 47] ++ countingFile.drop chainedSize ++ List.replicate 208 0

def countingSectors : SectorSource := .ofLookup fun location => .ok (.ofBytes (countingBytes location))

theorem stores_countingFile : countingSectors.Stores [⟨17, 3⟩, ⟨1, 0⟩] countingFile := by
  have size := length_countingFile
  have has (location : Location) : countingSectors.Has location (countingBytes location) := by
    have whole : (countingBytes location).length = blockSize := by
      unfold countingBytes
      split
      · rw [List.length_append, Bytes.length_field _ (by rw [size]; decide)]
        rfl
      · rw [List.length_append, List.length_append, List.length_drop, List.length_replicate, size]
        rfl
    exact ⟨_, List.take_left' whole, SectorSource.heeds_ofLookup location⟩
  refine ⟨by decide, by decide, by rw [size]; decide, ?_, ?_⟩
  · intro place location next first second
    match place with
    | 0 =>
      cases first
      cases second
      exact has ⟨17, 3⟩
    | place + 1 => cases second
  · intro location final
    cases final
    refine ⟨List.replicate 208 0, ?_⟩
    have here := has ⟨1, 0⟩
    simp only [List.length_drop, size, List.length_cons, List.length_nil, chainedSize]
    exact here

/-- Both sectors of the file are found and read. -/
theorem stored_chain_round_trip_of_two :
    countingSectors.Stores [⟨17, 3⟩, ⟨1, 0⟩] countingFile ∧
      (chainSize countingSectors ⟨17, 3⟩ {} .quiet).1 = .ok 300 ∧
      (chainLocations countingSectors ⟨17, 3⟩ {} .quiet).1 = .ok [⟨17, 3⟩, ⟨1, 0⟩] ∧
      ByteSource.YieldsExactly (ChainReader.start countingSectors ⟨17, 3⟩ {}, Signals.quiet)
        countingFile := by
  obtain ⟨after, _, ⟨_, size, locations, bytes⟩ | ⟨stopped, _⟩⟩ :=
    (stored_chain_round_trip stores_countingFile rfl (show 2 ≤ ({} : Limits).maxChainBlocks by decide)
      .quiet).2
  · exact ⟨stores_countingFile, by rw [size, length_countingFile], by rw [locations], bytes⟩
  · exact absurd stopped Signals.calm_quiet.not_interrupted

end RetroMedia.Disk
