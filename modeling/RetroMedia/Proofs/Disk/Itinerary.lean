import Mathlib.Algebra.Ring.Nat
import RetroMedia.Proofs.Disk.ChainOutlook
import RetroMedia.Proofs.Disk.ChainWalk

/-! Itineraries. The links between the sectors alone say what a walk along them yields, step by step,
and where it ends: the bound is asked first, then the locations passed before, then the sector. A walk
follows its itinerary until a reading of the flag ends it, and its length and its locations are those
of the items that it yields. -/
namespace RetroMedia.Disk

namespace Block

variable (block : Block)

/-- The location that a block leads to. Track zero marks the last block of a chain. -/
def link? : Option Location :=
  if block.bytes.byte 0 = 0 then none else some ⟨block.bytes.byte 0, block.bytes.byte 1⟩

/-- The used bytes of a block, its link among them. The last block counts them from its second byte
on. -/
def used : Except MediaError Bytes :=
  if block.bytes.byte 0 ≠ 0 then .ok block.bytes
  else if block.bytes.byte 1 = 0 then .error .invalidChainLink
  else .ok (block.bytes.take ((block.bytes.byte 1).toNat + 1))

/-- A block leads on with all of its bytes, or it is the last one, or its link is invalid. -/
theorem ofBytes_cases :
    (∃ next, ChainLink.ofBytes block.bytes = .ok (.next next) ∧ block.link? = some next ∧
        block.used = .ok block.bytes) ∨
      (∃ count, ChainLink.ofBytes block.bytes = .ok (.tail count) ∧ block.link? = none ∧
        block.used = .ok (block.bytes.take count)) ∨
      (ChainLink.ofBytes block.bytes = .error .invalidChainLink ∧ block.link? = none ∧
        block.used = .error .invalidChainLink) := by
  by_cases last : block.bytes.byte 0 = 0
  · by_cases empty : block.bytes.byte 1 = 0
    · simp [ChainLink.ofBytes, link?, used, last, empty]
    · simp [ChainLink.ofBytes, link?, used, last, empty]
  · simp [ChainLink.ofBytes, Location.ofBytes, link?, used, last]

variable {block}

theorem used_of_link? {next : Location} (leads : block.link? = some next) :
    block.used = .ok block.bytes := by
  obtain ⟨_, _, _, used⟩ | ⟨_, _, none, _⟩ | ⟨_, none, _⟩ := block.ofBytes_cases
  · exact used
  · cases none.symm.trans leads
  · cases none.symm.trans leads

theorem two_le_of_used {data : Bytes} (used : block.used = .ok data) : 2 ≤ data.length := by
  have size := block.length_eq
  unfold Block.used at used
  split at used
  · cases used
    rw [size]
    decide
  · split at used
    · cases used
    · rename_i some
      cases used
      have positive : (block.bytes.byte 1).toNat ≠ 0 := fun zero => some (UInt8.toNat_inj.1 zero)
      rw [List.length_take, size]
      unfold blockSize
      omega

end Block

/-- A walk that is planned: what the sectors hold, where it starts, and how many sectors it may take. -/
structure Itinerary where
  lookup : Location → Except MediaError Block
  start : Location
  limit : Nat

namespace Itinerary

variable (plan : Itinerary)

/-- The start, and then the link of one location after the other. -/
def place : Nat → Option Location
  | 0 => some plan.start
  | step + 1 => (place step).bind fun location =>
      (plan.lookup location).toOption.bind Block.link?

/-- The location comes up before the given step. -/
def Passed (step : Nat) (location : Location) : Prop :=
  ∃ earlier < step, plan.place earlier = some location

instance (step : Nat) (location : Location) : Decidable (plan.Passed step location) :=
  inferInstanceAs (Decidable (∃ earlier < step, plan.place earlier = some location))

/-- What comes of the location that a step leads to. -/
def itemAt (step : Nat) (location : Location) : Except MediaError ChainSector :=
  if plan.limit ≤ step then .error .chainTooLong
  else if plan.Passed step location then .error .chainLoop
  else do
    let block ← plan.lookup location
    let data ← block.used
    return ⟨data, location⟩

/-- What comes of a step, as long as the links lead that far. -/
def item (step : Nat) : Option (Except MediaError ChainSector) :=
  (plan.place step).map (plan.itemAt step)

/-- What a walk yields at a step: its item, if every step before it came to a sector. -/
def yields (step : Nat) : Option (Except MediaError ChainSector) :=
  if ∀ earlier < step, (plan.item earlier).any Except.isOk then plan.item step else none

/-- The links lead back for the first time. -/
def Returns (step : Nat) : Prop :=
  (∃ location, plan.place step = some location ∧ plan.Passed step location) ∧
    ∀ earlier < step, ∀ location, plan.place earlier = some location → ¬ plan.Passed earlier location

variable {plan}

theorem place_succ {step : Nat} {location : Location} {block : Block}
    (here : plan.place step = some location) (read : plan.lookup location = .ok block) :
    plan.place (step + 1) = block.link? := by
  rw [place, here, Option.bind_some, read]
  rfl

theorem isSome_place_of_le {first last : Nat} (before : first ≤ last)
    (leads : (plan.place last).isSome) : (plan.place first).isSome := by
  induction before with
  | refl => exact leads
  | step _ ih =>
    obtain ⟨_, next⟩ := Option.isSome_iff_exists.1 leads
    obtain ⟨location, found, _⟩ := Option.bind_eq_some_iff.1 next
    exact ih (by rw [found]; rfl)

theorem passed_succ {step : Nat} {here location : Location} (leads : plan.place step = some here) :
    plan.Passed (step + 1) location ↔ location = here ∨ plan.Passed step location := by
  constructor
  · rintro ⟨earlier, before, found⟩
    rcases Nat.lt_succ_iff_lt_or_eq.1 before with early | rfl
    · exact .inr ⟨earlier, early, found⟩
    · exact .inl (Option.some.inj (found.symm.trans leads))
  · rintro (rfl | ⟨earlier, early, found⟩)
    · exact ⟨step, Nat.lt_succ_self step, leads⟩
    · exact ⟨earlier, Nat.lt_succ_of_lt early, found⟩

theorem any_isOk_iff {item : Option (Except MediaError ChainSector)} :
    item.any Except.isOk = true ↔ ∃ sector, item = some (.ok sector) := by
  rcases item with _ | _ | sector
  · simp
  · simp [Except.isOk, Except.toBool]
  · simp [Except.isOk, Except.toBool]

theorem isOk_of_yields {step : Nat} {item : Except MediaError ChainSector}
    (yields : plan.yields step = some item) :
    (∀ earlier < step, (plan.item earlier).any Except.isOk) ∧ plan.item step = some item := by
  unfold Itinerary.yields at yields
  split at yields
  · exact ⟨‹_›, yields⟩
  · cases yields

/-- A sector comes from a step within the limit, which led to a location for the first time. -/
theorem of_item_ok {step : Nat} {sector : ChainSector} (item : plan.item step = some (.ok sector)) :
    step < plan.limit ∧ plan.place step = some sector.location ∧
      ¬ plan.Passed step sector.location ∧ 2 ≤ sector.data.length := by
  obtain ⟨location, leads, made⟩ := Option.map_eq_some_iff.1 item
  unfold itemAt at made
  split at made
  · cases made
  · split at made
    · cases made
    · rename_i within fresh
      cases read : plan.lookup location with
      | error error =>
        rw [read] at made
        cases made
      | ok block =>
        rw [read] at made
        cases used : block.used with
        | error error =>
          simp only [bind, Except.bind, used] at made
          cases made
        | ok data =>
          simp only [bind, Except.bind, used] at made
          cases made
          exact ⟨Nat.lt_of_not_le within, leads, fresh, Block.two_le_of_used used⟩

/-- Nothing comes after the limit. -/
theorem yields_eq_none_of_lt {step : Nat} (late : plan.limit < step) : plan.yields step = none := by
  rw [yields, if_neg]
  intro all
  obtain ⟨sector, item⟩ := any_isOk_iff.1 (all plan.limit late)
  exact Nat.lt_irrefl _ (of_item_ok item).1

/-- Before the links lead back, and within the limit, every step comes to a sector. -/
theorem Returns.item_ok {last step : Nat} (returns : plan.Returns last) (before : step < last)
    (within : step < plan.limit) : ∃ sector, plan.item step = some (.ok sector) := by
  obtain ⟨⟨there, leads, _⟩, fresh⟩ := returns
  have onward : (plan.place (step + 1)).isSome :=
    isSome_place_of_le before (by rw [leads]; rfl)
  obtain ⟨next, onward⟩ := Option.isSome_iff_exists.1 onward
  obtain ⟨location, here, link⟩ := Option.bind_eq_some_iff.1 onward
  obtain ⟨block, read, link⟩ := Option.bind_eq_some_iff.1 link
  have read : plan.lookup location = .ok block := by
    cases found : plan.lookup location with
    | error error =>
      rw [found] at read
      cases read
    | ok other =>
      rw [found] at read
      cases read
      rfl
  refine ⟨⟨block.bytes, location⟩, ?_⟩
  rw [item, here, Option.map_some, itemAt, if_neg (Nat.not_le.2 within),
    if_neg (fresh step before location here), read]
  simp only [bind, Except.bind, Block.used_of_link? link]
  rfl

/-- A walk fails where its links lead back for the first time, or where it meets its limit first. -/
theorem Returns.yields {step : Nat} (returns : plan.Returns step) :
    plan.yields (min step plan.limit)
      = some (.error (if step < plan.limit then .chainLoop else .chainTooLong)) := by
  have reached : ∀ earlier < min step plan.limit, (plan.item earlier).any Except.isOk := by
    intro earlier early
    obtain ⟨before, within⟩ := Nat.lt_min.1 early
    exact any_isOk_iff.2 (returns.item_ok before within)
  obtain ⟨⟨location, leads, passed⟩, _⟩ := returns
  rw [Itinerary.yields, if_pos reached]
  by_cases within : step < plan.limit
  · rw [if_pos within, Nat.min_eq_left (Nat.le_of_lt within), item, leads, Option.map_some, itemAt,
      if_neg (Nat.not_le.2 within), if_pos passed]
  · have late := Nat.le_of_not_lt within
    obtain ⟨there, found⟩ := Option.isSome_iff_exists.1
      (isSome_place_of_le late (by rw [leads]; rfl))
    rw [if_neg within, Nat.min_eq_right late, item, found, Option.map_some, itemAt,
      if_pos (Nat.le_refl _)]

/-- A walk that has followed the plan for so many steps. -/
structure Stands (plan : Itinerary) (step : Nat) (walk : ChainWalk) : Prop where
  lookup : walk.source.lookup = plan.lookup
  limit : walk.limits.maxChainBlocks = plan.limit
  next : walk.next = plan.place step
  steps : walk.steps = step
  visited : ∀ location, location ∈ walk.visited ↔ plan.Passed step location

theorem stands_start (source : SectorSource) (start : Location) (limits : Limits) :
    Stands ⟨source.lookup, start, limits.maxChainBlocks⟩ 0 (ChainWalk.start source start limits) := by
  refine ⟨rfl, rfl, rfl, rfl, ?_⟩
  intro location
  constructor
  · intro member
    exact absurd member (LocationSet.not_mem_empty location)
  · rintro ⟨_, before, _⟩
    cases before

variable {walk : ChainWalk} {step : Nat} {location : Location}

/-- A step of the walk comes to its item, and a sector takes the walk on as planned. -/
theorem Stands.settled (stands : plan.Stands step walk) (here : walk.next = some location) :
    ({ walk with next := none }.settled location).1 = plan.itemAt step location ∧
      ∀ sector, plan.itemAt step location = .ok sector →
        plan.Stands (step + 1) ({ walk with next := none }.settled location).2 := by
  obtain ⟨lookup, limit, next, rfl, visited⟩ := stands
  have leads : plan.place walk.steps = some location := next.symm.trans here
  have entered : ∀ other, other ∈ walk.visited.insert location ↔
      plan.Passed (walk.steps + 1) other := by
    intro other
    rw [LocationSet.mem_insert, visited, passed_succ leads]
  unfold ChainWalk.settled itemAt
  rw [lookup, limit]
  by_cases long : plan.limit ≤ walk.steps
  · rw [if_pos (Nat.lt_succ_of_le long), if_pos long]
    exact ⟨rfl, nofun⟩
  · have room : ¬ plan.limit < walk.steps + 1 := fun late => long (Nat.le_of_lt_succ late)
    rw [if_neg room, if_neg long]
    by_cases loop : plan.Passed walk.steps location
    · rw [if_pos ((visited location).2 loop), if_pos loop]
      exact ⟨rfl, nofun⟩
    · rw [if_neg (fun member => loop ((visited location).1 member)), if_neg loop]
      cases read : plan.lookup location with
      | error error => exact ⟨rfl, nofun⟩
      | ok block =>
        have onward := place_succ leads read
        simp only [bind, Except.bind]
        obtain ⟨there, link, leads, used⟩ | ⟨count, link, leads, used⟩ | ⟨link, leads, used⟩ :=
          block.ofBytes_cases
        · rw [link, used]
          exact ⟨rfl, fun _ _ => ⟨lookup, limit, (onward.trans leads).symm, rfl, entered⟩⟩
        · rw [link, used]
          exact ⟨rfl, fun _ _ => ⟨lookup, limit, (onward.trans leads).symm, rfl, entered⟩⟩
        · rw [link, used]
          exact ⟨rfl, nofun⟩

end Itinerary

/-- The items of a walk: its sectors and the failure that ends it. -/
def items (walked : List ChainSector × Option MediaError) : List (Except MediaError ChainSector) :=
  walked.1.map .ok ++ walked.2.toList.map .error

theorem items_cons (sector : ChainSector) (sectors : List ChainSector) (failure : Option MediaError) :
    items (sector :: sectors, failure) = .ok sector :: items (sectors, failure) := rfl

/-- Whoever collects the items gets all of the sectors, or the failure. -/
theorem mapM_items {α : Type} (change : ChainSector → α) (sectors : List ChainSector)
    (failure : Option MediaError) :
    (items (sectors, failure)).mapM (Except.map change) = match failure with
      | none => .ok (sectors.map change)
      | some error => .error error := by
  induction sectors with
  | nil => cases failure <;> rfl
  | cons sector rest ih =>
    rw [items_cons, List.mapM_cons, ih]
    cases failure <;> rfl

namespace Itinerary

variable {plan : Itinerary} {walk : ChainWalk} {step : Nat}

/-- The items of the course of a walk are those of its plan, up to the first that is no sector. -/
theorem Stands.course (stands : plan.Stands step walk) (call : Nat) :
    (items walk.course)[call]? = if ∀ earlier < call, (plan.item (step + earlier)).any Except.isOk
      then plan.item (step + call) else none := by
  fun_induction ChainWalk.course walk generalizing step call with
  | case1 walk finished =>
    have ended : plan.item step = none := by
      rw [item, ← stands.next, finished]
      rfl
    cases call with
    | zero => simp [items, ended]
    | succ call =>
      rw [if_neg]
      · rfl
      · intro all
        have first := all 0 (Nat.succ_pos call)
        rw [Nat.add_zero, ended] at first
        cases first
  | case2 walk location here error after settles =>
    have failed : plan.item step = some (.error error) := by
      obtain ⟨same, _⟩ := stands.settled here
      rw [settles] at same
      rw [item, ← stands.next, here, Option.map_some, ← same]
    cases call with
    | zero => simp [items, failed]
    | succ call =>
      rw [if_neg]
      · rfl
      · intro all
        have first := all 0 (Nat.succ_pos call)
        rw [Nat.add_zero, failed] at first
        cases first
  | case3 walk location here sector after settles ih =>
    obtain ⟨same, onward⟩ := stands.settled here
    rw [settles] at same onward
    have delivered : plan.item step = some (.ok sector) := by
      rw [item, ← stands.next, here, Option.map_some, ← same]
    rw [items_cons]
    cases call with
    | zero => simp [delivered]
    | succ call =>
      have shift (later : Nat) : step + (later + 1) = step + 1 + later := by omega
      rw [List.getElem?_cons_succ, ih (onward sector same.symm) call]
      refine ite_congr (propext ⟨?_, ?_⟩) (fun _ => by rw [shift call]) fun _ => rfl
      · intro all earlier before
        cases earlier with
        | zero =>
          rw [Nat.add_zero, delivered]
          rfl
        | succ earlier =>
          rw [shift]
          exact all earlier (Nat.lt_of_succ_lt_succ before)
      · intro all earlier before
        rw [← shift]
        exact all (earlier + 1) (Nat.succ_lt_succ before)

/-- A walk that begins takes what the plan yields. -/
theorem course_start (source : SectorSource) (start : Location) (limits : Limits) (call : Nat) :
    (items (ChainWalk.start source start limits).course)[call]?
      = Itinerary.yields ⟨source.lookup, start, limits.maxChainBlocks⟩ call := by
  rw [(stands_start source start limits).course call, Itinerary.yields]
  simp only [Nat.zero_add]

end Itinerary

namespace ChainWalk

/-- What a walk yields when it is asked for the next item once more, after so many times. -/
def yielded (walk : ChainWalk) (signals : Signals) : Nat → Option (Except MediaError ChainSector)
  | 0 => (walk.advance signals).1
  | calls + 1 => (walk.advance signals).2.1.yielded (walk.advance signals).2.2 calls

theorem yielded_of_over {walk : ChainWalk} (finished : walk.next = none) (signals : Signals)
    (call : Nat) : walk.yielded signals call = none := by
  have ended : walk.advance signals = (none, walk, signals) := by rw [advance, finished]
  induction call with
  | zero => rw [yielded, ended]
  | succ call ih => rw [yielded, ended, ih]

/-- Where the walk is over it stays over. -/
theorem next_of_over {walk after : ChainWalk} {signals signals' : Signals}
    (step : walk.advance signals = (none, after, signals')) : after.next = none := by
  unfold advance at step
  split at step
  · cases step
    assumption
  · cases step

/-- A failure leaves nothing to go on to. -/
theorem next_of_error {walk after : ChainWalk} {signals signals' : Signals} {error : MediaError}
    (step : walk.advance signals = (some (.error error), after, signals')) : after.next = none := by
  unfold advance at step
  split at step
  · cases step
  · rename_i location _
    simp only [Prod.mk.injEq, Option.some.injEq] at step
    obtain ⟨failed, rfl, -⟩ := step
    unfold visit at failed ⊢
    split
    · rfl
    · rename_i ticked
      rw [ticked] at failed
      dsimp only at failed ⊢
      (repeat' split) <;> simp_all

/-- Call by call a walk yields the sectors that it reaches, the failure that ends it, and then nothing
any more. -/
theorem yielded_eq (walk : ChainWalk) (signals : Signals) (call : Nat) :
    walk.yielded signals call
      = (items ((walk.sectors signals).1, (walk.sectors signals).2.1))[call]? := by
  induction call generalizing walk signals with
  | zero =>
    rw [yielded]
    match step : walk.advance signals with
    | (none, after, signals') => rw [sectors_of_over step]; rfl
    | (some (.error error), after, signals') => rw [sectors_of_error step]; rfl
    | (some (.ok sector), after, signals') => rw [sectors_of_ok step]; rfl
  | succ call ih =>
    rw [yielded]
    match step : walk.advance signals with
    | (none, after, signals') =>
      rw [sectors_of_over step, yielded_of_over (next_of_over step)]
      rfl
    | (some (.error error), after, signals') =>
      rw [sectors_of_error step, yielded_of_over (next_of_error step)]
      rfl
    | (some (.ok sector), after, signals') =>
      rw [sectors_of_ok step, items_cons, List.getElem?_cons_succ, ih]

end ChainWalk

variable {sectors : List ChainSector} {failure : Option MediaError}

theorem getElem?_items_of_lt {call : Nat} (before : call < sectors.length) :
    (items (sectors, failure))[call]? = some (.ok sectors[call]) := by
  simp [items, List.getElem?_append_left, before]

theorem mem_items_iff {sector : ChainSector} :
    .ok sector ∈ items (sectors, failure) ↔ sector ∈ sectors := by
  simp [items]

theorem length_items : (items (sectors, failure)).length = sectors.length + failure.toList.length := by
  simp [items]

/-- A failure comes behind all sectors. -/
theorem of_getElem?_items {call : Nat} {error : MediaError}
    (failed : (items (sectors, failure))[call]? = some (.error error)) :
    failure = some error ∧ call = sectors.length := by
  have member := List.mem_of_getElem? failed
  have last : failure = some error := by simpa [items] using member
  have inside := List.getElem?_eq_some_iff.1 failed |>.1
  rw [length_items, last] at inside
  refine ⟨last, Nat.le_antisymm (Nat.le_of_lt_succ inside) (Nat.le_of_not_lt ?_)⟩
  intro before
  rw [getElem?_items_of_lt before] at failed
  cases failed

theorem filterMap_items {α : Type} (change : ChainSector → α) :
    (items (sectors, failure)).filterMap (fun item => item.toOption.map change)
      = sectors.map change := by
  induction sectors with
  | nil => cases failure <;> rfl
  | cons sector rest ih =>
    rw [items_cons, List.filterMap_cons, ih]
    rfl

theorem payloadSize_eq_sum (sectors : List ChainSector) :
    payloadSize sectors = (sectors.map fun sector => sector.data.length - 2).sum := by
  rw [payloadSize, List.sum_eq_foldl, List.foldl_map]

/-- The walk along the length of a chain and the one along its locations collect the same items. -/
theorem chain_eq {source : SectorSource} {start : Location} {limits : Limits} {signals after : Signals}
    (walked : (ChainWalk.start source start limits).sectors signals = (sectors, failure, after)) :
    chainLocations source start limits signals
        = ((items (sectors, failure)).mapM (Except.map ChainSector.location), after) ∧
      chainSize source start limits signals
        = (((items (sectors, failure)).mapM
            (Except.map fun sector => sector.data.length - 2)).map List.sum, after) := by
  unfold chainLocations chainSize ChainWalk.whole
  rw [walked, mapM_items, mapM_items]
  cases failure with
  | none => exact ⟨rfl, by simp [Except.map, payloadSize_eq_sum]⟩
  | some error => exact ⟨rfl, rfl⟩

/-- Each sector of a course comes from the step of its itinerary. -/
theorem item_course {source : SectorSource} {start : Location} {limits : Limits} {call : Nat}
    (before : call < (ChainWalk.start source start limits).course.1.length) :
    Itinerary.item ⟨source.lookup, start, limits.maxChainBlocks⟩ call
      = some (.ok (ChainWalk.start source start limits).course.1[call]) := by
  have yields := (Itinerary.course_start source start limits call).symm.trans
    (getElem?_items_of_lt before)
  exact (Itinerary.isOk_of_yields yields).2

/-- The locations that a walk comes to are all different. -/
theorem nodup_course (source : SectorSource) (start : Location) (limits : Limits) :
    ((ChainWalk.start source start limits).course.1.map ChainSector.location).Nodup := by
  rw [List.Nodup, List.pairwise_iff_getElem]
  intro early late inside inside' before same
  rw [List.length_map] at inside inside'
  rw [List.getElem_map, List.getElem_map] at same
  obtain ⟨_, leads, _, _⟩ := Itinerary.of_item_ok (item_course inside)
  obtain ⟨_, _, fresh, _⟩ := Itinerary.of_item_ok (item_course inside')
  exact fresh ⟨early, before, same ▸ leads⟩

theorem length_course_le (source : SectorSource) (start : Location) (limits : Limits) :
    (items (ChainWalk.start source start limits).course).length ≤ limits.maxChainBlocks + 1 := by
  apply List.getElem?_eq_none_iff.1
  rw [Itinerary.course_start]
  exact Itinerary.yields_eq_none_of_lt (Nat.lt_succ_self _)

/-- The sectors of a walk are a first part of its course. All of it is taken, with its failure, unless
a reading of the flag comes before. -/
theorem ChainWalk.sectors_prefix (walk : ChainWalk) (honest : walk.source.Honest) (signals : Signals) :
    ∃ found failure after, walk.sectors signals = (found, failure, after) ∧ signals.Follows after ∧
      found <+: walk.course.1 ∧ (items (found, failure)).length ≤ (items walk.course).length ∧
      (¬ signals.Interrupted after → walk.course = (found, failure)) ∧
      (signals.Interrupted after → failure = some .cancelled) := by
  obtain ⟨found, failure, after, walked, follows, ⟨stopped, rfl, lost, split, more⟩ | ⟨clear, whole⟩⟩ :=
    walk.sectors_cases honest signals
  · refine ⟨found, _, after, walked, follows, ⟨lost, split.symm⟩, ?_, fun calm => absurd stopped calm,
      fun _ => rfl⟩
    have size : (items walk.course).length
        = found.length + lost.length + walk.course.2.toList.length := by
      rw [items, List.length_append, List.length_map, List.length_map, split, List.length_append]
    rw [size, length_items, Option.toList_some, List.length_singleton]
    rcases more with some | failed
    · have := List.length_pos_iff.2 some
      omega
    · obtain ⟨error, failed⟩ := Option.ne_none_iff_exists'.1 failed
      rw [failed, Option.toList_some, List.length_singleton]
      omega
  · have same : found = walk.course.1 := by rw [whole]
    exact ⟨found, failure, after, walked, follows, same ▸ List.prefix_rfl, Nat.le_of_eq (by rw [whole]),
      fun _ => whole, fun hit => absurd hit clear⟩

/-- A walk yields the items of its itinerary and then nothing any more, or it is cut short by the first
reading of the flag that finds it set. It yields at most one item more than it may take sectors, and no
location twice. Where the links lead back, it fails for the loop if they do so within the limit, and
for its length otherwise. The locations and the data length of the chain are those of the items, or the
failure among them. -/
theorem chain_walk_exact {source : SectorSource} (honest : source.Honest) (start : Location)
    (limits : Limits) (signals : Signals) :
    let plan : Itinerary := ⟨source.lookup, start, limits.maxChainBlocks⟩
    ∃ (yielded : List (Except MediaError ChainSector)) (after : Signals), signals.Follows after ∧
      (∀ call, (ChainWalk.start source start limits).yielded signals call = yielded[call]?) ∧
      chainLocations source start limits signals
        = (yielded.mapM (Except.map ChainSector.location), after) ∧
      chainSize source start limits signals
        = ((yielded.mapM (Except.map fun sector => sector.data.length - 2)).map List.sum, after) ∧
      yielded.length ≤ limits.maxChainBlocks + 1 ∧
      (yielded.filterMap fun item => item.toOption.map ChainSector.location).Nodup ∧
      (∀ sector, .ok sector ∈ yielded → 2 ≤ sector.data.length) ∧
      (¬ signals.Interrupted after →
        (∀ call, yielded[call]? = plan.yields call) ∧
          ∀ step, plan.Returns step →
            (chainSize source start limits signals).1
                = .error (if step < limits.maxChainBlocks then .chainLoop else .chainTooLong) ∧
              yielded.length = min step limits.maxChainBlocks + 1) ∧
      (signals.Interrupted after →
        ∃ calls, yielded.length = calls + 1 ∧ yielded[calls]? = some (.error .cancelled) ∧
          ∀ call < calls, yielded[call]? = plan.yields call) := by
  intro plan
  let walk := ChainWalk.start source start limits
  obtain ⟨found, failure, after, walked, follows, first, short, whole, cancelled⟩ :=
    walk.sectors_prefix honest signals
  obtain ⟨locations, size⟩ := chain_eq walked
  have delivered {call : Nat} (before : call < found.length) :
      plan.item call = some (.ok found[call]) := by
    have inside := Nat.lt_of_lt_of_le before first.length_le
    have same : found[call] = walk.course.1[call] := first.getElem before
    rw [same]
    exact item_course inside
  refine ⟨items (found, failure), after, follows, ?_, locations, size, ?_, ?_, ?_, ?_, ?_⟩
  · intro call
    rw [ChainWalk.yielded_eq, walked]
  · exact Nat.le_trans short (length_course_le source start limits)
  · rw [filterMap_items]
    exact (nodup_course source start limits).sublist (first.sublist.map _)
  · intro sector member
    obtain ⟨call, before, rfl⟩ := List.getElem_of_mem (mem_items_iff.1 member)
    exact (Itinerary.of_item_ok (delivered before)).2.2.2
  · intro clear
    have planned (call : Nat) : (items (found, failure))[call]? = plan.yields call := by
      rw [← whole clear]
      exact Itinerary.course_start source start limits call
    refine ⟨planned, ?_⟩
    intro step returns
    obtain ⟨failed, last⟩ := of_getElem?_items ((planned _).trans returns.yields)
    constructor
    · rw [size, mapM_items, failed]
      rfl
    · rw [length_items, failed, ← last]
      rfl
  · intro stopped
    cases cancelled stopped
    refine ⟨found.length, length_items, by simp [items], ?_⟩
    intro call before
    rw [getElem?_items_of_lt before, Itinerary.yields, if_pos, delivered before]
    intro earlier early
    exact Itinerary.any_isOk_iff.2 ⟨_, delivered (Nat.lt_trans early before)⟩

/-- Two sectors on track 1 that lead to each other. -/
def ringSource : SectorSource :=
  .ofLookup fun location => .ok (.ofBytes [1, 1 - location.sector])

theorem returns_ring (limit : Nat) : Itinerary.Returns ⟨ringSource.lookup, ⟨1, 0⟩, limit⟩ 2 := by
  let plan : Itinerary := ⟨ringSource.lookup, ⟨1, 0⟩, limit⟩
  have first : plan.place 1 = some ⟨1, 1⟩ :=
    Itinerary.place_succ (show plan.place 0 = some ⟨1, 0⟩ from rfl) rfl
  have second : plan.place 2 = some ⟨1, 0⟩ := Itinerary.place_succ first rfl
  refine ⟨⟨⟨1, 0⟩, second, 0, by decide, rfl⟩, ?_⟩
  rintro earlier before location here ⟨former, early, there⟩
  match earlier, former with
  | 1, 0 => cases (first.symm.trans here).trans there.symm

/-- The third step of a walk around the ring leads back. A walk that may take three sectors finds the
loop there, and a walk that may take two is too long by then. -/
theorem chain_walk_exact_of_ring :
    ringSource.Honest ∧
      (chainSize ringSource ⟨1, 0⟩ { maxChainBlocks := 3 } .quiet).1 = .error .chainLoop ∧
      (chainSize ringSource ⟨1, 0⟩ { maxChainBlocks := 2 } .quiet).1 = .error .chainTooLong ∧
      ∃ yielded : List (Except MediaError ChainSector), yielded.length = 3 ∧
        ∀ call, (ChainWalk.start ringSource ⟨1, 0⟩ { maxChainBlocks := 2 }).yielded .quiet call
          = yielded[call]? := by
  have honest : ringSource.Honest := SectorSource.regular_ofLookup.honest
  obtain ⟨_, after, _, _, _, _, _, _, _, found, _⟩ :=
    chain_walk_exact honest ⟨1, 0⟩ { maxChainBlocks := 3 } .quiet
  obtain ⟨yielded, after', _, calls, _, _, _, _, _, long, _⟩ :=
    chain_walk_exact honest ⟨1, 0⟩ { maxChainBlocks := 2 } .quiet
  have looped := (found Signals.calm_quiet.not_interrupted).2 2 (returns_ring 3)
  have stopped := (long Signals.calm_quiet.not_interrupted).2 2 (returns_ring 2)
  exact ⟨honest, looped.1, stopped.1, yielded, stopped.2, calls⟩

end RetroMedia.Disk
