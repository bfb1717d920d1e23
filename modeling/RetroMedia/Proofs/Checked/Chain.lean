import Mathlib.Data.List.Nodup
import Mathlib.Data.List.Perm.Subperm
import RetroMedia.Disk.Chain
import RetroMedia.Proofs.Checked.Sectors

/-! Chains walked with checked accesses. What keeps the counters of a walk in range is that it visits
no sector twice, since only so many sectors can be named. -/
namespace RetroMedia

namespace Disk

/-- How many sectors can be named. -/
def locations : Nat := 65536

theorem Location.number_lt (location : Location) : location.number < locations := by
  have track := location.track.toNat_lt
  have sector := location.sector.toNat_lt
  unfold Location.number locations
  omega

theorem length_le_of_nodup {places : List Location} (distinct : places.Nodup) :
    places.length ≤ locations := by
  have numbers : (places.map Location.number).Nodup :=
    distinct.map fun _ _ same => Location.number_inj.1 same
  have within : places.map Location.number ⊆ List.range locations := by
    intro number member
    obtain ⟨place, _, rfl⟩ := List.mem_map.1 member
    exact List.mem_range.2 place.number_lt
  simpa using (List.subperm_of_subset numbers within).length_le

end Disk

namespace Checked

open Disk (Location ChainLink ChainSector ChainWalk)

/-- What the first two bytes of a chained sector say. -/
def chainLink (block : Bytes) : Checked (Except MediaError ChainLink) := do
  if (← item block 0) == 0 then
    if (← item block 1) == 0 then return .error .invalidChainLink
    else return .ok (.tail (← add UInt64.size (← item block 1).toNat 1))
  else return .ok (.next ⟨← item block 0, ← item block 1⟩)

theorem chainLink_eq {block : Bytes} (whole : 2 ≤ block.length) :
    chainLink block = .ok (ChainLink.ofBytes block) := by
  have used := (block.byte 1).toNat_lt
  unfold chainLink ChainLink.ofBytes
  rw [byte_eq (by omega), ok_bind]
  split
  · rw [byte_eq (by omega), ok_bind]
    split
    · rfl
    · rw [ok_bind, add_eq (lt_word (by omega))]
      rfl
  · rw [ok_bind, byte_eq (by omega)]
    rfl

/-- What comes of a sector that was read: as much of it as its link says, and where the walk goes on. -/
def deliver (bytes : Bytes) (location : Location) (read : ChainWalk) (signals : Signals) :
    Checked (Except MediaError ChainSector × ChainWalk × Signals) := do
  match ← chainLink bytes with
  | .error error => return (.error error, read, signals)
  | .ok (.next location') =>
    return (.ok ⟨← part bytes 0 Disk.blockSize, location⟩, { read with next := some location' },
      signals)
  | .ok (.tail used) => return (.ok ⟨← part bytes 0 used, location⟩, read, signals)

variable (source : Source)

/-- Read the sector at `location`. -/
def visit (walk : ChainWalk) (location : Location) (signals : Signals) :
    Checked (Except MediaError ChainSector × ChainWalk × Signals) := do
  match ← tick (walk.counter signals) with
  | .error error after => return (.error error, { walk with steps := after.count }, after.signals)
  | .ok _ after =>
    let counted := { walk with steps := after.count }
    if location ∈ walk.visited then return (.error .chainLoop, counted, after.signals)
    else
      let entered := { counted with visited := walk.visited.insert location }
      match ← source location (entered.scanCounter after.signals) with
      | .error error scan =>
        return (.error error, { entered with scanned := scan.count }, scan.signals)
      | .ok block scan =>
        deliver block.bytes location { entered with scanned := scan.count } scan.signals

/-- The next sector of the chain, or `none` once the walk is over. -/
def advance (walk : ChainWalk) (signals : Signals) :
    Checked (Option (Except MediaError ChainSector) × ChainWalk × Signals) :=
  match walk.next with
  | none => return (none, walk, signals)
  | some location => do
    let (result, after, signals) ← visit source { walk with next := none } location signals
    return (some result, after, signals)

theorem tick_ok {progress : Progress} {outcome : EStateM.Result MediaError Progress Unit}
    (ticked : tick progress = .ok outcome) : Progress.tick progress = outcome := by
  unfold tick add fit at ticked
  split at ticked <;> cases ticked
  rfl

theorem deliver_ok {bytes : Bytes} {location : Location} {read after : ChainWalk}
    {signals signals' : Signals} {sector : ChainSector}
    (delivered : deliver bytes location read signals = .ok (.ok sector, after, signals')) :
    after.steps = read.steps ∧ after.limits = read.limits := by
  unfold deliver at delivered
  obtain ⟨link, _, delivered⟩ := ok_of_bind delivered
  cases link with
  | error error => cases delivered
  | ok link =>
    cases link <;> obtain ⟨data, _, delivered⟩ := ok_of_bind delivered <;> cases delivered <;>
      exact ⟨rfl, rfl⟩

/-- A sector is only delivered within the bound, faults or not. -/
theorem visit_ok {walk after : ChainWalk} {location : Location} {signals signals' : Signals}
    {sector : ChainSector}
    (visited : visit source walk location signals = .ok (.ok sector, after, signals')) :
    walk.steps + 1 ≤ walk.limits.maxChainBlocks ∧ after.steps = walk.steps + 1 ∧
      after.limits = walk.limits := by
  unfold visit at visited
  obtain ⟨outcome, ticked, visited⟩ := ok_of_bind visited
  cases outcome with
  | error error progress => cases visited
  | ok _ progress =>
    have law := @Progress.tick_ok_le _ _ walk.limits.maxChainBlocks rfl (tick_ok ticked)
    refine ⟨Nat.le_trans (Nat.le_of_eq law.1.symm) law.2, ?_⟩
    dsimp only at visited
    split at visited
    · cases visited
    · obtain ⟨found, _, visited⟩ := ok_of_bind visited
      cases found with
      | error error scan => cases visited
      | ok block scan =>
        obtain ⟨steps, limits⟩ := deliver_ok visited
        exact ⟨steps.trans law.1, limits⟩

theorem remaining_lt_of_advance {walk after : ChainWalk} {signals signals' : Signals}
    {sector : ChainSector}
    (step : advance source walk signals = .ok (some (.ok sector), after, signals')) :
    after.remaining < walk.remaining := by
  unfold advance at step
  split at step
  · cases step
  · obtain ⟨⟨result, after, signals⟩, visited, step⟩ := ok_of_bind step
    cases step
    obtain ⟨within, steps, limits⟩ := visit_ok source visited
    simp only [ChainWalk.remaining, steps, limits] at within ⊢
    omega

/-- The most steps that sources take for all sectors that a walk has not visited after `steps` of
them. -/
def scansLeft (steps : Nat) : Nat := (Disk.locations - steps) * scanSteps

theorem scansLeft_eq {steps : Nat} (few : steps < Disk.locations) :
    scansLeft steps = scanSteps + scansLeft (steps + 1) := by
  have split : Disk.locations - steps = Disk.locations - (steps + 1) + 1 := by omega
  rw [scansLeft, split, Nat.succ_mul, Nat.add_comm]
  rfl

/-- A walk has visited as many sectors as it has counted, and its source can count what there is left
to do. -/
structure Counts (walk : ChainWalk) : Prop where
  places : ∃ places : List Location, places.Nodup ∧ places.length = walk.steps ∧
    ∀ place ∈ places, place ∈ walk.visited
  scans : walk.scanned + scansLeft walk.steps < UInt64.size

/-- A walk that goes on, or is over, without a fault. -/
structure Fit (walk : ChainWalk) : Prop where
  faithful : source.Faithful walk.source
  counts : walk.next ≠ none → Counts walk

theorem fit_start {source : Source} {plain : Disk.SectorSource} (faithful : source.Faithful plain)
    (location : Location) (limits : Limits) : Fit source (.start plain location limits) where
  faithful := faithful
  counts _ := ⟨⟨[], List.nodup_nil, rfl, by simp⟩, show 0 + scansLeft 0 < UInt64.size by decide⟩

theorem Counts.steps_le {walk : ChainWalk} (counts : Counts walk) : walk.steps ≤ Disk.locations := by
  obtain ⟨places, distinct, size, _⟩ := counts.places
  rw [← size]
  exact Disk.length_le_of_nodup distinct

theorem Counts.steps_lt {walk : ChainWalk} (counts : Counts walk) {location : Location}
    (fresh : location ∉ walk.visited) : walk.steps < Disk.locations := by
  obtain ⟨places, distinct, size, known⟩ := counts.places
  have more : (location :: places).Nodup :=
    List.nodup_cons.2 ⟨fun member => fresh (known location member), distinct⟩
  rw [← size]
  exact Disk.length_le_of_nodup more

/-- Where a walk has entered a sector and its source has counted no more than it may, the counters
agree again. -/
theorem Counts.enter {walk after : ChainWalk} (counts : Counts walk) {location : Location}
    (fresh : location ∉ walk.visited) (steps : after.steps = walk.steps + 1)
    (visited : after.visited = walk.visited.insert location)
    (scans : after.scanned + scansLeft (walk.steps + 1) < UInt64.size) : Counts after := by
  obtain ⟨places, distinct, size, known⟩ := counts.places
  refine ⟨⟨location :: places, ?_, ?_, ?_⟩, steps ▸ scans⟩
  · exact List.nodup_cons.2 ⟨fun member => fresh (known location member), distinct⟩
  · rw [List.length_cons, size, steps]
  · intro place member
    rw [visited, Disk.LocationSet.mem_insert]
    exact (List.mem_cons.1 member).imp id (known place)

theorem tail_used {block : Bytes} {used : Nat} (link : ChainLink.ofBytes block = .ok (.tail used)) :
    2 ≤ used ∧ used ≤ Disk.blockSize := by
  have size := (block.byte 1).toNat_lt
  unfold ChainLink.ofBytes at link
  split at link
  · split at link
    · cases link
    · rename_i some
      cases link
      have positive : (block.byte 1).toNat ≠ 0 := fun zero =>
        some (beq_iff_eq.2 (UInt8.toNat_inj.1 zero))
      unfold Disk.blockSize
      omega
  · cases link

variable {source}

theorem fit_ended {walk : ChainWalk} (faithful : source.Faithful walk.source)
    (idle : walk.next = none) : Fit source walk := ⟨faithful, fun goes => absurd idle goes⟩

/-- A whole sector is delivered without a fault, and what is delivered holds a link at least. -/
theorem deliver_eq {bytes : Bytes} (whole : bytes.length = Disk.blockSize) (location : Location)
    {read : ChainWalk} (faithful : source.Faithful read.source) (idle : read.next = none)
    (counts : ∀ next, Counts { read with next }) (signals : Signals) :
    ∃ outcome, deliver bytes location read signals = .ok outcome ∧
      outcome = (match ChainLink.ofBytes bytes with
        | .error error => (.error error, read, signals)
        | .ok (.next location') =>
          (.ok ⟨bytes, location⟩, { read with next := some location' }, signals)
        | .ok (.tail used) => (.ok ⟨bytes.take used, location⟩, read, signals)) ∧
      Fit source outcome.2.1 ∧
      ∀ sector, outcome.1 = .ok sector → 2 ≤ sector.data.length ∧ Counts outcome.2.1 := by
  have here : Counts read := counts read.next
  unfold deliver
  rw [chainLink_eq (by rw [whole]; decide), ok_bind]
  cases link : ChainLink.ofBytes bytes with
  | error error => exact ⟨_, rfl, rfl, fit_ended faithful idle, by rintro _ ⟨⟩⟩
  | ok link' =>
    cases link' with
    | next location' =>
      have full : bytes.field 0 Disk.blockSize = bytes := by
        rw [Bytes.field, List.drop_zero, List.take_of_length_le (Nat.le_of_eq whole)]
      dsimp only
      rw [part_eq (Nat.zero_le _) (Nat.le_of_eq whole.symm), ok_bind, Nat.sub_zero, full]
      refine ⟨_, rfl, rfl, ⟨faithful, fun _ => counts _⟩, ?_⟩
      rintro sector ⟨⟩
      exact ⟨by rw [whole]; decide, counts _⟩
    | tail used =>
      obtain ⟨two, fits⟩ := tail_used link
      dsimp only
      rw [part_eq (Nat.zero_le _) (by rw [whole]; exact fits), ok_bind]
      refine ⟨_, rfl, rfl, fit_ended faithful idle, ?_⟩
      rintro sector ⟨⟩
      refine ⟨?_, here⟩
      rw [Bytes.field, List.length_take, List.length_drop, whole]
      exact Nat.le_min.2 ⟨two, by decide⟩

/-- A visit meets no fault, and what it delivers holds a link at least. -/
theorem visit_eq {walk : ChainWalk} (faithful : source.Faithful walk.source) (counts : Counts walk)
    (idle : walk.next = none) (location : Location) (signals : Signals) :
    visit source walk location signals = .ok (walk.visit location signals) ∧
      Fit source (walk.visit location signals).2.1 ∧
      ∀ sector, (walk.visit location signals).1 = .ok sector →
        2 ≤ sector.data.length ∧ Counts (walk.visit location signals).2.1 := by
  have steps := counts.steps_le
  have ticked : tick (walk.counter signals) = .ok (Progress.tick (walk.counter signals)) := by
    have counter : (walk.counter signals).count = walk.steps := rfl
    rw [tick, add_eq (lt_word (by rw [counter]; unfold Disk.locations at steps; omega))]
    rfl
  have counted := (walk.counter signals).tick_count
  unfold visit ChainWalk.visit
  rw [ticked, ok_bind]
  cases step : Progress.tick (walk.counter signals) with
  | error error after => exact ⟨rfl, fit_ended faithful idle, by rintro _ ⟨⟩⟩
  | ok _ after =>
    rw [step] at counted
    dsimp only at counted ⊢
    by_cases seen : location ∈ walk.visited
    · rw [if_pos seen, if_pos seen]
      exact ⟨rfl, fit_ended faithful idle, by rintro _ ⟨⟩⟩
    · rw [if_neg seen, if_neg seen]
      let entered : ChainWalk :=
        { walk with steps := after.count, visited := walk.visited.insert location }
      -- what the source may count for this sector is set apart from what it may count afterwards
      have room : Room (scanSteps + scansLeft (walk.steps + 1))
          (entered.scanCounter after.signals) := by
        have scans := counts.scans
        rw [scansLeft_eq (counts.steps_lt seen)] at scans
        exact scans
      obtain ⟨same, law⟩ := faithful location _ _ room
      change (source location (entered.scanCounter after.signals) >>= _) = _ ∧ _
      rw [same, ok_bind]
      cases found : walk.source location (entered.scanCounter after.signals) with
      | error error scan => exact ⟨rfl, fit_ended faithful idle, by rintro _ ⟨⟩⟩
      | ok block scan =>
        rw [found] at law
        let read : ChainWalk := { entered with scanned := scan.count }
        obtain ⟨outcome, done, rfl, fit, delivers⟩ :=
          deliver_eq block.length_eq location (show source.Faithful read.source from faithful) idle
            (fun next => counts.enter seen counted rfl law.2) scan.signals
        exact ⟨done, fit, delivers⟩

theorem advance_eq {walk : ChainWalk} (fit : Fit source walk) (signals : Signals) :
    advance source walk signals = .ok (walk.advance signals) ∧
      Fit source (walk.advance signals).2.1 ∧
      ∀ sector, (walk.advance signals).1 = some (.ok sector) →
        2 ≤ sector.data.length ∧ Counts (walk.advance signals).2.1 ∧
          (walk.advance signals).2.1.steps = walk.steps + 1 := by
  unfold advance ChainWalk.advance
  cases here : walk.next with
  | none => exact ⟨rfl, fit, by rintro _ ⟨⟩⟩
  | some location =>
    have counts : Counts { walk with next := none } := by
      have counts := fit.counts (by rw [here]; exact Option.some_ne_none _)
      exact ⟨counts.places, counts.scans⟩
    obtain ⟨same, after, law⟩ :=
      visit_eq (show source.Faithful { walk with next := none }.source from fit.faithful) counts rfl
        location signals
    dsimp only
    rw [same, ok_bind]
    refine ⟨rfl, after, ?_⟩
    intro sector delivered
    obtain ⟨linked, onward⟩ := law sector (Option.some.inj delivered)
    exact ⟨linked, onward, (ChainWalk.visit_steps { walk with next := none } location signals).1⟩

/-- A step without a fault is the step of the walk itself. -/
theorem advanced {walk after : ChainWalk} {signals signals' : Signals}
    {found : Option (Except MediaError ChainSector)} (fit : Fit source walk)
    (step : advance source walk signals = .ok (found, after, signals')) :
    walk.advance signals = (found, after, signals') ∧ Fit source after ∧
      ∀ sector, found = some (.ok sector) →
        2 ≤ sector.data.length ∧ Counts after ∧ after.steps = walk.steps + 1 := by
  obtain ⟨same, onward, delivers⟩ := advance_eq fit signals
  have moved := Except.ok.inj (same.symm.trans step)
  rw [moved] at onward delivers
  exact ⟨moved, onward, delivers⟩

variable (source)

/-- Add up the bytes that the sectors ahead hold besides their links. -/
def measure (walk : ChainWalk) (size : Nat) (signals : Signals) :
    Checked (Except MediaError Nat × Signals) :=
  match _step : advance source walk signals with
  | .error fault => .error fault
  | .ok (none, _, signals) => return (.ok size, signals)
  | .ok (some (.error error), _, signals) => return (.error error, signals)
  | .ok (some (.ok sector), after, signals) => do
    let data ← sub sector.data.length 2
    measure after (← add UInt64.size size data) signals
termination_by walk.remaining
decreasing_by exact remaining_lt_of_advance source _step

/-- The data length of the chain that begins at a location. -/
def chainSize (plain : Disk.SectorSource) (location : Location) (limits : Limits)
    (signals : Signals) : Checked (Except MediaError Nat × Signals) :=
  measure source (ChainWalk.start plain location limits) 0 signals

variable {source}

theorem measure_of_advance {walk : ChainWalk} {size : Nat} {signals : Signals}
    {found : Option (Except MediaError ChainSector) × ChainWalk × Signals} :
    advance source walk signals = .ok found →
    measure source walk size signals = (match found with
      | (none, _, signals) => return (.ok size, signals)
      | (some (.error error), _, signals) => return (.error error, signals)
      | (some (.ok sector), after, signals) => do
        let data ← sub sector.data.length 2
        measure source after (← add UInt64.size size data) signals) := by
  intro step
  rw [measure]
  split <;> rename_i same <;> cases step.symm.trans same <;> rfl

theorem measure_eq {walk : ChainWalk} (fit : Fit source walk) {size : Nat}
    (small : size ≤ walk.steps * Disk.blockSize) (signals : Signals) :
    measure source walk size signals = .ok (match walk.sectors signals with
      | (sectors, none, signals) =>
        (.ok (sectors.foldl (fun size sector => size + (sector.data.length - 2)) size), signals)
      | (_, some error, signals) => (.error error, signals)) := by
  fun_induction ChainWalk.sectors walk signals generalizing size with
  | case1 walk signals after signals' step =>
    rw [measure_of_advance (advance_eq fit signals).1, step]
    rfl
  | case2 walk signals error after signals' step =>
    rw [measure_of_advance (advance_eq fit signals).1, step]
    rfl
  | case3 walk signals sector after signals' step more failure last rest ih =>
    obtain ⟨same, onward, delivers⟩ := advance_eq fit signals
    rw [step] at same onward delivers
    obtain ⟨linked, counts, steps⟩ := delivers sector rfl
    have held := ChainWalk.length_le_of_advance step
    have grown : size + (sector.data.length - 2) ≤ after.steps * Disk.blockSize := by
      dsimp only at steps
      rw [steps, Nat.succ_mul]
      omega
    have bounded : after.steps * Disk.blockSize ≤ 65536 * 256 :=
      Nat.mul_le_mul_right 256 counts.steps_le
    rw [measure_of_advance same]
    dsimp only
    rw [sub_eq linked, ok_bind, add_eq (lt_word (by omega)), ok_bind, ih onward grown, rest]
    cases failure <;> rfl

theorem chainSize_eq {plain : Disk.SectorSource} (faithful : source.Faithful plain)
    (location : Location) (limits : Limits) (signals : Signals) :
    chainSize source plain location limits signals
      = .ok (Disk.chainSize plain location limits signals) := by
  rw [chainSize, measure_eq (fit_start faithful location limits) (Nat.zero_le _)]
  unfold Disk.chainSize ChainWalk.whole
  rcases (ChainWalk.start plain location limits).sectors signals with ⟨sectors, failure, after⟩
  cases failure <;> rfl

end Checked
end RetroMedia
