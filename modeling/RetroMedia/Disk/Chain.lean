import RetroMedia.Disk.LocationSet

/-! Chains of sectors. The first two bytes of a sector lead to the next one; in the last sector
they tell how much of it is used. A walk visits no sector twice and is bounded in length. -/
namespace RetroMedia.Disk

/-- What the first two bytes of a chained sector say. -/
inductive ChainLink where
  | next (location : Location)
  /-- The last sector, of which so many bytes are used, the link among them. -/
  | tail (used : Nat)
  deriving DecidableEq, Repr

namespace ChainLink

/-- A last sector always counts its own link among its used bytes. -/
def ofBytes (block : Bytes) : Except MediaError ChainLink :=
  if block.byte 0 == 0 then
    if block.byte 1 == 0 then .error .invalidChainLink
    else .ok (.tail ((block.byte 1).toNat + 1))
  else .ok (.next (Location.ofBytes block))

end ChainLink

/-- One sector of a chain: its used bytes, link included, and its place. -/
structure ChainSector where
  data : Bytes
  location : Location
  deriving DecidableEq, Repr

/-- A walk along a chain. -/
structure ChainWalk where
  source : SectorSource
  limits : Limits
  /-- Where the walk goes on; `none` once it is over. -/
  next : Option Location
  visited : LocationSet := ∅
  /-- Sectors asked for so far. -/
  steps : Nat := 0
  /-- Steps that the source has counted. -/
  scanned : Nat := 0

namespace ChainWalk

def start (source : SectorSource) (location : Location) (limits : Limits) : ChainWalk :=
  { source, limits, next := some location }

/-- The counter of the walk itself. -/
def counter (walk : ChainWalk) (signals : Signals) : Progress :=
  { limits := walk.limits, count := walk.steps, bound := some walk.limits.maxChainBlocks, signals }

/-- The counter that the source is given, which has no bound. -/
def scanCounter (walk : ChainWalk) (signals : Signals) : Progress :=
  { limits := walk.limits, count := walk.scanned, bound := none, signals }

/-- A bound on the sectors still to come. -/
def remaining (walk : ChainWalk) : Nat := walk.limits.maxChainBlocks + 1 - walk.steps

/-- Read the sector at `location`. The bound is checked first, then whether the sector was visited
before, and only then is it read. -/
def visit (walk : ChainWalk) (location : Location) (signals : Signals) :
    Except MediaError ChainSector × ChainWalk × Signals :=
  match Progress.tick (walk.counter signals) with
  | .error error after => (.error error, { walk with steps := after.count }, after.signals)
  | .ok _ after =>
    let counted := { walk with steps := after.count }
    if location ∈ walk.visited then (.error .chainLoop, counted, after.signals)
    else
      let entered := { counted with visited := walk.visited.insert location }
      match walk.source location (entered.scanCounter after.signals) with
      | .error error scan => (.error error, { entered with scanned := scan.count }, scan.signals)
      | .ok block scan =>
        let read := { entered with scanned := scan.count }
        match ChainLink.ofBytes block.bytes with
        | .error error => (.error error, read, scan.signals)
        | .ok (.next location') =>
          (.ok ⟨block.bytes, location⟩, { read with next := some location' }, scan.signals)
        | .ok (.tail used) => (.ok ⟨block.bytes.take used, location⟩, read, scan.signals)

/-- The next sector of the chain, or `none` once the walk is over. A failure ends it. -/
def advance (walk : ChainWalk) (signals : Signals) :
    Option (Except MediaError ChainSector) × ChainWalk × Signals :=
  match walk.next with
  | none => (none, walk, signals)
  | some location =>
    let (result, after, signals) := { walk with next := none }.visit location signals
    (some result, after, signals)

/-- Every visit counts one step and leaves the limits alone. -/
theorem visit_steps (walk : ChainWalk) (location : Location) (signals : Signals) :
    (walk.visit location signals).2.1.steps = walk.steps + 1
      ∧ (walk.visit location signals).2.1.limits = walk.limits := by
  have counted := Progress.tick_count (walk.counter signals)
  unfold visit
  split
  · rename_i step
    rw [step] at counted
    exact ⟨counted, rfl⟩
  · rename_i step
    rw [step] at counted
    dsimp only
    (repeat' split) <;> exact ⟨counted, rfl⟩

/-- A sector is only delivered within the bound. -/
theorem visit_ok_le {walk after : ChainWalk} {location : Location} {signals signals' : Signals}
    {sector : ChainSector} (visited : walk.visit location signals = (.ok sector, after, signals')) :
    walk.steps + 1 ≤ walk.limits.maxChainBlocks := by
  unfold visit at visited
  split at visited
  · simp at visited
  · rename_i step
    have := @Progress.tick_ok_le _ _ walk.limits.maxChainBlocks rfl step
    simp only [counter] at this
    omega

/-- A chain sector holds at most its block. -/
theorem visit_length_le {walk after : ChainWalk} {location : Location} {signals signals' : Signals}
    {sector : ChainSector} (visited : walk.visit location signals = (.ok sector, after, signals')) :
    sector.data.length ≤ blockSize := by
  unfold visit at visited
  split at visited
  · simp at visited
  · dsimp only at visited
    split at visited
    · simp at visited
    · split at visited
      · simp at visited
      · rename_i block _ _
        have size := block.length_eq
        split at visited
        · simp at visited
        · cases visited
          exact Nat.le_of_eq size
        · cases visited
          simp only [List.length_take]
          omega

/-- Each delivered sector brings the walk nearer to its end. -/
theorem remaining_lt_of_advance {walk after : ChainWalk} {signals signals' : Signals}
    {sector : ChainSector} (step : walk.advance signals = (some (.ok sector), after, signals')) :
    after.remaining < walk.remaining := by
  unfold advance at step
  split at step
  · simp at step
  · rename_i location _
    simp only [Prod.mk.injEq, Option.some.injEq] at step
    obtain ⟨delivered, rfl, rfl⟩ := step
    have steps := visit_steps { walk with next := none } location signals
    have bound := @visit_ok_le { walk with next := none } _ location signals _ _
      (Prod.ext delivered rfl)
    simp only [remaining, steps.1, steps.2] at *
    omega

theorem length_le_of_advance {walk after : ChainWalk} {signals signals' : Signals}
    {sector : ChainSector} (step : walk.advance signals = (some (.ok sector), after, signals')) :
    sector.data.length ≤ blockSize := by
  unfold advance at step
  split at step
  · simp at step
  · rename_i location _
    simp only [Prod.mk.injEq, Option.some.injEq] at step
    exact @visit_length_le { walk with next := none } _ location signals _ _ (Prod.ext step.1 rfl)

/-- All sectors up to the end of the chain or the failure that ends it. -/
def sectors (walk : ChainWalk) (signals : Signals) :
    List ChainSector × Option MediaError × Signals :=
  match _step : walk.advance signals with
  | (none, _, signals) => ([], none, signals)
  | (some (.error error), _, signals) => ([], some error, signals)
  | (some (.ok sector), after, signals) =>
    let (more, failure, signals) := after.sectors signals
    (sector :: more, failure, signals)
termination_by walk.remaining
decreasing_by exact remaining_lt_of_advance _step

/-- The whole chain, or the failure that ends it early. -/
def whole (walk : ChainWalk) (signals : Signals) : Except MediaError (List ChainSector) × Signals :=
  match walk.sectors signals with
  | (sectors, none, signals) => (.ok sectors, signals)
  | (_, some error, signals) => (.error error, signals)

end ChainWalk

/-- Bytes that a chain holds besides its links. -/
def payloadSize (sectors : List ChainSector) : Nat :=
  sectors.foldl (fun size sector => size + (sector.data.length - 2)) 0

/-- The data length of the chain that begins at `start`. -/
def chainSize (source : SectorSource) (start : Location) (limits : Limits) (signals : Signals) :
    Except MediaError Nat × Signals :=
  let (sectors, signals) := (ChainWalk.start source start limits).whole signals
  (sectors.map payloadSize, signals)

/-- The locations of the chain that begins at `start`, in order. -/
def chainLocations (source : SectorSource) (start : Location) (limits : Limits)
    (signals : Signals) : Except MediaError (List Location) × Signals :=
  let (sectors, signals) := (ChainWalk.start source start limits).whole signals
  (sectors.map (·.map (·.location)), signals)

end RetroMedia.Disk
