import RetroMedia.Proofs.Disk.ChainWalk
import RetroMedia.Proofs.Disk.Parallel

/-! Chains of regular sources, where the flag keeps its value. Walks along them, their readers and the
directories in them come to the same under any signals, and the signals are all that may be different
afterwards. -/
namespace RetroMedia.Disk

variable {fit : Signals → Prop} {flag : Bool} {signals signals' : Signals}

theorem SectorSource.Regular.agrees {source : SectorSource} (regular : source.Regular)
    (uniform : Signals.Uniform fit flag) (location : Location) :
    (source location).Agrees fit (source location) := by
  obtain ⟨result, steps, same⟩ := regular location
  rw [same]
  exact Walk.counted_agrees uniform result steps

namespace ChainWalk

variable {walk : ChainWalk}

theorem visit_of_uniform (uniform : Signals.Uniform fit flag) (regular : walk.source.Regular)
    (location : Location) (fits : fit signals) (fits' : fit signals') :
    ∃ result after last last', walk.visit location signals = (result, after, last) ∧
      walk.visit location signals' = (result, after, last') ∧ fit last ∧ fit last' := by
  have counters : (walk.counter signals).Alike fit (walk.counter signals') :=
    ⟨rfl, rfl, rfl, fits, fits'⟩
  have ticks := Walk.agrees_tick uniform _ _ counters
  unfold visit
  match step : Progress.tick (walk.counter signals),
      step' : Progress.tick (walk.counter signals') with
  | .error error early, .error error' early' =>
    rw [step, step'] at ticks
    obtain ⟨rfl, on⟩ := ticks
    exact ⟨_, _, _, _, rfl, by rw [on.count], on.fits, on.fits'⟩
  | .ok _ early, .ok _ early' =>
    rw [step, step'] at ticks
    obtain ⟨-, on⟩ := ticks
    dsimp only
    rw [← on.count]
    by_cases loop : location ∈ walk.visited
    · rw [if_pos loop, if_pos loop]
      exact ⟨_, _, _, _, rfl, rfl, on.fits, on.fits'⟩
    · rw [if_neg loop, if_neg loop]
      -- The source counts on where it stopped, under the signals that the step has left behind.
      let entered : ChainWalk :=
        { walk with steps := early.count, visited := walk.visited.insert location }
      have scanners : (entered.scanCounter early.signals).Alike fit
          (entered.scanCounter early'.signals) := ⟨rfl, rfl, rfl, on.fits, on.fits'⟩
      have scans := regular.agrees uniform location _ _ scanners
      match read : walk.source location (entered.scanCounter early.signals),
          read' : walk.source location (entered.scanCounter early'.signals) with
      | .error error scan, .error error' scan' =>
        rw [read, read'] at scans
        obtain ⟨rfl, next⟩ := scans
        exact ⟨_, _, _, _, rfl, by rw [next.count], next.fits, next.fits'⟩
      | .ok block scan, .ok block' scan' =>
        rw [read, read'] at scans
        obtain ⟨rfl, next⟩ := scans
        dsimp only
        rw [← next.count]
        rcases ChainLink.ofBytes block.bytes with error | (location' | used) <;>
          exact ⟨_, _, _, _, rfl, rfl, next.fits, next.fits'⟩
      | .ok _ _, .error _ _ | .error _ _, .ok _ _ =>
        rw [read, read'] at scans
        cases scans
  | .ok _ _, .error _ _ | .error _ _, .ok _ _ =>
    rw [step, step'] at ticks
    cases ticks

/-- A walk along a regular source goes in parallel with itself. -/
theorem parallel_of_uniform (uniform : Signals.Uniform fit flag) :
    Parallel fit fun walk walk' => walk = walk' ∧ walk.source.Regular := by
  rintro walk _ signals signals' ⟨rfl, regular⟩ fits fits'
  unfold advance
  cases walk.next with
  | none => exact ⟨_, _, _, _, _, rfl, rfl, ⟨rfl, regular⟩, fits, fits'⟩
  | some location =>
    have source := visit_source { walk with next := none } location signals
    have regular' : ({ walk with next := none } : ChainWalk).source.Regular := regular
    obtain ⟨result, after, last, last', same, same', still, still'⟩ :=
      visit_of_uniform uniform regular' location fits fits'
    rw [same] at source
    have onward : after.source.Regular := by
      rw [show after.source = walk.source from source]
      exact regular
    dsimp only
    rw [same, same']
    exact ⟨_, _, _, _, _, rfl, rfl, ⟨rfl, onward⟩, still, still'⟩

/-- What a walk delivers under some signals, it delivers under others. -/
theorem advance_of_uniform (uniform : Signals.Uniform fit flag) (regular : walk.source.Regular)
    (fits : fit signals) (fits' : fit signals') {result : Option (Except MediaError ChainSector)}
    {after : ChainWalk} {last : Signals} (step : walk.advance signals = (result, after, last)) :
    ∃ last', walk.advance signals' = (result, after, last') ∧ after.source.Regular ∧
      fit last ∧ fit last' := by
  obtain ⟨_, _, _, _, last', same, same', ⟨rfl, onward⟩, still, still'⟩ :=
    parallel_of_uniform uniform _ _ _ _ ⟨rfl, regular⟩ fits fits'
  rw [step] at same
  cases same
  exact ⟨last', same', onward, still, still'⟩

end ChainWalk

/-- A disk goes in parallel with itself. -/
theorem Volume.parallel_of_uniform (uniform : Signals.Uniform fit flag) {volume : Volume}
    (regular : volume.source.Regular) :
    Parallel fit (fun walk walk' => walk = walk' ∧ walk.source.Regular) volume volume := by
  refine ⟨ChainWalk.parallel_of_uniform uniform, ?_, rfl⟩
  intro location limits
  exact ⟨rfl, regular⟩

namespace ChainReader

theorem fill_eq (reader : ChainReader) (wanted : Nat) (signals : Signals) :
    reader.fill wanted signals =
      if wanted = 0 ∨ reader.exhausted then ([], none, reader, signals)
      else if reader.block ≠ [] then
        let piece := reader.block.take wanted
        let (more, failure, after, signals) :=
          fill { reader with block := reader.block.drop wanted } (wanted - piece.length) signals
        (piece ++ more, failure, after, signals)
      else
        match reader.walk.advance signals with
        | (none, walk, signals) => ([], none, { reader with walk, exhausted := true }, signals)
        | (some (.error error), walk, signals) =>
          ([], some error, { reader with walk, exhausted := true }, signals)
        | (some (.ok sector), walk, signals) =>
          fill { reader with walk, block := sector.data.drop 2 } wanted signals := by
  rw [fill]
  split
  · rfl
  · split
    · rfl
    · split <;> rename_i step <;> rw [step]

theorem fill_of_uniform (uniform : Signals.Uniform fit flag) {reader : ChainReader}
    (regular : reader.walk.source.Regular) (wanted : Nat) (fits : fit signals)
    (fits' : fit signals') :
    ∃ bytes failure after last last', reader.fill wanted signals = (bytes, failure, after, last) ∧
      reader.fill wanted signals' = (bytes, failure, after, last') ∧
      after.walk.source.Regular ∧ fit last ∧ fit last' := by
  fun_induction ChainReader.fill reader wanted signals generalizing signals' with
  | case1 reader wanted signals idle =>
    rw [fill_eq reader wanted signals', if_pos idle]
    exact ⟨_, _, _, _, _, rfl, rfl, regular, fits, fits'⟩
  | case2 reader wanted signals idle left piece more failure after last filled =>
    rename_i ih
    obtain ⟨_, _, _, _, last', same, same', onward, still, still'⟩ := ih regular fits fits'
    rw [filled] at same
    cases same
    rw [fill_eq reader wanted signals', if_neg idle, if_pos left]
    dsimp only
    rw [same']
    exact ⟨_, _, _, _, _, rfl, rfl, onward, still, still'⟩
  | case3 reader wanted signals idle left walk last step
  | case4 reader wanted signals idle left error walk last step =>
    obtain ⟨last', same, onward, still, still'⟩ :=
      ChainWalk.advance_of_uniform uniform regular fits fits' step
    rw [fill_eq reader wanted signals', if_neg idle, if_neg left, same]
    exact ⟨_, _, _, _, _, rfl, rfl, onward, still, still'⟩
  | case5 reader wanted signals idle left sector walk last step ih =>
    obtain ⟨last', same, onward, still, still'⟩ :=
      ChainWalk.advance_of_uniform uniform regular fits fits' step
    rw [fill_eq reader wanted signals', if_neg idle, if_neg left, same]
    exact ih onward still still'

theorem read_of_uniform (uniform : Signals.Uniform fit flag) {reader : ChainReader}
    (regular : reader.walk.source.Regular) (wanted : Nat) (fits : fit signals)
    (fits' : fit signals') :
    ∃ result after last last', reader.read wanted signals = (result, after, last) ∧
      reader.read wanted signals' = (result, after, last') ∧
      after.walk.source.Regular ∧ fit last ∧ fit last' := by
  obtain ⟨bytes, failure, after, last, last', same, same', onward, still, still'⟩ :=
    fill_of_uniform uniform regular wanted fits fits'
  unfold read
  cases reader.pending with
  | some error => exact ⟨_, _, _, _, rfl, rfl, regular, fits, fits'⟩
  | none =>
    dsimp only
    rw [same, same']
    rcases failure with _ | error
    · exact ⟨_, _, _, _, rfl, rfl, onward, still, still'⟩
    · cases bytes with
      | nil => exact ⟨_, _, _, _, rfl, rfl, onward, still, still'⟩
      | cons byte bytes => exact ⟨_, _, _, _, rfl, rfl, onward, still, still'⟩

end ChainReader
end RetroMedia.Disk
