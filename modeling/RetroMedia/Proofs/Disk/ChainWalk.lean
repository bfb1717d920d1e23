import RetroMedia.Proofs.Disk.Sources

/-! Walks along the same chain. Two walks over honest sources that yield the same sectors go the
same way, except that the flag may end one of them early. What a walk comes to without a flag is
therefore a matter of its chain alone. -/
namespace RetroMedia.Disk.ChainWalk

/-- What a visit comes to where nothing interrupts it. The count of the source is left as it is. -/
def settled (walk : ChainWalk) (location : Location) : Except MediaError ChainSector × ChainWalk :=
  let counted := { walk with steps := walk.steps + 1 }
  if walk.limits.maxChainBlocks < walk.steps + 1 then (.error .chainTooLong, counted)
  else if location ∈ walk.visited then (.error .chainLoop, counted)
  else
    let entered := { counted with visited := walk.visited.insert location }
    match walk.source.lookup location with
    | .error error => (.error error, entered)
    | .ok block =>
      match ChainLink.ofBytes block.bytes with
      | .error error => (.error error, entered)
      | .ok (.next location') => (.ok ⟨block.bytes, location⟩, { entered with next := some location' })
      | .ok (.tail used) => (.ok ⟨block.bytes.take used, location⟩, entered)

/-- A visit comes to what is settled without a flag, or a reading of the flag ends it. -/
theorem visit_cases (walk : ChainWalk) (honest : walk.source.Honest) (location : Location)
    (signals : Signals) :
    ∃ result after signals', walk.visit location signals = (result, after, signals') ∧
      signals.Follows signals' ∧
      ((¬ signals.Interrupted signals' ∧ result = (walk.settled location).1 ∧
          ∃ scanned, after = { (walk.settled location).2 with scanned }) ∨
        (signals.Interrupted signals' ∧ result = .error .cancelled)) := by
  unfold visit settled
  rcases Progress.tick_cases (walk.counter signals) with
    ⟨finished, step⟩ | ⟨within, middle, follows, ⟨stopped, step⟩ | ⟨clear, step⟩⟩
  · have long : walk.limits.maxChainBlocks < walk.steps + 1 := of_decide_eq_true finished
    rw [step, if_pos long]
    exact ⟨_, _, _, rfl, .refl _, .inl ⟨Signals.not_interrupted_self _, rfl, _, rfl⟩⟩
  · rw [step]
    exact ⟨_, _, _, rfl, follows, .inr ⟨stopped, rfl⟩⟩
  · have short : ¬ walk.limits.maxChainBlocks < walk.steps + 1 := of_decide_eq_false within
    rw [step, if_neg short]
    dsimp only
    by_cases loop : location ∈ walk.visited
    · rw [if_pos loop, if_pos loop]
      exact ⟨_, _, _, rfl, follows, .inl ⟨clear, rfl, _, rfl⟩⟩
    · rw [if_neg loop, if_neg loop]
      let entered : ChainWalk :=
        { walk with steps := walk.steps + 1, visited := walk.visited.insert location }
      have law := honest location (entered.scanCounter middle) rfl
      match read : walk.source location (entered.scanCounter middle) with
      | .error error scan =>
        rw [read] at law
        obtain ⟨_, on, ⟨quiet, found⟩ | ⟨stopped, same⟩⟩ := law
        · refine ⟨_, _, _, rfl, follows.trans on, .inl ⟨?_, ?_⟩⟩
          · exact Signals.not_interrupted_trans follows on clear quiet
          · rw [found]
            exact ⟨rfl, _, rfl⟩
        · exact ⟨_, _, _, rfl, follows.trans on,
            .inr ⟨(Signals.interrupted_iff follows on).2 (.inr stopped), by rw [same]⟩⟩
      | .ok block scan =>
        rw [read] at law
        obtain ⟨_, on, quiet, found⟩ := law
        have clear' : ¬ signals.Interrupted scan.signals :=
          Signals.not_interrupted_trans follows on clear quiet
        rw [found]
        dsimp only
        rcases ChainLink.ofBytes block.bytes with error | (count | location') <;>
          exact ⟨_, _, _, rfl, follows.trans on, .inl ⟨clear', rfl, _, rfl⟩⟩

/-- A visit that settles on a sector brings a walk nearer to its end. -/
theorem remaining_lt_of_settled {walk after : ChainWalk} {location : Location}
    {sector : ChainSector} (settles : walk.settled location = (.ok sector, after)) :
    after.remaining < walk.remaining := by
  unfold settled at settles
  dsimp only at settles
  split at settles
  · cases settles
  · rename_i short
    split at settles
    · cases settles
    · split at settles
      · cases settles
      · split at settles <;> cases settles <;> simp only [remaining] <;> omega

/-- The sectors that a walk comes to without a flag, and the failure that ends it. -/
def course (walk : ChainWalk) : List ChainSector × Option MediaError :=
  match walk.next with
  | none => ([], none)
  | some location =>
    match _settles : { walk with next := none }.settled location with
    | (.error error, _) => ([], some error)
    | (.ok sector, after) => (sector :: after.course.1, after.course.2)
termination_by walk.remaining
decreasing_by
  all_goals
    have nearer := remaining_lt_of_settled _settles
    exact nearer

/-- Walks at the same place of the same chain. The counts of their sources may differ. -/
structure Alike (first second : ChainWalk) : Prop where
  lookup : first.source.lookup = second.source.lookup
  limits : first.limits = second.limits
  next : first.next = second.next
  visited : first.visited = second.visited
  steps : first.steps = second.steps

/-- Walks that are alike settle on the same and stay alike. -/
theorem Alike.settled {first second : ChainWalk} (alike : first.Alike second)
    (location : Location) :
    (first.settled location).1 = (second.settled location).1 ∧
      (first.settled location).2.Alike (second.settled location).2 := by
  obtain ⟨lookup, limits, next, visited, steps⟩ := alike
  unfold ChainWalk.settled
  rw [lookup, limits, visited, steps]
  dsimp only
  split
  · exact ⟨rfl, lookup, rfl, next, rfl, rfl⟩
  · split
    · exact ⟨rfl, lookup, rfl, next, rfl, rfl⟩
    · split
      · exact ⟨rfl, lookup, rfl, next, rfl, rfl⟩
      · split
        · exact ⟨rfl, lookup, rfl, next, rfl, rfl⟩
        · exact ⟨rfl, lookup, rfl, rfl, rfl, rfl⟩
        · exact ⟨rfl, lookup, rfl, next, rfl, rfl⟩

theorem course_of_over {walk : ChainWalk} (finished : walk.next = none) :
    walk.course = ([], none) := by
  rw [course]
  split
  · rfl
  · rename_i here
    rw [finished] at here
    cases here

theorem course_of_error {walk after : ChainWalk} {location : Location} {error : MediaError}
    (here : walk.next = some location)
    (settles : { walk with next := none }.settled location = (.error error, after)) :
    walk.course = ([], some error) := by
  rw [course]
  split
  · rename_i finished
    rw [finished] at here
    cases here
  · rename_i there
    rw [here] at there
    cases there
    split <;> rename_i same <;> rw [settles] at same <;> cases same
    rfl

theorem course_of_ok {walk after : ChainWalk} {location : Location} {sector : ChainSector}
    (here : walk.next = some location)
    (settles : { walk with next := none }.settled location = (.ok sector, after)) :
    walk.course = (sector :: after.course.1, after.course.2) := by
  rw [course]
  split
  · rename_i finished
    rw [finished] at here
    cases here
  · rename_i there
    rw [here] at there
    cases there
    split <;> rename_i same <;> rw [settles] at same <;> cases same
    rfl

/-- The course of a walk is a matter of its chain alone. -/
theorem Alike.course {first second : ChainWalk} (alike : first.Alike second) :
    first.course = second.course := by
  have resting : { first with next := none }.Alike { second with next := none } :=
    ⟨alike.lookup, alike.limits, rfl, alike.visited, alike.steps⟩
  fun_induction ChainWalk.course first generalizing second with
  | case1 first finished => exact (course_of_over (alike.next ▸ finished)).symm
  | case2 first location here error after settles =>
    obtain ⟨result, _⟩ := resting.settled location
    rcases settles' : { second with next := none }.settled location with ⟨result', after'⟩
    rw [settles, settles'] at result
    cases result
    exact (course_of_error (alike.next ▸ here) settles').symm
  | case3 first location here sector after settles ih =>
    obtain ⟨result, onward⟩ := resting.settled location
    rcases settles' : { second with next := none }.settled location with ⟨result', after'⟩
    rw [settles, settles'] at result onward
    cases result
    have rest := ih onward ⟨onward.lookup, onward.limits, rfl, onward.visited, onward.steps⟩
    rw [course_of_ok (alike.next ▸ here) settles', rest]

theorem visit_source (walk : ChainWalk) (location : Location) (signals : Signals) :
    (walk.visit location signals).2.1.source = walk.source := by
  unfold visit
  split
  · rfl
  · dsimp only
    (repeat' split) <;> rfl

/-- What advancing a walk does: it takes the next part of its course, or a reading of the flag ends
it while there is more to come. -/
theorem advance_cases (walk : ChainWalk) (honest : walk.source.Honest) (signals : Signals) :
    ∃ result after signals', walk.advance signals = (result, after, signals') ∧
      signals.Follows signals' ∧ after.source = walk.source ∧
      ((signals.Interrupted signals' ∧ result = some (.error .cancelled) ∧
          walk.course ≠ ([], none)) ∨
        (¬ signals.Interrupted signals' ∧
          match result with
          | none => walk.course = ([], none) ∧ after = walk
          | some (.error error) => walk.course = ([], some error)
          | some (.ok sector) => walk.course = (sector :: after.course.1, after.course.2))) := by
  unfold advance
  split
  · rename_i finished
    exact ⟨_, _, _, rfl, .refl _, rfl,
      .inr ⟨Signals.not_interrupted_self _, course_of_over finished, rfl⟩⟩
  · rename_i location here
    obtain ⟨result, after, signals', step, follows, law⟩ :=
      visit_cases { walk with next := none } honest location signals
    rw [step]
    have source := visit_source { walk with next := none } location signals
    rw [step] at source
    refine ⟨_, _, _, rfl, follows, source, ?_⟩
    rcases settles : { walk with next := none }.settled location with ⟨result', after'⟩
    rw [settles] at law
    rcases law with ⟨clear, same, scanned, onward⟩ | ⟨stopped, same⟩
    · refine .inr ⟨clear, ?_⟩
      subst same
      subst onward
      cases result with
      | error error => exact course_of_error here settles
      | ok sector =>
        have alike : ({ after' with scanned } : ChainWalk).Alike after' := ⟨rfl, rfl, rfl, rfl, rfl⟩
        dsimp only
        rw [course_of_ok here settles, alike.course]
    · refine .inl ⟨stopped, by rw [same], ?_⟩
      cases result' with
      | error error => simp [course_of_error here settles]
      | ok sector => simp [course_of_ok here settles]

/-- Walks that are alike go the same way where nothing will be cancelled. -/
theorem Alike.advance {first second : ChainWalk} {signals signals' : Signals}
    (alike : first.Alike second) (honest : first.source.Honest) (honest' : second.source.Honest)
    (calm : signals.Calm) (calm' : signals'.Calm) :
    ∃ result after after' last last', first.advance signals = (result, after, last) ∧
      second.advance signals' = (result, after', last') ∧ last.Calm ∧ last'.Calm ∧
      after.Alike after' ∧ after.source.Honest ∧ after'.source.Honest := by
  unfold ChainWalk.advance
  cases next : first.next with
  | none =>
    rw [← alike.next, next]
    exact ⟨_, _, _, _, _, rfl, rfl, calm, calm', alike, honest, honest'⟩
  | some location =>
    rw [← alike.next, next]
    obtain ⟨result, after, last, step, follows, ⟨_, settles, scanned, onward⟩ | ⟨hit, _⟩⟩ :=
      visit_cases { first with next := none } honest location signals
    · obtain ⟨result', after', last', step', follows', ⟨_, settles', scanned', onward'⟩ | ⟨hit, _⟩⟩ :=
        visit_cases { second with next := none } honest' location signals'
      · have resting : { first with next := none }.Alike { second with next := none } :=
          ⟨alike.lookup, alike.limits, rfl, alike.visited, alike.steps⟩
        obtain ⟨same, still⟩ := resting.settled location
        have source := visit_source { first with next := none } location signals
        have source' := visit_source { second with next := none } location signals'
        rw [step] at source
        rw [step'] at source'
        dsimp only
        rw [step, step', settles, settles', same]
        refine ⟨_, _, _, _, _, rfl, rfl, calm.follows follows, calm'.follows follows', ?_,
          source ▸ honest, source' ▸ honest'⟩
        rw [onward, onward']
        exact ⟨still.lookup, still.limits, still.next, still.visited, still.steps⟩
      · exact absurd hit calm'.not_interrupted
    · exact absurd hit calm.not_interrupted

/-- The sectors of a walk are its course, or the part of it before the reading of the flag that ended
the walk. -/
theorem sectors_cases (walk : ChainWalk) (honest : walk.source.Honest) (signals : Signals) :
    ∃ found failure signals', walk.sectors signals = (found, failure, signals') ∧
      signals.Follows signals' ∧
      ((signals.Interrupted signals' ∧ failure = some .cancelled ∧
          ∃ lost, walk.course.1 = found ++ lost ∧ (lost ≠ [] ∨ walk.course.2 ≠ none)) ∨
        (¬ signals.Interrupted signals' ∧ walk.course = (found, failure))) := by
  fun_induction sectors walk signals with
  | case1 walk signals after signals' step =>
    obtain ⟨_, _, _, same, follows, _, ⟨_, stopped, _⟩ | ⟨clear, ends⟩⟩ :=
      walk.advance_cases honest signals
    · rw [step] at same
      cases same
      cases stopped
    · rw [step] at same
      cases same
      exact ⟨_, _, _, rfl, follows, .inr ⟨clear, ends.1⟩⟩
  | case2 walk signals error after signals' step =>
    obtain ⟨_, _, _, same, follows, _, ⟨hit, stopped, more⟩ | ⟨clear, ends⟩⟩ :=
      walk.advance_cases honest signals
    · rw [step] at same
      cases same
      cases stopped
      refine ⟨_, _, _, rfl, follows, .inl ⟨hit, rfl, walk.course.1, rfl, ?_⟩⟩
      exact Classical.not_and_iff_not_or_not.1 fun both => more (Prod.ext both.1 both.2)
    · rw [step] at same
      cases same
      exact ⟨_, _, _, rfl, follows, .inr ⟨clear, ends⟩⟩
  | case3 walk signals sector after signals' step more failure last rest ih =>
    obtain ⟨_, _, _, same, follows, source, ⟨_, stopped, _⟩ | ⟨clear, onward⟩⟩ :=
      walk.advance_cases honest signals
    · rw [step] at same
      cases same
      cases stopped
    · rw [step] at same
      cases same
      obtain ⟨_, _, _, same, on, law⟩ := ih (source ▸ honest)
      rw [rest] at same
      cases same
      refine ⟨_, _, _, rfl, follows.trans on, ?_⟩
      rw [Signals.interrupted_iff follows on, onward]
      rcases law with ⟨hit, stopped, lost, split, left⟩ | ⟨quiet, whole⟩
      · exact .inl ⟨.inr hit, stopped, lost, by rw [split]; rfl, left⟩
      · exact .inr ⟨not_or.2 ⟨clear, quiet⟩, by rw [whole]⟩

/-- Under calm signals a walk takes its whole course. -/
theorem sectors_of_calm {walk : ChainWalk} {signals : Signals} (honest : walk.source.Honest)
    (calm : signals.Calm) :
    ∃ signals', walk.sectors signals = (walk.course.1, walk.course.2, signals') ∧
      signals'.Calm := by
  obtain ⟨found, failure, signals', step, follows, ⟨hit, _⟩ | ⟨_, whole⟩⟩ :=
    walk.sectors_cases honest signals
  · exact absurd hit calm.not_interrupted
  · exact ⟨signals', by rw [step, whole], calm.follows follows⟩

/-- Under calm signals a whole walk comes to its course. -/
theorem whole_of_calm {walk : ChainWalk} {signals : Signals} (honest : walk.source.Honest)
    (calm : signals.Calm) :
    ∃ signals', signals'.Calm ∧ walk.whole signals = (match walk.course with
      | (sectors, none) => .ok sectors
      | (_, some error) => .error error, signals') := by
  obtain ⟨signals', step, still⟩ := sectors_of_calm honest calm
  refine ⟨signals', still, ?_⟩
  rw [whole, step]
  rcases walk.course with ⟨sectors, _ | error⟩ <;> rfl

theorem course_of_whole {walk : ChainWalk} {chain : List ChainSector}
    (honest : walk.source.Honest) (whole : (walk.whole .quiet).1 = .ok chain) :
    walk.course = (chain, none) := by
  obtain ⟨signals', _, same⟩ := whole_of_calm honest Signals.calm_quiet
  rw [same] at whole
  rcases course : walk.course with ⟨sectors, _ | error⟩
  · rw [course] at whole
    cases whole
    rfl
  · rw [course] at whole
    cases whole

end RetroMedia.Disk.ChainWalk
