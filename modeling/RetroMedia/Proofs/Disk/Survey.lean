import RetroMedia.Proofs.Disk.Parallel
import RetroMedia.Proofs.Progress.Yield

/-! Surveys. To list a disk is to walk along the chain of each of its files. A survey lists a disk and
tells besides what each of these walks came to. -/
namespace RetroMedia.Disk.Volume

/-- The entry of a directory slot, and what the walk along its chain came to. -/
def surveySlot (volume : Volume) (index : Nat) (slot : Bytes) :
    Walk (Entry × Except MediaError Nat) := do
  let progress ← get
  let (walked, _) := chainSize volume.source (Location.ofBytes (slot.drop 0x03)) progress.limits
    progress.signals
  let entry ← volume.readSlot index slot
  return (entry, walked)

def surveySlots (volume : Volume) : Nat → List Bytes → Walk (List (Entry × Except MediaError Nat))
  | _, [] => return []
  | index, slot :: rest =>
    if isFreeSlot slot then volume.surveySlots index rest
    else do
      Progress.tick
      let found ← volume.surveySlot index slot
      let more ← volume.surveySlots (index + 1) rest
      return found :: more

def surveySectors (volume : Volume) (walk : ChainWalk) (index : Nat) :
    Walk (List (Entry × Except MediaError Nat)) :=
  fun progress =>
    match _step : walk.advance progress.signals with
    | (none, _, signals) => .ok [] { progress with signals }
    | (some (.error error), _, signals) => .error error { progress with signals }
    | (some (.ok sector), after, signals) =>
      (do
        let here ← volume.surveySlots index (sector.data.records slotSize)
        let more ← volume.surveySectors after (index + here.length)
        return here ++ more : Walk (List (Entry × Except MediaError Nat))) { progress with signals }
termination_by walk.remaining
decreasing_by exact ChainWalk.remaining_lt_of_advance _step

/-- The directory, in order, and what came of the walk along each chain. -/
def survey (volume : Volume) : Walk (List (Entry × Except MediaError Nat)) := fun progress =>
  let walk := ChainWalk.start volume.source volume.firstDirectory progress.limits
  volume.surveySectors walk 1 progress

theorem map_surveySlot (volume : Volume) (index : Nat) (slot : Bytes) :
    Prod.fst <$> volume.surveySlot index slot = volume.readSlot index slot := rfl

theorem map_surveySlots (volume : Volume) (index : Nat) (slots : List Bytes) :
    List.map Prod.fst <$> volume.surveySlots index slots = volume.listSlots index slots := by
  induction slots generalizing index with
  | nil => rfl
  | cons slot rest ih =>
    unfold surveySlots listSlots
    split
    · exact ih index
    · simp only [map_bind, map_pure, List.map_cons, ← map_surveySlot, ← ih, bind_map_left]

theorem surveySectors_eq (volume : Volume) (walk : ChainWalk) (index : Nat) (progress : Progress) :
    volume.surveySectors walk index progress = match walk.advance progress.signals with
      | (none, _, signals) => .ok [] { progress with signals }
      | (some (.error error), _, signals) => .error error { progress with signals }
      | (some (.ok sector), after, signals) =>
        (do
          let here ← volume.surveySlots index (sector.data.records slotSize)
          let more ← volume.surveySectors after (index + here.length)
          return here ++ more : Walk (List (Entry × Except MediaError Nat)))
            { progress with signals } := by
  rw [surveySectors]
  split <;> rename_i step <;> rw [step]

theorem map_surveySectors (volume : Volume) (walk : ChainWalk) (index : Nat) :
    List.map Prod.fst <$> volume.surveySectors walk index = volume.listSectors walk index := by
  induction left : walk.remaining using Nat.strongRecOn generalizing walk index with
  | ind left ih =>
    funext progress
    rw [listSectors_eq, Walk.run_map, surveySectors_eq]
    match step : walk.advance progress.signals with
    | (none, after, signals) => rfl
    | (some (.error error), after, signals) => rfl
    | (some (.ok sector), after, signals) =>
      have nearer := ChainWalk.remaining_lt_of_advance step
      have rest (index : Nat) := ih after.remaining (left ▸ nearer) after index rfl
      have round : List.map Prod.fst <$> (do
          let here ← volume.surveySlots index (sector.data.records slotSize)
          let more ← volume.surveySectors after (index + here.length)
          return here ++ more : Walk (List (Entry × Except MediaError Nat)))
        = (do
          let here ← volume.listSlots index (sector.data.records slotSize)
          let more ← volume.listSectors after (index + here.length)
          return here ++ more : Walk (List Entry)) := by
        simp only [map_bind, map_pure, List.map_append, ← map_surveySlots, ← rest, bind_map_left,
          List.length_map]
      have here := congrFun round { progress with signals }
      rw [Walk.run_map] at here
      exact here

/-- The directory is the survey without what became of the walks. -/
theorem map_survey (volume : Volume) :
    List.map Prod.fst <$> volume.survey = volume.entries := by
  funext progress
  rw [entries, ← map_surveySectors]
  rfl

/-- A walk along a whole chain is cancelled by a reading of the flag, or it comes to what the course of the
chain says. -/
theorem chainSize_outcome {source : SectorSource} (honest : source.Honest) (start : Location)
    (limits : Limits) (signals : Signals) :
    ∃ walked after, chainSize source start limits signals = (walked, after) ∧ signals.Follows after ∧
      ((signals.Interrupted after ∧ walked = .error .cancelled) ∨
        (¬ signals.Interrupted after ∧
          walked = courseSize (ChainWalk.start source start limits))) := by
  obtain ⟨found, failure, after, step, follows, ⟨stopped, rfl, _⟩ | ⟨clear, whole⟩⟩ :=
    (ChainWalk.start source start limits).sectors_cases honest signals
  · refine ⟨.error .cancelled, after, ?_, follows, .inl ⟨stopped, rfl⟩⟩
    rw [chainSize, ChainWalk.whole, step]
    rfl
  · refine ⟨courseSize (ChainWalk.start source start limits), after, ?_, follows, .inr ⟨clear, rfl⟩⟩
    rw [chainSize, ChainWalk.whole, step, courseSize, whole]
    cases failure <;> rfl

/-- A walk along a whole chain, under whatever flag, takes the course of the chain. -/
theorem chainSize_cases {source : SectorSource} (honest : source.Honest) (start : Location)
    (limits : Limits) (signals : Signals) :
    signals.Follows (chainSize source start limits signals).2 ∧
      ∀ size, (chainSize source start limits signals).1 = .ok size →
        courseSize (ChainWalk.start source start limits) = .ok size := by
  obtain ⟨walked, after, found, follows, ⟨_, rfl⟩ | ⟨_, rfl⟩⟩ :=
    chainSize_outcome honest start limits signals
  · rw [found]
    refine ⟨follows, ?_⟩
    intro size never
    cases never
  · rw [found]
    exact ⟨follows, fun _ same => same⟩

/-- What a survey says of an entry: what came of the walk along its chain, and its length, if the
walk came to an end. -/
def Surveyed (volume : Volume) (limits : Limits) (fit : Signals → Prop)
    (found : Entry × Except MediaError Nat) : Prop :=
  found.1.incomplete = false ∧ ∃ location signals, found.1.location = some location ∧ fit signals ∧
    found.2 = (chainSize volume.source location limits signals).1 ∧
      ∀ size, found.2 = .ok size → found.1.size = size

variable {volume : Volume} {limits : Limits} {fit : Signals → Prop}

theorem yields_surveySlot (honest : volume.source.Honest) (lasting : Signals.Lasting fit)
    (index : Nat) (slot : Bytes) :
    Walk.Yields (Progress.Under limits fit) (volume.surveySlot index slot)
      (volume.Surveyed limits fit) := by
  rintro progress ⟨rfl, here⟩
  let start := Location.ofBytes (slot.drop 0x03)
  have follows := (chainSize_cases honest start progress.limits progress.signals).1
  refine ⟨⟨rfl, lasting _ _ follows here⟩, rfl, start, progress.signals, rfl, here, rfl, ?_⟩
  intro size (walked : (chainSize volume.source start progress.limits progress.signals).1 = .ok size)
  dsimp only [chainSize, ChainWalk.whole] at walked ⊢
  rw [walked]

/-- Where something holds of the entry of each slot, it holds of all that is listed. -/
theorem yields_surveySlots {holds : Entry × Except MediaError Nat → Prop}
    (lasting : Signals.Lasting fit)
    (each : ∀ index slot, Walk.Yields (Progress.Under limits fit) (volume.surveySlot index slot) holds)
    (index : Nat) (slots : List Bytes) :
    Walk.Yields (Progress.Under limits fit) (volume.surveySlots index slots)
      fun surveyed => ∀ found ∈ surveyed, holds found := by
  induction slots generalizing index with
  | nil => exact Walk.yields_nil
  | cons slot rest ih =>
    unfold surveySlots
    split
    · exact ih index
    · apply (Walk.steady_under lasting limits).bind
      intro _ _
      apply (each index slot).bind
      intro found here
      exact Walk.yields_cons here (ih (index + 1))

theorem yields_surveySectors {holds : Entry × Except MediaError Nat → Prop}
    (lasting : Signals.Lasting fit)
    (each : ∀ index slot, Walk.Yields (Progress.Under limits fit) (volume.surveySlot index slot) holds)
    {walk : ChainWalk} (honest : walk.source.Honest) (index : Nat) :
    Walk.Yields (Progress.Under limits fit) (volume.surveySectors walk index)
      fun surveyed => ∀ found ∈ surveyed, holds found := by
  induction left : walk.remaining using Nat.strongRecOn generalizing walk index with
  | ind left ih =>
    rintro progress ⟨same, here⟩
    obtain ⟨result, after, signals, step, follows, source, _⟩ :=
      walk.advance_cases honest progress.signals
    have still := lasting _ _ follows here
    rw [surveySectors_eq, step]
    rcases result with _ | error | sector
    · exact ⟨⟨same, still⟩, fun _ never => by cases never⟩
    · exact ⟨same, still⟩
    · have nearer := ChainWalk.remaining_lt_of_advance step
      refine ((yields_surveySlots lasting each index _).bind ?_) _ ⟨same, still⟩
      intro here listed
      apply (ih _ (left ▸ nearer) (source ▸ honest) _ rfl).bind
      intro more later
      apply Walk.yields_pure
      intro found member
      rcases List.mem_append.1 member with early | late
      · exact listed found early
      · exact later found late

/-- What holds of the entry of each slot, whatever the slot, holds of all that a survey lists. -/
theorem yields_survey_of {holds : Entry × Except MediaError Nat → Prop}
    (honest : volume.source.Honest) (lasting : Signals.Lasting fit)
    (each : ∀ index slot, Walk.Yields (Progress.Under limits fit) (volume.surveySlot index slot) holds) :
    Walk.Yields (Progress.Under limits fit) volume.survey
      fun surveyed => ∀ found ∈ surveyed, holds found := by
  intro progress here
  exact yields_surveySectors lasting each honest 1 progress here

theorem yields_survey (honest : volume.source.Honest) (lasting : Signals.Lasting fit) :
    Walk.Yields (Progress.Under limits fit) volume.survey
      fun surveyed => ∀ found ∈ surveyed, volume.Surveyed limits fit found :=
  yields_survey_of honest lasting (yields_surveySlot honest lasting)

end RetroMedia.Disk.Volume
