import RetroMedia.Proofs.Progress.Interruption

/-! What traversals yield. A rule for each way of building a traversal says what holds of its value,
given what holds of the counters that it begins with and that all its steps keep. -/
namespace RetroMedia

/-- Counters under the given limits, with signals that are `fit`. -/
def Progress.Under (limits : Limits) (fit : Signals → Prop) (progress : Progress) : Prop :=
  progress.limits = limits ∧ fit progress.signals

namespace Walk

variable {α β : Type} {kept : Progress → Prop}

theorem run_map (change : α → β) (walk : Walk α) (progress : Progress) :
    (change <$> walk) progress = match walk progress with
      | .ok value after => .ok (change value) after
      | .error error after => .error error after := by
  change EStateM.map change walk progress = _
  unfold EStateM.map
  cases walk progress <;> rfl

/-- From counters of which `kept` holds, the traversal only comes to such counters, and `post` holds
of what it yields. -/
def Yields (kept : Progress → Prop) (walk : Walk α) (post : α → Prop) : Prop :=
  ∀ progress, kept progress → match walk progress with
    | .ok value after => kept after ∧ post value
    | .error _ after => kept after

theorem yields_pure {post : α → Prop} {value : α} (holds : post value) :
    Yields kept (pure value) post := by
  intro progress here
  exact ⟨here, holds⟩

theorem yields_throw {post : α → Prop} (error : MediaError) :
    Yields kept (throw error : Walk α) post := by
  intro progress here
  exact here

theorem Yields.mono {walk : Walk α} {early late : α → Prop} (yields : Yields kept walk early)
    (weaker : ∀ value, early value → late value) : Yields kept walk late := by
  intro progress here
  have law := yields progress here
  match step : walk progress with
  | .ok value after =>
    rw [step] at law
    exact ⟨law.1, weaker value law.2⟩
  | .error error after =>
    rw [step] at law
    exact law

theorem Yields.bind {walk : Walk α} {next : α → Walk β} {early : α → Prop} {late : β → Prop}
    (first : Yields kept walk early) (rest : ∀ value, early value → Yields kept (next value) late) :
    Yields kept (walk >>= next) late := by
  intro progress here
  have law := first progress here
  change match EStateM.bind walk next progress with
    | .ok value after => kept after ∧ late value
    | .error _ after => kept after
  unfold EStateM.bind
  match step : walk progress with
  | .ok value after =>
    rw [step] at law
    exact rest value law.2 after law.1
  | .error error after =>
    rw [step] at law
    exact law

/-- A traversal that satisfies `post` for every counter as it is found. -/
theorem yields_get {next : Progress → Walk α} {post : α → Prop}
    (rest : ∀ progress, kept progress → Yields kept (next progress) post) :
    Yields kept (get >>= next) post := by
  intro progress here
  exact rest progress here progress here

/-- To count a step keeps what is known of a counter. -/
def Steady (kept : Progress → Prop) : Prop := Yields kept Progress.tick fun _ => True

theorem steady_under {fit : Signals → Prop} (lasting : Signals.Lasting fit) (limits : Limits) :
    Steady (Progress.Under limits fit) := by
  rintro progress ⟨same, here⟩
  rcases progress.tick_cases with ⟨_, step⟩ | ⟨_, signals, follows, ⟨_, step⟩ | ⟨_, step⟩⟩
  · rw [step]
    exact ⟨same, here⟩
  · rw [step]
    exact ⟨same, lasting _ _ follows here⟩
  · rw [step]
    exact ⟨⟨same, lasting _ _ follows here⟩, trivial⟩

/-- Where one entry after another is listed, what holds of each holds of all. -/
theorem yields_cons {first : α} {more : Walk (List α)} {post : α → Prop} (holds : post first)
    (rest : Yields kept more fun found => ∀ value ∈ found, post value) :
    Yields kept (more >>= fun found => pure (first :: found))
      fun found => ∀ value ∈ found, post value := by
  apply rest.bind
  intro found others
  apply yields_pure
  intro value member
  rcases List.mem_cons.1 member with rfl | later
  · exact holds
  · exact others value later

theorem yields_nil {post : α → Prop} :
    Yields kept (pure []) fun found => ∀ value ∈ found, post value := by
  apply yields_pure
  intro value never
  cases never

end Walk
end RetroMedia
