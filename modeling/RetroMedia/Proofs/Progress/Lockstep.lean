import RetroMedia.Error

/-! Runs that are compared. Two programs go in lockstep if they come to the same from any two states
that are related, and leave related states behind. Whatever the relation leaves open has then no
influence on what they come to. -/
namespace RetroMedia

variable {σ α β : Type} {related : σ → σ → Prop}

/-- The same value or the same failure, in states that are related. -/
def SameOutcome (related : σ → σ → Prop) :
    EStateM.Result MediaError σ α → EStateM.Result MediaError σ α → Prop
  | .ok value after, .ok value' after' => value = value' ∧ related after after'
  | .error error after, .error error' after' => error = error' ∧ related after after'
  | _, _ => False

/-- Both come to the same wherever they begin in related states. -/
def Lockstep (related : σ → σ → Prop) (first second : EStateM MediaError σ α) : Prop :=
  ∀ state state', related state state' → SameOutcome related (first state) (second state')

theorem run_get (next : σ → EStateM MediaError σ α) (state : σ) :
    (get >>= next) state = next state state := rfl

theorem run_of_ok {first : EStateM MediaError σ α} {state after : σ} {value : α}
    (step : first state = .ok value after) (next : α → EStateM MediaError σ β) :
    (first >>= next) state = next value after := by
  change EStateM.bind first next state = _
  rw [EStateM.bind, step]

/-- A program that succeeds succeeded step by step. -/
theorem ok_of_run_bind {first : EStateM MediaError σ α} {next : α → EStateM MediaError σ β}
    {state after : σ} {result : β} (run : (first >>= next) state = .ok result after) :
    ∃ value between, first state = .ok value between ∧ next value between = .ok result after := by
  change EStateM.bind first next state = _ at run
  unfold EStateM.bind at run
  cases step : first state with
  | ok value between =>
    rw [step] at run
    exact ⟨value, between, rfl, run⟩
  | error error between =>
    rw [step] at run
    cases run

theorem lockstep_pure (value : α) :
    Lockstep related (pure value : EStateM MediaError σ α) (pure value) := by
  intro state state' here
  exact ⟨rfl, here⟩

theorem lockstep_throw (error : MediaError) :
    Lockstep related (throw error : EStateM MediaError σ α) (throw error) := by
  intro state state' here
  exact ⟨rfl, here⟩

theorem Lockstep.bind {first second : EStateM MediaError σ α}
    {next next' : α → EStateM MediaError σ β} (together : Lockstep related first second)
    (rest : ∀ value, Lockstep related (next value) (next' value)) :
    Lockstep related (first >>= next) (second >>= next') := by
  intro state state' here
  have early := together state state' here
  change SameOutcome related (EStateM.bind first next state) (EStateM.bind second next' state')
  unfold EStateM.bind
  match step : first state, step' : second state' with
  | .ok value after, .ok value' after' =>
    rw [step, step'] at early
    obtain ⟨rfl, onward⟩ := early
    exact rest value after after' onward
  | .error error after, .error error' after' =>
    rw [step, step'] at early
    exact early
  | .ok value after, .error error' after' | .error error after, .ok value' after' =>
    rw [step, step'] at early
    cases early

theorem Lockstep.map {first second : EStateM MediaError σ α}
    (together : Lockstep related first second) (change : α → β) :
    Lockstep related (first >>= fun value => pure (change value))
      (second >>= fun value => pure (change value)) := by
  apply together.bind
  intro value
  exact lockstep_pure (change value)

/-- A program may look at its state. -/
theorem lockstep_get {next next' : σ → EStateM MediaError σ β}
    (rest : ∀ state state', related state state' → Lockstep related (next state) (next' state')) :
    Lockstep related (get >>= next) (get >>= next') := by
  intro state state' here
  exact rest state state' here state state' here

/-- A program may change its state in a way that keeps related states related. -/
theorem lockstep_modify {change change' : σ → σ}
    (kept : ∀ state state', related state state' → related (change state) (change' state')) :
    Lockstep related (modify change : EStateM MediaError σ Unit) (modify change') := by
  intro state state' here
  exact ⟨rfl, kept state state' here⟩

end RetroMedia
