import RetroMedia.Progress

/-! Traversals under a cancellation flag. What decides is whether a reading of the flag between two
states of the signals found it set. A traversal that heeds the flag then ends as cancelled, and
otherwise gives what it gives where there is no flag at all. -/
namespace RetroMedia

namespace Signals

/-- The same flag, with no reading of it taken back. -/
structure Follows (before after : Signals) : Prop where
  flag : after.cancel = before.cancel
  polls : before.polls ≤ after.polls

/-- A reading between the two states found the flag set. -/
def Interrupted (before after : Signals) : Prop :=
  ∃ flag poll, before.cancel = some flag ∧ before.polls ≤ poll ∧ poll < after.polls ∧
    flag poll = true

/-- No reading from now on will find the flag set. -/
def Calm (signals : Signals) : Prop :=
  ∀ flag, signals.cancel = some flag → ∀ poll, signals.polls ≤ poll → flag poll = false

variable {first second third : Signals}

theorem Follows.refl (signals : Signals) : signals.Follows signals := ⟨rfl, Nat.le_refl _⟩

theorem Follows.trans (early : first.Follows second) (late : second.Follows third) :
    first.Follows third := by
  exact ⟨late.flag.trans early.flag, Nat.le_trans early.polls late.polls⟩

theorem not_interrupted_self (signals : Signals) : ¬ signals.Interrupted signals := by
  rintro ⟨flag, poll, _, early, late, _⟩
  omega

theorem or_interrupted_self {disturbed : Prop} (signals : Signals) :
    disturbed ↔ disturbed ∨ signals.Interrupted signals := by
  constructor
  · intro stopped
    exact .inl stopped
  · intro either
    exact either.resolve_right signals.not_interrupted_self

/-- A reading lies in the first part of a span or in the second. -/
theorem interrupted_iff (early : first.Follows second) (late : second.Follows third) :
    first.Interrupted third ↔ first.Interrupted second ∨ second.Interrupted third := by
  constructor
  · rintro ⟨flag, poll, same, low, high, set⟩
    by_cases before : poll < second.polls
    · exact .inl ⟨flag, poll, same, low, before, set⟩
    · exact .inr ⟨flag, poll, early.flag.trans same, by omega, high, set⟩
  · have := early.polls
    have := late.polls
    rintro (⟨flag, poll, same, low, high, set⟩ | ⟨flag, poll, same, low, high, set⟩)
    · exact ⟨flag, poll, same, low, by omega, set⟩
    · exact ⟨flag, poll, early.flag ▸ same, by omega, high, set⟩

theorem not_interrupted_trans (early : first.Follows second) (late : second.Follows third)
    (clear : ¬ first.Interrupted second) (clear' : ¬ second.Interrupted third) :
    ¬ first.Interrupted third := by
  rw [interrupted_iff early late]
  exact not_or.2 ⟨clear, clear'⟩

theorem calm_quiet : quiet.Calm := by
  intro flag same
  cases same

theorem Calm.follows (calm : first.Calm) (after : first.Follows second) : second.Calm := by
  intro flag same poll late
  exact calm flag (after.flag ▸ same) poll (Nat.le_trans after.polls late)

/-- A condition on signals that outlasts every reading of the flag. -/
def Lasting (fit : Signals → Prop) : Prop :=
  ∀ signals signals', signals.Follows signals' → fit signals → fit signals'

theorem lasting_calm : Lasting Calm := fun _ _ follows calm => calm.follows follows

theorem Calm.not_interrupted (calm : first.Calm) : ¬ first.Interrupted second := by
  rintro ⟨flag, poll, same, low, _, set⟩
  have clear := calm flag same poll low
  rw [set] at clear
  cases clear

theorem follows_poll (signals : Signals) : signals.Follows signals.poll := by
  unfold poll
  split
  · exact ⟨rfl, Nat.le_succ _⟩
  · exact .refl _

theorem follows_refresh (signals : Signals) : signals.Follows signals.refresh := by
  unfold refresh
  split
  · exact ⟨rfl, Nat.le_refl _⟩
  · exact .refl _

/-- A poll makes one reading, that of the next value. -/
theorem interrupted_poll_iff (signals : Signals) :
    signals.Interrupted signals.poll ↔ signals.raised = true := by
  unfold poll raised
  split
  · rename_i flag same
    constructor
    · rintro ⟨other, poll, found, low, high, set⟩
      rw [same] at found
      cases found
      have here : poll = signals.polls := by simp only at high; omega
      exact here ▸ set
    · intro set
      exact ⟨flag, signals.polls, same, Nat.le_refl _, Nat.lt_succ_self _, set⟩
  · constructor
    · intro never
      exact absurd never signals.not_interrupted_self
    · intro never
      cases never

theorem not_interrupted_refresh (signals : Signals) : ¬ signals.Interrupted signals.refresh := by
  rintro ⟨flag, poll, _, low, high, _⟩
  unfold refresh at high
  split at high
  · simp only at high
    omega
  · omega

end Signals

namespace Walk

variable {α β : Type}

/-- What a traversal may come to, where `plain` is what it comes to without a flag. -/
def Outcome (plain : Except MediaError α) (before : Signals) :
    EStateM.Result MediaError Progress α → Prop
  | .ok value after =>
    after.bound = none ∧ before.Follows after.signals ∧ ¬ before.Interrupted after.signals ∧
      plain = .ok value
  | .error error after =>
    after.bound = none ∧ before.Follows after.signals ∧
      ((¬ before.Interrupted after.signals ∧ plain = .error error) ∨
        (before.Interrupted after.signals ∧ error = .cancelled))

/-- A traversal that no bound ends is decided by the flag alone. -/
def Heeds (walk : Walk α) (plain : Except MediaError α) : Prop :=
  ∀ progress, progress.bound = none → Outcome plain progress.signals (walk progress)

theorem heeds_pure (value : α) : Heeds (pure value) (.ok value) := by
  intro progress free
  exact ⟨free, .refl _, Signals.not_interrupted_self _, rfl⟩

theorem heeds_throw (error : MediaError) : Heeds (throw error : Walk α) (.error error) := by
  intro progress free
  exact ⟨free, .refl _, .inl ⟨Signals.not_interrupted_self _, rfl⟩⟩

/-- One step after another: an interruption of the first ends both. -/
theorem Heeds.bind {walk : Walk α} {next : α → Walk β} {plain : Except MediaError α}
    {later : α → Except MediaError β} (heeds : walk.Heeds plain)
    (rest : ∀ value, plain = .ok value → (next value).Heeds (later value)) :
    (walk >>= next).Heeds (plain >>= later) := by
  intro progress free
  have early := heeds progress free
  change Outcome _ _ (EStateM.bind walk next progress)
  unfold EStateM.bind
  match step : walk progress with
  | .error error after =>
    rw [step] at early
    obtain ⟨open', follows, clear | stopped⟩ := early
    · exact ⟨open', follows, .inl ⟨clear.1, by rw [clear.2]; rfl⟩⟩
    · exact ⟨open', follows, .inr stopped⟩
  | .ok value middle =>
    rw [step] at early
    obtain ⟨open', follows, clear, same⟩ := early
    have late := rest value same middle open'
    have whole : (plain >>= later) = later value := by rw [same]; rfl
    rw [whole]
    match finish : next value middle with
    | .ok result after =>
      simp only [finish] at late ⊢
      obtain ⟨open', on, quiet, found⟩ := late
      exact ⟨open', follows.trans on, Signals.not_interrupted_trans follows on clear quiet, found⟩
    | .error error after =>
      simp only [finish] at late ⊢
      obtain ⟨open', on, quiet | stopped⟩ := late
      · exact ⟨open', follows.trans on,
          .inl ⟨Signals.not_interrupted_trans follows on clear quiet.1, quiet.2⟩⟩
      · exact ⟨open', follows.trans on,
          .inr ⟨(Signals.interrupted_iff follows on).2 (.inr stopped.1), stopped.2⟩⟩

end Walk

namespace Progress

/-- Everything that a step can do: its bound ends it before the flag is read, or the reading does, or
it succeeds. -/
theorem tick_cases (progress : Progress) :
    ({ progress with count := progress.count + 1 }.exceeded = true ∧
        tick progress = .error .chainTooLong { progress with count := progress.count + 1 }) ∨
      ({ progress with count := progress.count + 1 }.exceeded = false ∧
        ∃ signals, progress.signals.Follows signals ∧
          ((progress.signals.Interrupted signals ∧
              tick progress
                = .error .cancelled { progress with count := progress.count + 1, signals }) ∨
            (¬ progress.signals.Interrupted signals ∧
              tick progress = .ok () { progress with count := progress.count + 1, signals }))) := by
  have polled := progress.signals.follows_poll
  unfold tick
  dsimp only
  by_cases finished : { progress with count := progress.count + 1 }.exceeded = true
  · rw [if_pos finished]
    exact .inl ⟨finished, rfl⟩
  · rw [if_neg finished]
    refine .inr ⟨by simpa using finished, ?_⟩
    by_cases set : progress.signals.raised = true
    · rw [if_pos set]
      exact ⟨_, polled, .inl ⟨(Signals.interrupted_poll_iff _).2 set, rfl⟩⟩
    · have clear : ¬ progress.signals.Interrupted progress.signals.poll :=
        fun stopped => set ((Signals.interrupted_poll_iff _).1 stopped)
      have fresh := progress.signals.poll.follows_refresh
      rw [if_neg set]
      split
      · exact ⟨_, polled.trans fresh, .inr ⟨Signals.not_interrupted_trans polled fresh clear
          (Signals.not_interrupted_refresh _), rfl⟩⟩
      · exact ⟨_, polled, .inr ⟨clear, rfl⟩⟩

theorem heeds_tick : Walk.Heeds tick (.ok ()) := by
  intro progress free
  rcases tick_cases progress with
    ⟨finished, _⟩ | ⟨_, signals, follows, ⟨stopped, step⟩ | ⟨clear, step⟩⟩
  · simp [exceeded, free] at finished
  · rw [step]
    exact ⟨free, follows, .inr ⟨stopped, rfl⟩⟩
  · rw [step]
    exact ⟨free, follows, clear, rfl⟩

/-- To count a step first changes nothing that a reading of the flag does not account for. -/
theorem heeds_tick_bind {walk : Walk α} {plain : Except MediaError α} (heeds : walk.Heeds plain) :
    Walk.Heeds (tick >>= fun _ => walk) plain := by
  exact heeds_tick.bind fun _ _ => heeds

end Progress
end RetroMedia
