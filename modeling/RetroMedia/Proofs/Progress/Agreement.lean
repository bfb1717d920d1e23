import RetroMedia.Proofs.Progress.Counting
import RetroMedia.Proofs.Progress.Lockstep

/-! Traversals that agree. Where the flag keeps its value, two traversals agree if they come to the
same from counters that are alike, whatever signals the counters share with others. A traversal that
agrees with itself is not influenced by the signals at all. -/
namespace RetroMedia

namespace Signals

/-- Signals that nobody tells apart by reading the flag: it has the same value in all of them, now
and ever after. -/
structure Uniform (fit : Signals → Prop) (flag : Bool) : Prop where
  lasting : Lasting fit
  raised : ∀ signals, fit signals → signals.raised = flag

theorem uniform_calm : Uniform Calm false := by
  refine ⟨lasting_calm, ?_⟩
  intro signals calm
  unfold raised
  split
  · rename_i flag same
    exact calm flag same signals.polls (Nat.le_refl _)
  · rfl

/-- Every reading from now on finds the flag at one value. -/
def Held (flag : Bool) (signals : Signals) : Prop :=
  ∀ poll, signals.polls ≤ poll → { signals with polls := poll }.raised = flag

theorem uniform_held (flag : Bool) : Uniform (Held flag) flag := by
  constructor
  · intro signals signals' follows held poll late
    rw [← held poll (Nat.le_trans follows.polls late)]
    unfold raised
    rw [follows.flag]
  · intro signals held
    exact held signals.polls (Nat.le_refl _)

/-- A flag that is held has one value from then on. -/
theorem held_hold (signals : Signals) (flag : Bool) : (signals.hold flag).Held flag := by
  intro poll _
  rfl

end Signals

namespace Progress

variable {fit : Signals → Prop} {flag : Bool}

/-- Counters at the same count under the same bound, both with signals that are `fit`. -/
structure Alike (fit : Signals → Prop) (first second : Progress) : Prop where
  limits : first.limits = second.limits
  count : first.count = second.count
  bound : first.bound = second.bound
  fits : fit first.signals
  fits' : fit second.signals

/-- A step under a flag that keeps its value: it fails at the bound, or else as the flag says. -/
theorem tick_of_uniform (uniform : Signals.Uniform fit flag) {progress : Progress}
    (fits : fit progress.signals) :
    ∃ signals, fit signals ∧ tick progress =
      if { progress with count := progress.count + 1 }.exceeded then
        .error .chainTooLong { progress with count := progress.count + 1, signals }
      else if flag then .error .cancelled { progress with count := progress.count + 1, signals }
      else .ok () { progress with count := progress.count + 1, signals } := by
  have polled := uniform.lasting _ _ progress.signals.follows_poll fits
  have fresh := uniform.lasting _ _ progress.signals.poll.follows_refresh polled
  have same : progress.signals.raised = flag := uniform.raised _ fits
  unfold tick
  dsimp only
  rw [same]
  by_cases finished : { progress with count := progress.count + 1 }.exceeded = true
  · rw [if_pos finished]
    exact ⟨_, fits, (if_pos finished).symm⟩
  · simp only [if_neg finished]
    cases flag with
    | true => exact ⟨_, polled, rfl⟩
    | false =>
      simp only [Bool.false_eq_true, if_false]
      split
      · exact ⟨_, fresh, rfl⟩
      · exact ⟨_, polled, rfl⟩

end Progress

namespace Walk

variable {α : Type} {fit : Signals → Prop} {flag : Bool}

/-- Both come to the same wherever they begin alike. -/
abbrev Agrees (fit : Signals → Prop) (first second : Walk α) : Prop :=
  Lockstep (Progress.Alike fit) first second

theorem agrees_tick (uniform : Signals.Uniform fit flag) :
    Agrees fit Progress.tick Progress.tick := by
  intro progress progress' alike
  obtain ⟨limits, count, bound, fits, fits'⟩ := alike
  obtain ⟨signals, still, step⟩ := Progress.tick_of_uniform uniform fits
  obtain ⟨signals', still', step'⟩ := Progress.tick_of_uniform uniform fits'
  have exceeded : { progress with count := progress.count + 1 }.exceeded
      = { progress' with count := progress'.count + 1 }.exceeded := by
    simp only [Progress.exceeded, count, bound]
  have onward : Progress.Alike fit { progress with count := progress.count + 1, signals }
      { progress' with count := progress'.count + 1, signals := signals' } :=
    ⟨limits, congrArg (· + 1) count, bound, still, still'⟩
  rw [step, step', exceeded]
  split
  · exact ⟨rfl, onward⟩
  · split
    · exact ⟨rfl, onward⟩
    · exact ⟨rfl, onward⟩

/-- A fixed course is the same under any signals. -/
theorem counted_agrees (uniform : Signals.Uniform fit flag) (result : Except MediaError α)
    (steps : Nat) : (counted result steps).Agrees fit (counted result steps) := by
  induction steps with
  | zero =>
    cases result with
    | ok value => exact lockstep_pure value
    | error error => exact lockstep_throw error
  | succ steps ih => exact (agrees_tick uniform).bind fun _ => ih

end Walk
end RetroMedia
