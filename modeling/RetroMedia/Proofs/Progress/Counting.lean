import RetroMedia.Proofs.Progress.Interruption

/-! Traversals of a fixed course. Such a traversal counts a number of steps and then comes to a
result, and neither of them depends on its counter: nothing but a step that fails can change what it
comes to. A traversal that its bound, the flag and what it finds can each end lands at what it finds
while the bound has room for its steps, and at nothing else unless a step of it finds the flag
set. -/
namespace RetroMedia.Walk

variable {α β : Type}

/-- So many steps, and then a result that stands beforehand. -/
def counted (result : Except MediaError α) : Nat → Walk α
  | 0 =>
    match result with
    | .ok value => pure value
    | .error error => throw error
  | steps + 1 => do
    Progress.tick
    counted result steps

theorem counted_succ (result : Except MediaError α) (steps : Nat) :
    counted result (steps + 1) = Progress.tick >>= fun _ => counted result steps := rfl

/-- A traversal of a fixed course comes to its result, unless a step of it finds the flag set. -/
theorem heeds_counted (result : Except MediaError α) (steps : Nat) :
    (counted result steps).Heeds result := by
  induction steps with
  | zero =>
    cases result with
    | ok value => exact heeds_pure value
    | error error => exact heeds_throw error
  | succ steps ih => exact Progress.heeds_tick_bind ih

/-- What is done with the result of a fixed course without counting further steps. -/
theorem counted_bind (result : Except MediaError α) (steps : Nat)
    (next : α → Except MediaError β) :
    (counted result steps >>= fun value => counted (next value) 0)
      = counted (result.bind next) steps := by
  induction steps with
  | zero =>
    cases result with
    | ok value => rfl
    | error error => rfl
  | succ steps ih => rw [counted_succ, counted_succ, bind_assoc, ih]

/-- A traversal of a fixed course that its bound leaves room for comes to its result, unless a step of
it finds the flag set. -/
theorem counted_cases (result : Except MediaError α) {steps : Nat} {progress : Progress}
    (room : ∀ bound, progress.bound = some bound → progress.count + steps ≤ bound) :
    ∃ after : Progress, progress.signals.Follows after.signals ∧
      ((¬ progress.signals.Interrupted after.signals ∧
          counted result steps progress = match result with
            | .ok value => .ok value after
            | .error error => .error error after) ∨
        (progress.signals.Interrupted after.signals ∧
          counted result steps progress = .error .cancelled after)) := by
  induction steps generalizing progress with
  | zero =>
    refine ⟨progress, .refl _, .inl ⟨Signals.not_interrupted_self _, ?_⟩⟩
    cases result with
    | ok value => rfl
    | error error => rfl
  | succ steps ih =>
    rw [counted_succ]
    change ∃ after : Progress, progress.signals.Follows after.signals ∧
      ((_ ∧ EStateM.bind Progress.tick _ progress = _) ∨
        (_ ∧ EStateM.bind Progress.tick _ progress = _))
    unfold EStateM.bind
    rcases progress.tick_cases with
      ⟨finished, _⟩ | ⟨_, signals, follows, ⟨stopped, step⟩ | ⟨clear, step⟩⟩
    · exfalso
      cases same : progress.bound with
      | none => simp [Progress.exceeded, same] at finished
      | some bound =>
        have fits := room bound same
        simp only [Progress.exceeded, same, decide_eq_true_eq] at finished
        omega
    · rw [step]
      exact ⟨_, follows, .inr ⟨stopped, rfl⟩⟩
    · rw [step]
      obtain ⟨after, on, law⟩ := @ih { progress with count := progress.count + 1, signals }
        fun bound same => by
          have fits := room bound same
          dsimp only
          omega
      refine ⟨after, follows.trans on, ?_⟩
      rw [Signals.interrupted_iff follows on]
      rcases law with ⟨quiet, finish⟩ | ⟨stopped, finish⟩
      · exact .inl ⟨not_or.2 ⟨clear, quiet⟩, finish⟩
      · exact .inr ⟨.inr stopped, finish⟩

end RetroMedia.Walk

namespace RetroMedia

namespace Progress

/-- Does the bound leave room for so many more steps? A traversal without steps needs none. -/
def fits (progress : Progress) (steps : Nat) : Bool :=
  steps == 0 || !{ progress with count := progress.count + steps }.exceeded

variable {progress middle : Progress}

/-- A counter without a bound has room for any number of steps. -/
theorem fits_of_unbounded (free : progress.bound = none) (steps : Nat) :
    progress.fits steps = true := by
  simp [fits, exceeded, free]

/-- There is room for two runs of steps if there is room for the first, and behind it for the
second. -/
theorem fits_add {steps : Nat} (bound : middle.bound = progress.bound)
    (count : middle.count = progress.count + steps) (more : Nat) :
    progress.fits (steps + more) = (progress.fits steps && middle.fits more) := by
  unfold fits exceeded
  rw [bound, count]
  cases progress.bound with
  | none => simp
  | some bound =>
    rw [Bool.eq_iff_iff]
    simp
    omega

theorem fits_succ (progress : Progress) :
    progress.fits 1 = !{ progress with count := progress.count + 1 }.exceeded := by
  simp [fits]

end Progress

namespace Walk

variable {α β : Type}

/-- A run that began at `before` came to `result` within `taken` steps, unless one of them found the
flag set. -/
def Lands (before : Progress) (taken : Nat) (result : Except MediaError α)
    (run : EStateM.Result MediaError Progress α) : Prop :=
  ∃ after : Progress, before.signals.Follows after.signals ∧ after.count ≤ before.count + taken ∧
    ((before.signals.Interrupted after.signals ∧ run = .error .cancelled after) ∨
      (¬ before.signals.Interrupted after.signals ∧ run = match result with
        | .ok value => .ok value after
        | .error error => .error error after))

variable {before middle : Progress} {taken steps : Nat} {result : Except MediaError α}
  {run : EStateM.Result MediaError Progress α}

theorem lands_ok (value : α) : Lands before 0 (.ok value) (.ok value before) :=
  ⟨before, .refl _, Nat.le_refl _, .inr ⟨Signals.not_interrupted_self _, rfl⟩⟩

theorem lands_error (error : MediaError) :
    Lands before 0 (.error error : Except MediaError α) (.error error before) :=
  ⟨before, .refl _, Nat.le_refl _, .inr ⟨Signals.not_interrupted_self _, rfl⟩⟩

theorem Lands.mono {more : Nat} (lands : Lands before taken result run) (within : taken ≤ more) :
    Lands before more result run := by
  obtain ⟨after, follows, count, course⟩ := lands
  exact ⟨after, follows, by omega, course⟩

theorem lands_map {walk : Walk α} {change : α → β}
    (lands : Lands before taken result (walk middle)) :
    Lands before taken (result.map change) ((walk >>= fun value => pure (change value)) middle) := by
  obtain ⟨after, follows, count, course⟩ := lands
  refine ⟨after, follows, count, course.imp ?_ ?_⟩
  · rintro ⟨stopped, finish⟩
    refine ⟨stopped, ?_⟩
    change EStateM.bind walk _ middle = _
    rw [EStateM.bind, finish]
  · rintro ⟨clear, finish⟩
    refine ⟨clear, ?_⟩
    change EStateM.bind walk _ middle = _
    rw [EStateM.bind, finish]
    cases result <;> rfl

/-- What lands behind undisturbed steps has landed from the beginning. -/
theorem Lands.behind (lands : Lands middle taken result run)
    (follows : before.signals.Follows middle.signals)
    (clear : ¬ before.signals.Interrupted middle.signals)
    (count : middle.count = before.count + steps) : Lands before (steps + taken) result run := by
  obtain ⟨after, on, within, course⟩ := lands
  refine ⟨after, follows.trans on, by omega, ?_⟩
  rw [Signals.interrupted_iff follows on]
  rcases course with ⟨stopped, finish⟩ | ⟨quiet, finish⟩
  · exact .inl ⟨.inr stopped, finish⟩
  · exact .inr ⟨not_or.2 ⟨clear, quiet⟩, finish⟩

/-- A step and what comes behind it. -/
theorem lands_tick_bind {next : Walk α}
    (onward : ∀ middle : Progress, before.signals.Follows middle.signals →
      middle.bound = before.bound → middle.count = before.count + 1 →
      Lands middle taken result (next middle)) :
    Lands before (1 + taken) (if before.fits 1 then result else .error .chainTooLong)
      ((Progress.tick >>= fun _ => next) before) := by
  change Lands _ _ _ (EStateM.bind Progress.tick _ before)
  unfold EStateM.bind
  rcases before.tick_cases with
    ⟨full, step⟩ | ⟨room, signals, follows, ⟨stopped, step⟩ | ⟨clear, step⟩⟩
  · rw [step, Progress.fits_succ, full]
    exact ⟨{ before with count := before.count + 1 }, .refl _, Nat.add_le_add_left (by omega) _,
      .inr ⟨Signals.not_interrupted_self _, rfl⟩⟩
  · rw [step]
    exact ⟨_, follows, Nat.add_le_add_left (by omega) _, .inl ⟨stopped, rfl⟩⟩
  · have middle := onward { before with count := before.count + 1, signals } follows rfl rfl
    rw [step, Progress.fits_succ, room]
    exact middle.behind follows clear rfl

/-- A fixed course and what comes behind it. -/
theorem lands_counted_bind {value : α} {next : α → Walk β} {result : Except MediaError β}
    {progress : Progress}
    (onward : ∀ middle : Progress, progress.signals.Follows middle.signals →
      middle.bound = progress.bound → middle.count = progress.count + steps →
      Lands middle taken result (next value middle)) :
    Lands progress (steps + taken) (if progress.fits steps then result else .error .chainTooLong)
      ((counted (.ok value) steps >>= next) progress) := by
  induction steps generalizing progress with
  | zero =>
    rw [Nat.zero_add]
    exact onward progress (.refl _) rfl rfl
  | succ steps ih =>
    rw [counted_succ, bind_assoc]
    let stepped := { progress with count := progress.count + 1 }
    have lands := @lands_tick_bind β progress (steps + taken)
      (if stepped.fits steps then result else .error .chainTooLong)
      (counted (.ok value) steps >>= next) fun middle follows bound count => by
        have same : stepped.fits steps = middle.fits steps := by
          simp only [stepped, Progress.fits, Progress.exceeded, bound, count]
        rw [same]
        exact ih fun last on bound' count' =>
          onward last (follows.trans on) (bound'.trans bound) (by omega)
    have split : progress.fits (1 + steps) = (progress.fits 1 && stepped.fits steps) :=
      @Progress.fits_add progress stepped 1 rfl rfl steps
    rw [Nat.add_comm steps 1, split, Nat.add_assoc]
    by_cases room : progress.fits 1 = true
    · rw [if_pos room] at lands
      rw [room, Bool.true_and]
      exact lands
    · rw [if_neg room] at lands
      rw [Bool.eq_false_iff.2 room, Bool.false_and]
      exact lands

end Walk
end RetroMedia
