import RetroMedia.Entry
import RetroMedia.Proofs.Progress.Counting
import RetroMedia.Proofs.Progress.Lockstep

/-! Directories and the number of entries that they may have. A listing takes one step for each entry,
so its bound is one on the entries, too. Limits that allow fewer entries end a listing that has more of
them, and change nothing in any other: none is cut short. -/
namespace RetroMedia

/-- The same limits for directories of another size. -/
def Limits.allowing (limits : Limits) (maxEntries : Nat) : Limits := { limits with maxEntries }

namespace Progress

/-- The counter under limits for directories of another size. -/
def allowing (progress : Progress) (entries : Nat) : Progress :=
  { progress with limits := progress.limits.allowing entries }

/-- The counter further on, under the same limits and the same bound. -/
structure Leads (before after : Progress) : Prop where
  limits : after.limits = before.limits
  bound : after.bound = before.bound
  count : before.count ≤ after.count

/-- So many steps lead from one counter to the other, and the bound had room for them. -/
structure Takes (before : Progress) (steps : Nat) (after : Progress) : Prop where
  limits : after.limits = before.limits
  bound : after.bound = before.bound
  count : after.count = before.count + steps
  room : before.fits steps = true

/-- So many steps in all are more than the bound allows, or than a directory may have entries. -/
def Overrun (progress : Progress) (steps : Nat) : Prop :=
  progress.limits.maxEntries < steps ∨ { progress with count := steps }.exceeded = true

/-- The same counter under limits that allow fewer entries, and with less room. -/
structure Tighter (tight loose : Progress) : Prop where
  limits : loose.limits = tight.limits.allowing loose.limits.maxEntries
  fewer : tight.limits.maxEntries ≤ loose.limits.maxEntries
  count : tight.count = loose.count
  signals : tight.signals = loose.signals
  bound : ∀ most, loose.bound = some most → ∃ least ≤ most, tight.bound = some least

variable {before middle after tight loose : Progress} {steps more : Nat}

theorem Leads.refl (progress : Progress) : progress.Leads progress := ⟨rfl, rfl, Nat.le_refl _⟩

/-- Signals are no part of it. -/
theorem leads_withSignals (progress : Progress) (signals : Signals) :
    progress.Leads { progress with signals } := ⟨rfl, rfl, Nat.le_refl _⟩

theorem Leads.trans (first : before.Leads middle) (second : middle.Leads after) :
    before.Leads after where
  limits := second.limits.trans first.limits
  bound := second.bound.trans first.bound
  count := Nat.le_trans first.count second.count

theorem Takes.refl (progress : Progress) : progress.Takes 0 progress := ⟨rfl, rfl, rfl, rfl⟩

theorem Takes.trans (first : before.Takes steps middle) (second : middle.Takes more after) :
    before.Takes (steps + more) after where
  limits := second.limits.trans first.limits
  bound := second.bound.trans first.bound
  count := by rw [second.count, first.count, Nat.add_assoc]
  room := by rw [fits_add first.bound first.count, first.room, second.room, Bool.true_and]

theorem Takes.leads (takes : before.Takes steps after) : before.Leads after where
  limits := takes.limits
  bound := takes.bound
  count := by
    rw [takes.count]
    exact Nat.le_add_right _ _

/-- What the signals were does not matter to the steps. -/
theorem Takes.of_signals {signals : Signals}
    (takes : Takes { before with signals } steps after) : before.Takes steps after :=
  ⟨takes.limits, takes.bound, takes.count, takes.room⟩

/-- A new counter has taken no more steps than its bound allows. -/
theorem Takes.le_bound (takes : before.Takes steps after) (fresh : before.count = 0) {most : Nat}
    (bound : before.bound = some most) : steps ≤ most := by
  have room := takes.room
  simp only [fits, exceeded, bound, fresh, Nat.zero_add, Bool.or_eq_true, beq_iff_eq,
    Bool.not_eq_true', decide_eq_false_iff_not] at room
  omega

theorem Overrun.mono (overrun : before.Overrun steps) (further : steps ≤ more) :
    before.Overrun more := by
  rcases overrun with many | full
  · exact .inl (Nat.lt_of_lt_of_le many further)
  · refine .inr ?_
    unfold exceeded at full ⊢
    split at full <;> rename_i same
    · rw [same]
      simp only [decide_eq_true_eq] at full ⊢
      omega
    · cases full

theorem Leads.overrun (leads : before.Leads after) (overrun : after.Overrun steps) :
    before.Overrun steps := by
  unfold Overrun exceeded at *
  rw [leads.limits, leads.bound] at overrun
  exact overrun

theorem Tighter.refl (progress : Progress) : progress.Tighter progress where
  limits := rfl
  fewer := Nat.le_refl _
  count := rfl
  signals := rfl
  bound most same := ⟨most, Nat.le_refl _, same⟩

theorem Tighter.withSignals (tighter : tight.Tighter loose) (signals : Signals) :
    Tighter { tight with signals } { loose with signals } where
  limits := tighter.limits
  fewer := tighter.fewer
  count := tighter.count
  signals := rfl
  bound := tighter.bound

theorem Tighter.exceeded (tighter : tight.Tighter loose) (full : loose.exceeded = true) :
    tight.exceeded = true := by
  obtain ⟨_, _, count, _, bound⟩ := tighter
  unfold Progress.exceeded at full ⊢
  cases same : loose.bound with
  | none =>
    rw [same] at full
    cases full
  | some most =>
    obtain ⟨least, less, same'⟩ := bound most same
    rw [same] at full
    rw [same']
    simp only [decide_eq_true_eq] at full ⊢
    omega

end Progress

namespace Walk

variable {α β : Type}

/-- What becomes of a run that begins with a tight counter, where one under loose limits goes as it
does: the same, or the limits end it. The other one has overrun them if it did not fail itself. -/
def Narrowed (tight : Progress) (post : α → Progress → Prop) :
    EStateM.Result MediaError Progress α → EStateM.Result MediaError Progress α → Prop
  | .ok value after, .ok value' after' =>
    value = value' ∧ after.Tighter after' ∧ tight.Leads after ∧ post value after
  | .error error _, .error error' _ => error = .chainTooLong ∨ error = error'
  | .error error _, .ok _ after' =>
    error = .chainTooLong ∧ tight.count ≤ after'.count ∧ tight.Overrun after'.count
  | .ok _ _, .error _ _ => False

/-- From counters of which the first is tighter, the first traversal comes to what the second comes to,
with `post` between its beginning, its value and its end, or the limits end it. -/
def Narrows (post : Progress → α → Progress → Prop) (first second : Walk α) : Prop :=
  ∀ tight loose, tight.Tighter loose → Narrowed tight (post tight) (first tight) (second loose)

variable {tight : Progress} {post : α → Progress → Prop}

theorem Narrowed.count_le {run : EStateM.Result MediaError Progress α} {value : α} {after : Progress}
    (narrowed : Narrowed tight post run (.ok value after)) : tight.count ≤ after.count := by
  match run with
  | .ok value' after' =>
    obtain ⟨_, onward, leads, _⟩ := narrowed
    exact onward.count ▸ leads.count
  | .error error after' => exact narrowed.2.1

/-- What becomes of a run may be told from an earlier counter. -/
theorem Narrowed.behind {earlier : Progress} {whole : α → Progress → Prop}
    {first second : EStateM.Result MediaError Progress α} (narrowed : Narrowed tight post first second)
    (leads : earlier.Leads tight) (holds : ∀ value after, post value after → whole value after) :
    Narrowed earlier whole first second := by
  match first, second with
  | .ok value after, .ok value' after' =>
    obtain ⟨same, onward, leads', held⟩ := narrowed
    exact ⟨same, onward, leads.trans leads', holds value after held⟩
  | .error error after, .error error' after' => exact narrowed
  | .error error after, .ok value after' =>
    obtain ⟨same, count, overrun⟩ := narrowed
    exact ⟨same, Nat.le_trans leads.count count, leads.overrun overrun⟩
  | .ok value after, .error error after' => exact narrowed.elim

theorem narrowed_chainTooLong (after : Progress) {run : EStateM.Result MediaError Progress α}
    (beyond : ∀ value after', run = .ok value after' →
      tight.count ≤ after'.count ∧ tight.Overrun after'.count) :
    Narrowed tight post (.error .chainTooLong after) run := by
  cases run with
  | ok value after' => exact ⟨rfl, beyond value after' rfl⟩
  | error error after' => exact .inl rfl

theorem narrows_pure {post : Progress → α → Progress → Prop} {value : α}
    (holds : ∀ progress, post progress value progress) :
    Narrows post (pure value) (pure value) := by
  intro tight loose tighter
  exact ⟨rfl, tighter, .refl tight, holds tight⟩

theorem narrows_throw {post : Progress → α → Progress → Prop} (error : MediaError) :
    Narrows post (throw error) (throw error) := by
  intro tight loose tighter
  exact .inr rfl

/-- One traversal after another. What holds of the whole may be shown from any beginning that leads to
where the first one ends. -/
theorem Narrows.bind {early : Progress → α → Progress → Prop} {whole : Progress → β → Progress → Prop}
    {first second : Walk α} {next next' : α → Walk β} (narrows : Narrows early first second)
    (rest : ∀ value, Narrows (fun middle result after =>
        ∀ before, early before value middle → whole before result after)
      (next value) (next' value)) :
    Narrows whole (first >>= next) (second >>= next') := by
  intro tight loose tighter
  have begun := narrows tight loose tighter
  change Narrowed _ _ (EStateM.bind first next tight) (EStateM.bind second next' loose)
  unfold EStateM.bind
  match step : first tight, step' : second loose with
  | .ok value middle, .ok value' middle' =>
    rw [step, step'] at begun
    obtain ⟨rfl, onward, leads, held⟩ := begun
    have ended := rest value middle middle' onward
    dsimp only
    match finish : next value middle, finish' : next' value middle' with
    | .ok result after, .ok result' after' =>
      rw [finish, finish'] at ended
      exact ⟨ended.1, ended.2.1, leads.trans ended.2.2.1, ended.2.2.2 tight held⟩
    | .error error after, .error error' after' =>
      rw [finish, finish'] at ended
      exact ended
    | .error error after, .ok result after' =>
      rw [finish, finish'] at ended
      obtain ⟨same, count, overrun⟩ := ended
      exact ⟨same, Nat.le_trans leads.count count, leads.overrun overrun⟩
    | .ok result after, .error error after' =>
      rw [finish, finish'] at ended
      exact ended.elim
  | .error error after, .error error' after' =>
    rw [step, step'] at begun
    exact begun
  | .error error after, .ok value middle =>
    rw [step, step'] at begun
    obtain ⟨rfl, count, overrun⟩ := begun
    apply narrowed_chainTooLong
    intro result after' finish
    -- The rest counts on from there under whatever limits.
    have further := rest value middle middle (.refl middle)
    rw [show next' value middle = .ok result after' from finish] at further
    exact ⟨Nat.le_trans count further.count_le, overrun.mono further.count_le⟩
  | .ok value middle, .error error after =>
    rw [step, step'] at begun
    exact begun.elim

theorem Narrows.map {early : Progress → α → Progress → Prop} {whole : Progress → β → Progress → Prop}
    {first second : Walk α} {change : α → β} (narrows : Narrows early first second)
    (holds : ∀ before value after, early before value after → whole before (change value) after) :
    Narrows whole (first >>= fun value => pure (change value))
      (second >>= fun value => pure (change value)) :=
  narrows.bind fun value => narrows_pure fun after before => holds before value after

theorem narrows_get {post : Progress → α → Progress → Prop} {next next' : Progress → Walk α}
    (rest : ∀ tight loose, tight.Tighter loose →
      Narrowed tight (post tight) (next tight tight) (next' loose loose)) :
    Narrows post (get >>= next) (get >>= next') := rest

/-- A step that the tight bound has room for is the same under a loose one. -/
theorem narrows_tick :
    Narrows (fun before _ after => before.Takes 1 after) Progress.tick Progress.tick := by
  intro tight loose tighter
  let counted (progress : Progress) : Progress := { progress with count := progress.count + 1 }
  have onward : (counted tight).Tighter (counted loose) :=
    ⟨tighter.limits, tighter.fewer, congrArg (· + 1) tighter.count, tighter.signals, tighter.bound⟩
  by_cases full : (counted tight).exceeded = true
  · have step : Progress.tick tight = .error .chainTooLong (counted tight) := if_pos full
    rw [step]
    apply narrowed_chainTooLong
    intro _ after finish
    have count := loose.tick_count
    rw [finish, ← tighter.count] at count
    rw [show after.count = tight.count + 1 from count]
    exact ⟨Nat.le_succ _, .inr full⟩
  have room : ¬ (counted loose).exceeded = true := fun beyond => full (onward.exceeded beyond)
  have fits : tight.fits 1 = true := by
    rw [Progress.fits_succ, Bool.not_eq_true', ← Bool.not_eq_true]
    exact full
  have due : (counted tight).refreshDue = (counted loose).refreshDue := by
    unfold Progress.refreshDue
    rw [onward.limits, onward.count]
    rfl
  have takes (signals : Signals) : tight.Takes 1 { counted tight with signals } :=
    ⟨rfl, rfl, rfl, fits⟩
  have polled := onward.withSignals (counted tight).signals.poll
  have refreshed := onward.withSignals (counted tight).signals.poll.refresh
  unfold Progress.tick
  dsimp only
  rw [if_neg full, if_neg room, ← due, ← tighter.signals]
  split
  · exact .inr rfl
  · split
    · exact ⟨rfl, refreshed, (takes _).leads, takes _⟩
    · exact ⟨rfl, polled, (takes _).leads, takes _⟩

end Walk

/-- A table whose entries are numbered from `index` on, and for each of which a step was counted. -/
structure Tally (index : Nat) (before : Progress) (table : List Entry) (after : Progress) : Prop where
  numbered : table.map (·.index) = List.range' index table.length
  takes : before.Takes table.length after

namespace Tally

variable {index : Nat} {before middle after : Progress} {table more : List Entry} {entry : Entry}

theorem nil (index : Nat) (progress : Progress) : Tally index progress [] progress :=
  ⟨rfl, .refl progress⟩

theorem cons (numbered : entry.index = index) (step : before.Takes 1 middle)
    (rest : Tally (index + 1) middle table after) : Tally index before (entry :: table) after where
  numbered := by rw [List.map_cons, numbered, rest.numbered, List.length_cons, List.range'_succ]
  takes := by
    rw [List.length_cons, Nat.add_comm]
    exact step.trans rest.takes

theorem of_signals {signals : Signals} (tally : Tally index { before with signals } table after) :
    Tally index before table after := ⟨tally.numbered, tally.takes.of_signals⟩

theorem append (first : Tally index before table middle)
    (second : Tally (index + table.length) middle more after) :
    Tally index before (table ++ more) after where
  numbered := by
    rw [List.map_append, first.numbered, second.numbered, List.length_append,
      List.range'_append_1]
  takes := by
    rw [List.length_append]
    exact first.takes.trans second.takes

end Tally

namespace Walk

variable {index : Nat} {first second : Walk (List Entry)}

/-- Both list a directory with a step for each entry, numbered from `index` on. -/
abbrev Enumerates (index : Nat) (first second : Walk (List Entry)) : Prop :=
  Narrows (Tally index) first second

theorem enumerates_nil : Enumerates index (pure []) (pure []) :=
  narrows_pure fun progress => .nil index progress

/-- An entry that a step was counted for, and those behind it. -/
theorem enumerates_cons {entry : Entry} (numbered : entry.index = index)
    (rest : Enumerates (index + 1) first second) :
    Enumerates index (Progress.tick >>= fun _ => first >>= fun more => pure (entry :: more))
      (Progress.tick >>= fun _ => second >>= fun more => pure (entry :: more)) := by
  apply narrows_tick.bind
  intro _
  apply rest.map
  intro middle more after tally before step
  exact tally.cons numbered step

end Walk
end RetroMedia
