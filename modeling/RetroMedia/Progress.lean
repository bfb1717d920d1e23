import RetroMedia.Error
import RetroMedia.Config

/-! Checked traversal. Chains and directories come from untrusted data, so each step of a traversal
is counted: past its bound the traversal fails, a cancellation flag is read, and a watchdog is
refreshed at intervals. -/
namespace RetroMedia

/-- What all counters of one session share. The cancellation flag is a schedule: the value it has
at each successive reading. Without a schedule nothing can be cancelled. -/
structure Signals where
  cancel : Option (Nat → Bool) := none
  /-- How often the flag has been read. -/
  polls : Nat := 0
  /-- Whether a watchdog is attached. -/
  watched : Bool := false
  /-- How often the watchdog was refreshed. -/
  refreshes : Nat := 0

namespace Signals

/-- No flag and no watchdog. -/
def quiet : Signals := {}

/-- Is the flag set at the next reading? -/
def raised (signals : Signals) : Bool :=
  match signals.cancel with
  | some flag => flag signals.polls
  | none => false

def poll (signals : Signals) : Signals :=
  match signals.cancel with
  | some _ => { signals with polls := signals.polls + 1 }
  | none => signals

def refresh (signals : Signals) : Signals :=
  if signals.watched then { signals with refreshes := signals.refreshes + 1 } else signals

/-- From now on the flag is constant. -/
def hold (signals : Signals) (flag : Bool) : Signals :=
  { signals with cancel := some fun _ => flag }

end Signals

/-- A counter of steps together with the signals it shares. -/
structure Progress where
  limits : Limits := {}
  count : Nat := 0
  bound : Option Nat := none
  signals : Signals := {}

/-- A traversal: it can fail, and the steps it took stay counted either way. -/
abbrev Walk := EStateM MediaError Progress

namespace Progress

/-- A new counter that fails after `bound` steps. -/
def bounded (progress : Progress) (bound : Nat) : Progress :=
  { progress with count := 0, bound := some bound }

/-- A new counter that never fails by itself. -/
def unbounded (progress : Progress) : Progress := { progress with count := 0, bound := none }

/-- Has the traversal taken more steps than it may? -/
def exceeded (progress : Progress) : Bool :=
  match progress.bound with
  | some bound => bound < progress.count
  | none => false

/-- Does this step refresh the watchdog? -/
def refreshDue (progress : Progress) : Bool :=
  progress.limits.watchdogInterval != 0 && progress.count % progress.limits.watchdogInterval == 0

/-- Account for one step. The bound is checked before the flag is read, and only a step that
succeeds refreshes the watchdog. -/
def tick : Walk Unit := fun progress =>
  let counted := { progress with count := progress.count + 1 }
  if counted.exceeded then .error .chainTooLong counted
  else
    let polled := { counted with signals := counted.signals.poll }
    if counted.signals.raised then .error .cancelled polled
    else if counted.refreshDue then .ok () { polled with signals := polled.signals.refresh }
    else .ok () polled

/-- The counter as a log shows it. -/
def describe (progress : Progress) : String :=
  let bound := match progress.bound with
    | some bound => "Some(" ++ toString bound ++ ")"
    | none => "None"
  let cancellable := if progress.signals.cancel.isSome then "true" else "false"
  "Progress \x7b count: " ++ toString progress.count ++ ", bound: " ++ bound ++ ", cancellable: "
    ++ cancellable ++ " \x7d"

theorem tick_count (progress : Progress) :
    (match tick progress with
      | .ok _ after => after.count
      | .error _ after => after.count) = progress.count + 1 := by
  unfold tick
  dsimp only
  split <;> rename_i step <;> (repeat' split at step) <;> cases step <;> rfl

/-- A step that succeeds stays within the bound. -/
theorem tick_ok_le {progress after : Progress} {bound : Nat} (limited : progress.bound = some bound)
    (step : tick progress = .ok () after) :
    after.count = progress.count + 1 ∧ after.count ≤ bound := by
  unfold tick at step
  dsimp only at step
  split at step
  · simp at step
  · rename_i within
    simp [exceeded, limited] at within
    split at step
    · simp at step
    · split at step <;> cases step <;> exact ⟨rfl, within⟩

end Progress
end RetroMedia
