import RetroMedia.Bytes
import RetroMedia.Progress

/-! Computing as a machine does. An array has bounds and a word holds so many values: an access outside
of the bounds, or a result that the word cannot hold, is a fault that no caller can deal with. A
computation of the library is safe if, with each access and each result checked, it comes to the same
as it does without the checks. -/
namespace RetroMedia

/-- What a machine stops at. -/
inductive Fault where
  /-- An array was accessed outside of its bounds. -/
  | outOfBounds
  /-- A word cannot hold the result. -/
  | overflow
  deriving DecidableEq, Repr

/-- A computation whose accesses and results are checked. -/
abbrev Checked := Except Fault

namespace Checked

@[simp] theorem pure_eq (value : α) : (pure value : Checked α) = .ok value := rfl

@[simp] theorem ok_bind (value : α) (next : α → Checked β) :
    ((.ok value : Checked α) >>= next) = next value := rfl

theorem ok_of_bind {computation : Checked α} {next : α → Checked β} {result : β}
    (done : (computation >>= next) = .ok result) :
    ∃ value, computation = .ok value ∧ next value = .ok result := by
  cases computation with
  | error fault => cases done
  | ok value => exact ⟨value, rfl, done⟩

/-- A number that a word of so many values must hold. -/
def fit (values number : Nat) : Checked Nat :=
  if number < values then .ok number else .error .overflow

/-- What a half-size word holds, a word holds. -/
theorem lt_word {number : Nat} (small : number < 4294967296) : number < UInt64.size :=
  Nat.lt_trans small (by decide)

def add (values a b : Nat) : Checked Nat := fit values (a + b)

def mul (values a b : Nat) : Checked Nat := fit values (a * b)

/-- No array is longer than half of what can be addressed. -/
def longestArray : Nat := UInt64.size / 2

/-- No word holds a number below zero. -/
def sub (a b : Nat) : Checked Nat := if b ≤ a then .ok (a - b) else .error .overflow

theorem add_eq {values a b : Nat} (fits : a + b < values) : add values a b = .ok (a + b) :=
  if_pos fits

theorem mul_eq {values a b : Nat} (fits : a * b < values) : mul values a b = .ok (a * b) :=
  if_pos fits

theorem sub_eq {a b : Nat} (fits : b ≤ a) : sub a b = .ok (a - b) := if_pos fits

/-- The item at a place. -/
def item (items : List α) (place : Nat) : Checked α :=
  match items[place]? with
  | some item => .ok item
  | none => .error .outOfBounds

theorem item_eq {items : List α} {place : Nat} {found : α} (here : items[place]? = some found) :
    item items place = .ok found := by
  rw [item, here]

theorem byte_eq {bytes : Bytes} {place : Nat} (inside : place < bytes.length) :
    item bytes place = .ok (bytes.byte place) := by
  apply item_eq
  rw [Bytes.byte, List.getD_eq_getElem?_getD, List.getElem?_eq_getElem inside]
  rfl

/-- The bytes from `start` up to `stop`. -/
def part (bytes : Bytes) (start stop : Nat) : Checked Bytes :=
  if start ≤ stop ∧ stop ≤ bytes.length then .ok (bytes.field start (stop - start))
  else .error .outOfBounds

theorem part_eq {bytes : Bytes} {start stop : Nat} (order : start ≤ stop)
    (inside : stop ≤ bytes.length) : part bytes start stop = .ok (bytes.field start (stop - start)) :=
  if_pos ⟨order, inside⟩

/-- The bytes from `start` on. -/
theorem part_rest {bytes : Bytes} {start : Nat} (inside : start ≤ bytes.length) :
    part bytes start bytes.length = .ok (bytes.drop start) := by
  rw [part_eq inside (Nat.le_refl _), Bytes.field, List.take_of_length_le (by simp)]

/-- A copy into an array of the given size must fill it. -/
def filling (size : Nat) (bytes : Bytes) : Checked Bytes :=
  if bytes.length = size then .ok bytes else .error .outOfBounds

theorem filling_eq {size : Nat} {bytes : Bytes} (same : bytes.length = size) :
    filling size bytes = .ok bytes := if_pos same

theorem mapM_eq {change : α → Checked β} {plain : α → β} {items : List α}
    (each : ∀ item ∈ items, change item = .ok (plain item)) :
    items.mapM change = .ok (items.map plain) := by
  induction items with
  | nil => rfl
  | cons first rest ih =>
    rw [List.mapM_cons, each first List.mem_cons_self,
      ih fun item member => each item (List.mem_cons_of_mem _ member)]
    rfl

/-- A way to open something meets no fault, comes to what the plain one comes to, and what it opens is
sound. -/
def Opens (sound : β → Prop) (plain : β → α) (checked : Checked (Except MediaError β))
    (result : Except MediaError α) : Prop :=
  ∃ outcome, checked = .ok outcome ∧ outcome.map plain = result ∧
    ∀ opened, outcome = .ok opened → sound opened

theorem opens_error {sound : β → Prop} {plain : β → α} (error : MediaError) :
    Opens sound plain (.ok (.error error)) (.error error) :=
  ⟨_, rfl, rfl, by rintro _ ⟨⟩⟩

theorem opens_ok {sound : β → Prop} (plain : β → α) {opened : β} (holds : sound opened) :
    Opens sound plain (.ok (.ok opened)) (.ok (plain opened)) :=
  ⟨_, rfl, rfl, by rintro _ ⟨⟩; exact holds⟩

/-- Opening goes on once a step that can fail has succeeded. -/
theorem opens_step {sound : β → Prop} {plain : β → α} {step : Checked (Except MediaError γ)}
    {result : Except MediaError γ} (same : step = .ok result)
    {next : Except MediaError γ → Checked (Except MediaError β)}
    {plainNext : γ → Except MediaError α} (stop : ∀ error, next (.error error) = .ok (.error error))
    (rest : ∀ value, result = .ok value → Opens sound plain (next (.ok value)) (plainNext value)) :
    Opens sound plain (step >>= next) (result >>= plainNext) := by
  subst same
  cases result with
  | error error => exact ⟨_, stop error, rfl, by rintro _ ⟨⟩⟩
  | ok value => exact rest value rfl

/-- A program with a state whose accesses and results are checked. A failure that the library reports
is none of the machine. -/
def Program (σ α : Type) := σ → Checked (EStateM.Result MediaError σ α)

namespace Program

instance {σ : Type} : Monad (Program σ) where
  pure value := fun state => .ok (.ok value state)
  bind program next := fun state => do
    match ← program state with
    | .ok value after => next value after
    | .error error after => return .error error after

instance {σ : Type} : MonadExceptOf MediaError (Program σ) where
  throw error := fun state => .ok (.error error state)
  tryCatch program handle := fun state => do
    match ← program state with
    | .ok value after => return .ok value after
    | .error error after => handle error after

instance {σ : Type} : MonadLift Checked (Program σ) where
  monadLift computation := fun state => do return .ok (← computation) state

end Program

variable {σ α β : Type} {before : σ → Prop}

/-- From states of which `before` holds, the checked program meets no fault and comes to the same as
the plain one, and `after` holds of what it comes to. -/
def Safe (before : σ → Prop) (checked : Program σ α) (plain : EStateM MediaError σ α)
    (after : α → σ → Prop) : Prop :=
  ∀ state, before state → checked state = .ok (plain state) ∧
    match plain state with
    | .ok value state' => after value state'
    | .error _ _ => True

theorem safe_pure {after : α → σ → Prop} {value : α}
    (holds : ∀ state, before state → after value state) :
    Safe before (pure value) (pure value) after := by
  intro state here
  exact ⟨rfl, holds state here⟩

theorem safe_throw {after : α → σ → Prop} (error : MediaError) :
    Safe before (throw error) (throw error) after := by
  intro state here
  exact ⟨rfl, trivial⟩

theorem Safe.bind {checked : Program σ α} {plain : EStateM MediaError σ α} {middle : α → σ → Prop}
    {next : α → Program σ β} {next' : α → EStateM MediaError σ β} {after : β → σ → Prop}
    (first : Safe before checked plain middle)
    (rest : ∀ value, Safe (middle value) (next value) (next' value) after) :
    Safe before (checked >>= next) (plain >>= next') after := by
  intro state here
  obtain ⟨same, law⟩ := first state here
  change (checked state >>= fun outcome => match outcome with
    | .ok value state' => next value state'
    | .error error state' => pure (.error error state')) = .ok (EStateM.bind plain next' state) ∧
      match EStateM.bind plain next' state with
      | .ok value state' => after value state'
      | .error _ _ => True
  unfold EStateM.bind
  rw [same, ok_bind]
  match step : plain state with
  | .ok value state' =>
    rw [step] at law
    exact rest value state' law
  | .error error state' => exact ⟨rfl, trivial⟩

/-- A computation without a fault takes no part in what a program comes to. -/
theorem Safe.lift {computation : Checked α} {value : α} (same : computation = .ok value)
    {next : α → Program σ β} {plain : EStateM MediaError σ β} {after : β → σ → Prop}
    (rest : Safe before (next value) plain after) :
    Safe before (liftM computation >>= next) plain after := by
  subst same
  intro state here
  exact rest state here

theorem Safe.mono {before' : σ → Prop} {checked : Program σ α} {plain : EStateM MediaError σ α}
    {after after' : α → σ → Prop} (safe : Safe before checked plain after)
    (stronger : ∀ state, before' state → before state)
    (weaker : ∀ value state, after value state → after' value state) :
    Safe before' checked plain after' := by
  intro state here
  obtain ⟨same, law⟩ := safe state (stronger state here)
  refine ⟨same, ?_⟩
  match step : plain state with
  | .ok value state' =>
    rw [step] at law
    exact weaker value state' law
  | .error error state' => trivial

/-- What is known of a value does not depend on the state. -/
theorem Safe.given {fact : Prop} {checked : Program σ α} {plain : EStateM MediaError σ α}
    {after : α → σ → Prop} (safe : fact → Safe before checked plain after) :
    Safe (fun state => fact ∧ before state) checked plain after :=
  fun state here => safe here.1 state here.2

/-- A step adds one to a word. -/
def tick : Program Progress Unit := fun progress => do
  let _ ← add UInt64.size progress.count 1
  return Progress.tick progress

/-- The counter can take so many further steps. -/
def Room (steps : Nat) (progress : Progress) : Prop := progress.count + steps < UInt64.size

/-- The checked traversal is safe where there is room for the steps it takes at most, and `post` holds
of what it comes to. -/
def Takes (steps : Nat) (checked : Program Progress α) (plain : Walk α) (post : α → Prop) : Prop :=
  ∀ spare, Safe (Room (steps + spare)) checked plain fun value after => post value ∧ Room spare after

variable {post : α → Prop} {late : β → Prop}

theorem takes_pure {value : α} (holds : post value) : Takes 0 (pure value) (pure value) post := by
  intro spare
  refine safe_pure fun state room => ⟨holds, ?_⟩
  rwa [Nat.zero_add] at room

theorem takes_throw (error : MediaError) :
    Takes 0 (throw error : Program Progress α) (throw error) post :=
  fun _ => safe_throw error

theorem takes_tick : Takes 1 tick Progress.tick fun _ => True := by
  intro spare progress room
  unfold Room at room
  constructor
  · rw [tick, add_eq (by omega)]
    rfl
  · have counted := progress.tick_count
    match step : Progress.tick progress with
    | .ok _ after =>
      rw [step] at counted
      dsimp only at counted
      refine ⟨trivial, ?_⟩
      unfold Room
      omega
    | .error _ _ => trivial

theorem Takes.bind {first second : Nat} {checked : Program Progress α} {plain : Walk α}
    {next : α → Program Progress β} {next' : α → Walk β} (takes : Takes first checked plain post)
    (rest : ∀ value, post value → Takes second (next value) (next' value) late) :
    Takes (first + second) (checked >>= next) (plain >>= next') late := by
  intro spare
  rw [Nat.add_assoc]
  refine (takes (second + spare)).bind ?_
  intro value state here
  exact rest value here.1 spare state here.2

theorem Takes.last {steps : Nat} {checked : Program Progress α} {plain : Walk α}
    {next : α → Program Progress β} {next' : α → Walk β} (takes : Takes steps checked plain post)
    (rest : ∀ value, post value → Takes 0 (next value) (next' value) late) :
    Takes steps (checked >>= next) (plain >>= next') late := takes.bind rest

theorem Takes.lift {steps : Nat} {computation : Checked α} {value : α}
    (same : computation = .ok value) {next : α → Program Progress β} {plain : Walk β}
    (rest : Takes steps (next value) plain late) :
    Takes steps (liftM computation >>= next) plain late :=
  fun spare => (rest spare).lift same

theorem Takes.mono {steps steps' : Nat} {checked : Program Progress α} {plain : Walk α}
    (takes : Takes steps checked plain post) (fewer : steps ≤ steps') :
    Takes steps' checked plain post := by
  intro spare
  refine (takes (steps' - steps + spare)).mono ?_ ?_
  · intro state room
    unfold Room at room ⊢
    omega
  · intro value state here
    refine ⟨here.1, ?_⟩
    have room := here.2
    unfold Room at room ⊢
    omega

/-- A fresh counter has room for all the steps that a word can count. -/
theorem Takes.fresh {steps : Nat} {checked : Program Progress α} {plain : Walk α}
    (takes : Takes steps checked plain post) (few : steps < UInt64.size) {progress : Progress}
    (fresh : progress.count = 0) :
    checked progress = .ok (plain progress) ∧
      ∀ value after, plain progress = .ok value after → post value := by
  have room : Room (steps + 0) progress := by
    unfold Room
    omega
  obtain ⟨same, law⟩ := takes 0 progress room
  refine ⟨same, fun value after step => ?_⟩
  rw [step] at law
  exact law.1

theorem Takes.imp {steps : Nat} {checked : Program Progress α} {plain : Walk α} {post' : α → Prop}
    (takes : Takes steps checked plain post) (weaker : ∀ value, post value → post' value) :
    Takes steps checked plain post' := fun spare =>
  (takes spare).mono (fun _ room => room) fun value _ here => ⟨weaker value here.1, here.2⟩

end Checked
end RetroMedia
