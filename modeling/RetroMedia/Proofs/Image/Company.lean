import Mathlib.Logic.Function.Basic
import RetroMedia.Proofs.Image.Alongside
import RetroMedia.Proofs.Image.Refinement

/-! The streams of one image. Any number of users have a stream each, and they come in any order. As
long as the flag keeps its value, a user is told what the user of a fresh image would be told, so
nobody finds out what the others do. -/
namespace RetroMedia

/-- What a user does with a stream. -/
inductive Inquiry where
  | entries
  | request (request : Request)
  /-- Where the stream stands. -/
  | standing
  | drain
  | readUntil (delimiter : UInt8)
  | readUpTo (count : Nat)

inductive Answer where
  | table (result : Except MediaError (List Entry))
  | reply (result : Except MediaError Reply)
  | standing (size position : Nat) (selected : Option Entry)
  | drained (bytes : Bytes) (failure : Option MediaError)
  | piece (result : Except MediaError Bytes)

namespace Checkout

/-- Do what the user of a stream wants. -/
def answer (checkout : Checkout) : Inquiry → Answer × Checkout
  | .entries =>
    match entries checkout with
    | .ok table after => (.table (.ok table), after)
    | .error error after => (.table (.error error), after)
  | .request request => (checkout.serve request).map .reply id
  | .standing =>
    (.standing checkout.size checkout.position checkout.stream.selected, checkout)
  | .drain =>
    let (bytes, failure, after) := ByteSource.drain checkout
    (.drained bytes failure, after)
  | .readUntil delimiter => (ByteSource.readUntil checkout delimiter).map .piece id
  | .readUpTo count => (ByteSource.readUpTo checkout count).map .piece id

/-- Do one thing after another, failures or not. -/
def answerAll (checkout : Checkout) : List Inquiry → List Answer × Checkout
  | [] => ([], checkout)
  | inquiry :: rest =>
    let (answer, after) := checkout.answer inquiry
    let (answers, last) := after.answerAll rest
    (answer :: answers, last)

variable {image : Image} {related : Checkout → Checkout → Prop} {first second : Checkout}

/-- Whatever a user does comes to the same on both sides of a relation that requests keep. -/
theorem Conducts.answer (conducts : Conducts image related) (here : related first second)
    (inquiry : Inquiry) :
    SameAnswer related (first.answer inquiry) (second.answer inquiry) := by
  cases inquiry with
  | entries =>
    have same := conducts.entries _ _ here
    unfold Checkout.answer
    match step : Checkout.entries first, step' : Checkout.entries second with
    | .ok table after, .ok table' after' =>
      rw [step, step'] at same
      obtain ⟨rfl, onward⟩ := same
      exact ⟨rfl, onward⟩
    | .error error after, .error error' after' =>
      rw [step, step'] at same
      obtain ⟨rfl, onward⟩ := same
      exact ⟨rfl, onward⟩
    | .ok _ _, .error _ _ | .error _ _, .ok _ _ =>
      rw [step, step'] at same
      cases same
  | request request =>
    obtain ⟨same, onward⟩ := conducts.serve here request
    exact ⟨congrArg Answer.reply same, onward⟩
  | standing =>
    simp only [Checkout.answer, conducts.size_eq here, conducts.position_eq here,
      conducts.stream_eq here]
    exact ⟨rfl, here⟩
  | drain =>
    obtain ⟨_, _, _, _, same, same', onward⟩ := conducts.congruent.drain here
    simp only [Checkout.answer, same, same']
    exact ⟨rfl, onward⟩
  | readUntil delimiter =>
    obtain ⟨_, _, _, same, same', onward⟩ := conducts.congruent.readUntil here delimiter
    simp only [Checkout.answer, same, same']
    exact ⟨rfl, onward⟩
  | readUpTo count =>
    obtain ⟨_, _, _, same, same', onward⟩ := conducts.congruent.readUpTo here count
    simp only [Checkout.answer, same, same']
    exact ⟨rfl, onward⟩

end Checkout

/-- An image with all its streams, one for each user. A user who has not come yet has a new one. -/
structure Company where
  image : Image
  shared : Shared := {}
  streams : Nat → Stream := fun _ => {}

namespace Company

def checkout (company : Company) (user : Nat) : Checkout where
  image := company.image
  shared := company.shared
  stream := company.streams user

/-- Do what one of the users wants. -/
def answer (company : Company) (user : Nat) (inquiry : Inquiry) : Answer × Company :=
  let (answer, after) := (company.checkout user).answer inquiry
  (answer, { company with
    shared := after.shared, streams := Function.update company.streams user after.stream })

/-- Do what the users want, in the order in which they come. -/
def answerAll (company : Company) : List (Nat × Inquiry) → List (Nat × Answer) × Company
  | [] => ([], company)
  | (user, inquiry) :: rest =>
    let (answer, after) := company.answer user inquiry
    let (answers, last) := after.answerAll rest
    ((user, answer) :: answers, last)

/-- The part of a list that belongs to one user, in order. -/
def ofUser (user : Nat) : List (Nat × α) → List α
  | [] => []
  | (other, item) :: rest => if other = user then item :: ofUser user rest else ofUser user rest

/-- What belongs together: all streams are streams of the image, and so is what they share. -/
structure Sound (image : Image) (flag : Bool) (company : Company) : Prop where
  same : company.image = image
  shares : image.Shares flag company.shared
  regular : ∀ user, (company.streams user).Regular

variable {image : Image} {flag : Bool} {company : Company} {alone : Checkout} {user other : Nat}

theorem Sound.self (sound : company.Sound image flag) (user : Nat) :
    Checkout.Alongside image flag (company.checkout user) (company.checkout user) := by
  obtain ⟨rfl, shares, regular⟩ := sound
  exact ⟨regular user, shares, shares⟩

theorem sound_start (image : Image) {signals : Signals} (held : signals.Held flag) :
    Sound image flag { image, shared := { signals } } := by
  refine ⟨rfl, ⟨held, ?_⟩, ?_⟩
  · intro table never
    cases never
  · intro user reader never
    cases never

theorem Sound.answer (sound : company.Sound image flag) (fixed : image.handler.Regular)
    (user : Nat) (inquiry : Inquiry) : (company.answer user inquiry).2.Sound image flag := by
  have onward := ((Checkout.conducts_alongside fixed).answer (sound.self user) inquiry).2
  obtain ⟨same, _, regular⟩ := sound
  unfold Company.answer
  dsimp only
  refine ⟨same, onward.shares, ?_⟩
  intro other
  by_cases here : other = user
  · subst here
    simpa using onward.regular
  · simpa [Function.update_of_ne here] using regular other

/-- What a user is told, and where it leads, is the same as alone. -/
theorem Sound.answer_own (sound : company.Sound image flag) (fixed : image.handler.Regular)
    (alongside : Checkout.Alongside image flag (company.checkout user) alone) (inquiry : Inquiry) :
    (company.answer user inquiry).1 = (alone.answer inquiry).1 ∧
      Checkout.Alongside image flag ((company.answer user inquiry).2.checkout user)
        (alone.answer inquiry).2 := by
  obtain ⟨told, onward⟩ := (Checkout.conducts_alongside fixed).answer alongside inquiry
  refine ⟨told, ?_⟩
  unfold Company.answer
  generalize (company.checkout user).answer inquiry = outcome at onward
  generalize alone.answer inquiry = outcome' at onward
  obtain ⟨answer, after⟩ := outcome
  obtain ⟨answer', after'⟩ := outcome'
  obtain ⟨still, shares, shares'⟩ := onward
  simp only [checkout, sound.same, Function.update_self]
  exact ⟨still, shares, shares'⟩

/-- What another user does leaves a stream where it is. -/
theorem Sound.answer_other (sound : company.Sound image flag) (fixed : image.handler.Regular)
    (alongside : Checkout.Alongside image flag (company.checkout user) alone)
    (apart : other ≠ user) (inquiry : Inquiry) :
    Checkout.Alongside image flag ((company.answer other inquiry).2.checkout user) alone := by
  have onward := (sound.answer fixed other inquiry).shares
  have stays : (company.answer other inquiry).2.streams user = company.streams user :=
    Function.update_of_ne apart.symm _ _
  have same : (company.answer other inquiry).2.image = image := sound.same
  obtain ⟨image', shared, streams⟩ := company
  obtain rfl : image' = image := sound.same
  unfold checkout at alongside ⊢
  rw [stays, same]
  obtain ⟨still, _, shares'⟩ := alongside
  exact ⟨still, onward, shares'⟩

/-- Whatever the others do in between, a user is told the same as alone and gets to the same place. -/
theorem Sound.answerAll (sound : company.Sound image flag) (fixed : image.handler.Regular)
    (alongside : Checkout.Alongside image flag (company.checkout user) alone)
    (script : List (Nat × Inquiry)) :
    (company.answerAll script).2.Sound image flag ∧
      ofUser user (company.answerAll script).1 = (alone.answerAll (ofUser user script)).1 ∧
      Checkout.Alongside image flag ((company.answerAll script).2.checkout user)
        (alone.answerAll (ofUser user script)).2 := by
  -- The stream alone takes a step when it is the turn of its user, and waits otherwise.
  induction script generalizing company alone with
  | nil => exact ⟨sound, rfl, alongside⟩
  | cons step rest ih =>
    obtain ⟨other, inquiry⟩ := step
    have next := sound.answer fixed other inquiry
    by_cases own : other = user
    · subst own
      obtain ⟨told, onward⟩ := sound.answer_own fixed alongside inquiry
      obtain ⟨finish, same, last⟩ := ih next onward
      simp only [Company.answerAll, ofUser, if_true, Checkout.answerAll, told, same]
      exact ⟨finish, trivial, last⟩
    · have onward := sound.answer_other fixed alongside own inquiry
      obtain ⟨finish, same, last⟩ := ih next onward
      simp only [Company.answerAll, ofUser, if_neg own]
      exact ⟨finish, same, last⟩

/-- At any time a user who asks for the directory is told what the image has, and that is kept. -/
theorem Sound.entries (sound : company.Sound image flag) (fixed : image.handler.Regular)
    (user : Nat) :
    (company.answer user .entries).1 = .table (image.listing flag) ∧
      (company.answer user .entries).2.shared.table = (image.listing flag).toOption := by
  obtain ⟨rfl, shares, _⟩ := sound
  obtain ⟨shared, listed, kept, _⟩ := shares.entries fixed
  simp only [Company.answer, Checkout.answer, Checkout.entries, checkout, listed]
  rw [← kept]
  cases company.image.listing flag with
  | ok table => exact ⟨rfl, rfl⟩
  | error error => exact ⟨rfl, rfl⟩

end Company

/-- The streams of an image do not interfere, whatever the container holds. As long as the flag keeps
its value, the answers that a user gets among any others, who come in any order, are the answers that
the same inquiries get on a fresh image, and the stream stands where it stands there. All users are
shown one directory: whoever asks at whatever time is told `directory`, which is kept from then on if
it is a table, and of which nothing is kept if it is a failure. -/
theorem streams_apart {url : String} {container : Container} {format : Option Format}
    {limits : Limits} {image : Image} (opened : Image.open url container format limits = .ok image)
    (flag : Bool) :
    ∃ directory, ∀ signals signals' : Signals, signals.Held flag → signals'.Held flag →
      ∀ (script : List (Nat × Inquiry)) (user : Nat),
        let together := Company.answerAll { image, shared := { signals } } script
        let alone := Checkout.answerAll { image, shared := { signals := signals' } }
          (Company.ofUser user script)
        Company.ofUser user together.1 = alone.1 ∧
          together.2.streams user = alone.2.stream ∧
          (together.2.answer user .entries).1 = .table directory ∧
          (together.2.answer user .entries).2.shared.table = directory.toOption ∧
          ∀ table, together.2.shared.table = some table → directory = .ok table := by
  have fixed := Image.regular_of_open opened
  refine ⟨image.listing flag, ?_⟩
  intro signals signals' held held' script user
  have start := Company.sound_start image held
  have alongside : Checkout.Alongside image flag
      (Company.checkout { image, shared := { signals } } user)
      { image, shared := { signals := signals' } } :=
    ⟨start.regular user, start.shares, (Company.sound_start image held').shares⟩
  obtain ⟨sound, told, last⟩ := start.answerAll fixed alongside script
  obtain ⟨listed, kept⟩ := sound.entries fixed user
  exact ⟨told, last.stream, listed, kept, sound.shares.known⟩

/-- Two users of a tape, one of whom drains the container while the other reads the file in it. -/
theorem streams_apart_of_tape :
    ∃ image directory, Image.open "tape" Tape.ofOneFile none {} = .ok image ∧
      Signals.quiet.Held false ∧ (Signals.quiet.hold false).Held false ∧
      let together := Company.answerAll { image } [(0, .request (.seekIndex 1)), (1, .drain),
        (0, .request (.read 2)), (1, .request (.seekEntry "*")), (0, .drain)]
      let alone := Checkout.answerAll { image, shared := { signals := Signals.quiet.hold false } }
        [.request (.seekIndex 1), .request (.read 2), .drain]
      Company.ofUser 0 together.1 = alone.1 ∧ together.2.streams 0 = alone.2.stream ∧
        (together.2.answer 1 .entries).1 = .table directory := by
  obtain ⟨image, opened⟩ : ∃ image, Image.open "tape" Tape.ofOneFile none {} = .ok image := ⟨_, rfl⟩
  have quiet : Signals.quiet.Held false := fun _ _ => rfl
  have held := Signals.held_hold .quiet false
  obtain ⟨directory, law⟩ := streams_apart opened false
  have first := law .quiet (.hold .quiet false) quiet held [(0, .request (.seekIndex 1)), (1, .drain),
    (0, .request (.read 2)), (1, .request (.seekEntry "*")), (0, .drain)] 0
  have second := law .quiet (.hold .quiet false) quiet held [(0, .request (.seekIndex 1)), (1, .drain),
    (0, .request (.read 2)), (1, .request (.seekEntry "*")), (0, .drain)] 1
  exact ⟨image, directory, opened, quiet, held, first.1, first.2.1, second.2.2.1⟩

end RetroMedia
