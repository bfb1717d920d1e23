import RetroMedia.Proofs.Image.Request
import RetroMedia.Proofs.Progress.Lockstep
import RetroMedia.Proofs.Stream.Congruence

/-! Streams of one image under a relation. What an operation on a stream consists of is few steps: to
get the directory, to choose what is read, to move, to read. A relation that these steps keep, with the
same answers on both sides, is kept by every request. -/
namespace RetroMedia.Checkout

variable {image : Image} {related : Checkout → Checkout → Prop} {first second : Checkout}

/-- The same is answered, in states that are related. -/
def SameAnswer (related : Checkout → Checkout → Prop) {α : Type} (outcome outcome' : α × Checkout) :
    Prop :=
  outcome.1 = outcome'.1 ∧ related outcome.2 outcome'.2

/-- A relation between streams of an image that is kept by each step that requests are made of. -/
structure Conducts (image : Image) (related : Checkout → Checkout → Prop) : Prop where
  image_eq : ∀ {first second}, related first second → first.image = image ∧ second.image = image
  stream_eq : ∀ {first second}, related first second → first.stream = second.stream
  entries : Lockstep related entries entries
  choose : ∀ selected : Option Entry,
    Lockstep related (modifyStream ({ · with selected, reader := none, entryPosition := 0 }))
      (modifyStream ({ · with selected, reader := none, entryPosition := 0 }))
  walk : ∀ cursor : Stream → Nat,
    Lockstep related (modifyStream fun stream => { stream with cursor := cursor stream })
      (modifyStream fun stream => { stream with cursor := cursor stream })
  move : ∀ position ≤ image.container.size,
    Lockstep related (modifyStream ({ · with position })) (modifyStream ({ · with position }))
  chainSize : ∀ location, Lockstep related (chainSize location) (chainSize location)
  seek : ∀ {first second}, related first second →
    ∀ target, SameAnswer related (first.seek target) (second.seek target)
  read : ∀ {first second}, related first second →
    ∀ count, SameAnswer related (first.read count) (second.read count)

namespace Conducts

theorem position_eq (conducts : Conducts image related) (here : related first second) :
    first.position = second.position := by
  unfold position
  rw [conducts.stream_eq here]

theorem size_eq (conducts : Conducts image related) (here : related first second) :
    first.size = second.size := by
  obtain ⟨same, same'⟩ := conducts.image_eq here
  unfold size
  rw [conducts.stream_eq here, same, same']

theorem select (conducts : Conducts image related) (entry : Entry) :
    Lockstep related (select entry >>= fun _ => pure entry) (select entry >>= fun _ => pure entry) :=
  (conducts.choose (some entry)).bind fun _ => lockstep_pure entry

theorem clearEntry (conducts : Conducts image related) : Lockstep related clearEntry clearEntry :=
  conducts.choose none

theorem rewind (conducts : Conducts image related) : Lockstep related rewind rewind :=
  conducts.walk fun _ => 0

theorem seekEntry (conducts : Conducts image related) (pattern : String) :
    Lockstep related (seekEntry pattern) (seekEntry pattern) := by
  unfold Checkout.seekEntry
  apply conducts.entries.bind
  intro table
  apply lockstep_get
  intro state state' here
  obtain ⟨same, same'⟩ := conducts.image_eq here
  rw [same, same']
  dsimp only
  split
  · exact conducts.select _
  · exact lockstep_throw _

theorem seekIndex (conducts : Conducts image related) (index : Nat) :
    Lockstep related (seekIndex index) (seekIndex index) := by
  unfold Checkout.seekIndex
  cases index with
  | zero => exact lockstep_throw _
  | succ before =>
    apply conducts.entries.bind
    intro table
    split
    · exact conducts.select _
    · exact lockstep_throw _

theorem seekPath (conducts : Conducts image related) (path : String) :
    Lockstep related (seekPath path) (seekPath path) := by
  unfold Checkout.seekPath
  split
  · exact lockstep_throw _
  · exact conducts.seekEntry _
  · apply (conducts.seekEntry _).bind
    intro entry
    apply conducts.clearEntry.bind
    intro _
    split
    · exact lockstep_throw _
    · split
      · exact lockstep_throw _
      · exact lockstep_throw _

theorem nextEntry (conducts : Conducts image related) : Lockstep related nextEntry nextEntry := by
  unfold Checkout.nextEntry
  apply conducts.entries.bind
  intro table
  apply lockstep_get
  intro state state' here
  rw [conducts.stream_eq here]
  split
  · exact (conducts.walk (·.cursor + 1)).bind fun _ => lockstep_pure _
  · exact (conducts.walk fun _ => 0).bind fun _ => lockstep_pure _

theorem seekData (conducts : Conducts image related) (offset : Nat) :
    Lockstep related (seekData offset) (seekData offset) := by
  -- What follows the check of the target stands behind either branch of it.
  have goTo (target : Nat) : Lockstep related
      (Checkout.clearEntry >>= fun _ =>
        modifyStream ({ · with position := min target image.container.size }) >>= fun _ =>
          pure (min target image.container.size))
      (Checkout.clearEntry >>= fun _ =>
        modifyStream ({ · with position := min target image.container.size }) >>= fun _ =>
          pure (min target image.container.size)) :=
    conducts.clearEntry.bind fun _ =>
      (conducts.move _ (Nat.min_le_right ..)).bind fun _ => lockstep_pure _
  unfold Checkout.seekData
  apply lockstep_get
  intro state state' here
  obtain ⟨same, same'⟩ := conducts.image_eq here
  rw [same, same']
  dsimp only
  split
  · exact (lockstep_throw _).bind fun _ => goTo _
  · exact goTo _

theorem congruent (conducts : Conducts image related) : ByteSource.Congruent related := by
  intro first second count here
  obtain ⟨same, onward⟩ := conducts.read here count
  exact ⟨(first.read count).1, (first.read count).2, (second.read count).2, rfl,
    Prod.ext same.symm rfl, onward⟩

end Conducts

theorem sameAnswer_of_lockstep {α : Type} {action : Action α}
    (together : Lockstep related action action) (here : related first second) (reply : α → Reply) :
    SameAnswer related (answered reply (action first)) (answered reply (action second)) := by
  have same := together first second here
  match step : action first, step' : action second with
  | .ok value after, .ok value' after' =>
    rw [step, step'] at same
    obtain ⟨rfl, onward⟩ := same
    exact ⟨rfl, onward⟩
  | .error error after, .error error' after' =>
    rw [step, step'] at same
    obtain ⟨rfl, onward⟩ := same
    exact ⟨rfl, onward⟩
  | .ok _ _, .error _ _ | .error _ _, .ok _ _ =>
    rw [step, step'] at same
    cases same

/-- A request is answered the same on both sides. -/
theorem Conducts.serve (conducts : Conducts image related) (here : related first second)
    (request : Request) : SameAnswer related (first.serve request) (second.serve request) := by
  cases request with
  | seekEntry pattern => exact sameAnswer_of_lockstep (conducts.seekEntry pattern) here _
  | seekIndex index => exact sameAnswer_of_lockstep (conducts.seekIndex index) here _
  | seekPath path => exact sameAnswer_of_lockstep (conducts.seekPath path) here _
  | clearEntry => exact sameAnswer_of_lockstep conducts.clearEntry here _
  | nextEntry => exact sameAnswer_of_lockstep conducts.nextEntry here _
  | rewind => exact sameAnswer_of_lockstep conducts.rewind here _
  | seekData offset => exact sameAnswer_of_lockstep (conducts.seekData offset) here _
  | chainSize location => exact sameAnswer_of_lockstep (conducts.chainSize location) here _
  | seek target =>
    obtain ⟨same, onward⟩ := conducts.seek here target
    exact ⟨congrArg (·.map Reply.position) same, onward⟩
  | read count =>
    obtain ⟨same, onward⟩ := conducts.read here count
    exact ⟨congrArg (·.map Reply.bytes) same, onward⟩

end RetroMedia.Checkout
