import RetroMedia.Proofs.Image.Refinement
import RetroMedia.Proofs.Image.Seeking

/-! Streams that no cancellation ever meets. As long as the flag that they share stays clear, they are
in step in each entry that can be read as far as its size says. -/
namespace RetroMedia

namespace Image

/-- No listing of the directory sets the flag. -/
theorem calm_of_entries {image : Image} (honest : image.handler.Honest) {shared : Shared}
    (calm : shared.signals.Calm) : (image.entries shared).2.signals.Calm := by
  obtain ⟨table, signals⟩ := shared
  cases table with
  | some table => exact calm
  | none =>
    obtain ⟨result, later, _, still, _, listed, _⟩ :=
      entries_agree (Handler.entries_agrees honest) rfl calm calm
    rw [listed]
    exact still

end Image

namespace Checkout

variable {image : Image} {entry : Entry} {checkout : Checkout}

/-- Skipping forward on a clear flag keeps a stream abreast that skips no further than to the end of an
entry that can be read that far. -/
theorem Paced.skipTo_calm (paced : checkout.Paced entry) (calm : checkout.shared.signals.Calm)
    {target : Nat} (forward : checkout.stream.entryPosition ≤ target) :
    (checkout.skipTo entry target).2.shared.signals.Calm ∧
      (checkout.Abreast entry → target ≤ (checkout.image.bytesOf entry).length →
        (checkout.skipTo entry target).2.Abreast entry) := by
  unfold Checkout.skipTo
  dsimp only
  by_cases idle : target - checkout.stream.entryPosition = 0
  · have here : checkout.stream.entryPosition = target := by omega
    subst here
    rw [if_pos idle]
    exact ⟨calm, fun abreast _ => abreast⟩
  · rw [if_neg idle]
    unfold Paced at paced
    cases opened : checkout.readerOf entry with
    | error error => exact ⟨calm, fun abreast _ => abreast⟩
    | ok reader =>
      rw [opened] at paced
      obtain ⟨honest, sound, _⟩ := paced
      obtain ⟨bytes, failure, last, signals, step, follows, _, _, law⟩ :=
        Reader.gather_disturbed honest sound (target - checkout.stream.entryPosition)
          checkout.shared.signals
      dsimp only
      rw [step]
      have still := calm.follows follows
      have abreast (before : checkout.Abreast entry)
          (inside : target ≤ (checkout.image.bytesOf entry).length) :
          failure = none ∧
            last.outlook .quiet = (checkout.image.outlookOf entry).drop target := by
        obtain ⟨_, same, here⟩ := before.resolve_left (by omega)
        cases opened.symm.trans same
        rcases law with ⟨_, _, quiet, rest⟩ | ⟨_, short, _⟩ | ⟨hit, _⟩
        · refine ⟨quiet, ?_⟩
          rw [rest, here]
          simp only [Outlook.drop, List.drop_drop, Nat.add_sub_cancel' forward]
        · rw [here, Outlook.drop, List.length_drop] at short
          rw [Image.bytesOf_eq, List.length_take] at inside
          omega
        · exact absurd hit calm.not_interrupted
      cases failure with
      | none => exact ⟨still, fun before inside => .inr ⟨last, rfl, (abreast before inside).2⟩⟩
      | some error => exact ⟨still, fun before inside => by cases (abreast before inside).1⟩

/-- To go back, a stream begins again with a new reader. -/
theorem Paced.seekInEntry_calm (paced : checkout.Paced entry)
    (regular : checkout.image.handler.Regular) (calm : checkout.shared.signals.Calm) (target : Nat) :
    (checkout.seekInEntry entry target).2.shared.signals.Calm ∧
      (checkout.Abreast entry → target ≤ (checkout.image.bytesOf entry).length →
        (checkout.seekInEntry entry target).2.Abreast entry) := by
  unfold seekInEntry
  by_cases back : target < checkout.stream.entryPosition
  · rw [if_pos back]
    let reopened : Checkout :=
      { checkout with stream := { checkout.stream with reader := none, entryPosition := 0 } }
    obtain ⟨pace, start⟩ := paced_start reopened regular rfl rfl entry
    obtain ⟨still, abreast⟩ := pace.skipTo_calm calm (Nat.zero_le target)
    exact ⟨still, fun _ => abreast start⟩
  · rw [if_neg back]
    exact paced.skipTo_calm calm (Nat.le_of_not_lt back)

theorem Paced.read_calm (paced : checkout.Paced entry) (calm : checkout.shared.signals.Calm)
    (chosen : checkout.stream.selected = some entry) (count : Nat) :
    (checkout.read count).2.shared.signals.Calm ∧
      (checkout.Abreast entry → (checkout.read count).2.Abreast entry) := by
  rw [Checkout.read, chosen]
  dsimp only
  unfold readEntry
  dsimp only
  by_cases idle : min count checkout.available = 0
  · rw [if_pos idle]
    exact ⟨calm, id⟩
  · rw [if_neg idle]
    unfold Paced at paced
    cases opened : checkout.readerOf entry with
    | error error => exact ⟨calm, id⟩
    | ok reader =>
      rw [opened] at paced
      obtain ⟨honest, sound, _⟩ := paced
      obtain ⟨result, after, signals, step, follows, _, _, law⟩ :=
        Reader.read_disturbed honest sound (Nat.pos_of_ne_zero idle) checkout.shared.signals
      have still := calm.follows follows
      obtain ⟨_, law⟩ := law.resolve_right fun disturbed => calm.not_interrupted disturbed.1
      dsimp only
      rw [step]
      cases result with
      | error error =>
        refine ⟨still, fun before => .inl ?_⟩
        exact (abreast_iff_of_spent opened (congrArg Outlook.bytes law.1)).1 before
      | ok piece =>
        refine ⟨still, ?_⟩
        rintro (ended | ⟨_, same, here⟩)
        · exact .inl (Nat.le_trans ended (Nat.le_add_right _ _))
        · cases opened.symm.trans same
          exact .inr ⟨after, rfl, Outlook.eq_drop_of_behind (here.symm.trans law.1)⟩

/-- A stream of the image on a clear flag, which is abreast wherever the entry can be read as far as its
size says. -/
structure Unhindered (image : Image) (checkout : Checkout) : Prop where
  standing : checkout.Standing image
  calm : checkout.shared.signals.Calm
  abreast : ∀ entry, checkout.stream.selected = some entry →
    (image.bytesOf entry).length = entry.size → checkout.Abreast entry

theorem Unhindered.share (unhindered : checkout.Unhindered image) {shared : Shared}
    (calm : shared.signals.Calm) : Unhindered image { checkout with shared } :=
  ⟨⟨unhindered.standing.here, unhindered.standing.paced⟩, calm, unhindered.abreast⟩

theorem Unhindered.read (unhindered : checkout.Unhindered image) (regular : image.handler.Regular)
    (count : Nat) : (checkout.read count).2.Unhindered image := by
  have standing := (invariant_standing regular).read unhindered.standing count
  obtain ⟨_, _, selected⟩ := checkout.read_sameChoice count
  cases chosen : checkout.stream.selected with
  | none =>
    rw [chosen] at selected
    refine ⟨standing, ?_, fun entry never => by cases selected.symm.trans never⟩
    rw [Checkout.read, chosen]
    exact unhindered.calm
  | some entry =>
    rw [chosen] at selected
    obtain ⟨calm, still⟩ :=
      (unhindered.standing.paced entry chosen).read_calm unhindered.calm chosen count
    refine ⟨standing, calm, fun other same complete => ?_⟩
    cases selected.symm.trans same
    exact still (unhindered.abreast entry chosen complete)

theorem Unhindered.seek (unhindered : checkout.Unhindered image) (regular : image.handler.Regular)
    (target : Seek) : (checkout.seek target).2.Unhindered image := by
  have standing := (invariant_standing regular).seek unhindered.standing target
  obtain ⟨_, _, selected⟩ := checkout.seek_sameChoice target
  suffices outcome : (checkout.seek target).2.shared.signals.Calm ∧
      ∀ entry, checkout.stream.selected = some entry → (image.bytesOf entry).length = entry.size →
        (checkout.seek target).2.Abreast entry from
    ⟨standing, outcome.1, fun entry same => outcome.2 entry (selected ▸ same)⟩
  unfold Checkout.seek
  cases resolved : target.resolve checkout.position checkout.size with
  | error error => exact ⟨unhindered.calm, unhindered.abreast⟩
  | ok goal =>
    have fits := Seek.resolve_le resolved
    dsimp only
    cases chosen : checkout.stream.selected with
    | none => exact ⟨unhindered.calm, fun _ never => by cases never⟩
    | some entry =>
      have size : checkout.size = entry.size := by rw [size, chosen]
      obtain ⟨calm, still⟩ := (unhindered.standing.paced entry chosen).seekInEntry_calm
        (unhindered.standing.here ▸ regular) unhindered.calm goal
      have complete (full : (image.bytesOf entry).length = entry.size) :
          (checkout.seekInEntry entry goal).2.Abreast entry := by
        refine still (unhindered.abreast entry chosen full) ?_
        rw [unhindered.standing.here, full, ← size]
        exact fits
      suffices outcome : (checkout.seekInEntry entry goal).2.shared.signals.Calm ∧
          ∀ other, some entry = some other → (image.bytesOf other).length = other.size →
            (checkout.seekInEntry entry goal).2.Abreast other by
        dsimp only
        rcases sought : checkout.seekInEntry entry goal with ⟨_ | _, after⟩ <;>
          rw [sought] at outcome <;> exact outcome
      refine ⟨calm, fun other same full => ?_⟩
      cases same
      exact complete full

/-- Nothing that is done with such a stream hinders it. -/
theorem conducts_unhindered (regular : image.handler.Regular) :
    Conducts image fun first second => first = second ∧ first.Unhindered image where
  image_eq := by
    rintro _ _ ⟨rfl, unhindered⟩
    exact ⟨unhindered.standing.here, unhindered.standing.here⟩
  stream_eq := by
    rintro _ _ ⟨rfl, _⟩
    rfl
  entries := by
    apply lockstep_self
    intro checkout unhindered
    have calm := Image.calm_of_entries regular.honest unhindered.calm
    rw [← unhindered.standing.here] at calm
    unfold entries
    split <;> rename_i listed <;> split at listed <;> rename_i same <;> rw [same] at calm <;>
      cases listed <;> exact unhindered.share calm
  choose selected := by
    apply lockstep_self
    intro checkout unhindered
    have standing := (invariant_standing regular).choose unhindered.standing selected
    refine ⟨standing, unhindered.calm, fun entry _ _ => ?_⟩
    exact (paced_start _ (standing.here ▸ regular) rfl rfl entry).2
  walk cursor := by
    apply lockstep_self
    intro checkout unhindered
    exact ⟨(invariant_standing regular).walk unhindered.standing _, unhindered.calm,
      unhindered.abreast⟩
  move position fits := by
    apply lockstep_self
    intro checkout unhindered
    exact ⟨(invariant_standing regular).move unhindered.standing position fits, unhindered.calm,
      unhindered.abreast⟩
  chainSize location := by
    apply lockstep_self
    intro checkout unhindered
    obtain ⟨signals, calm, same⟩ :=
      regular.honest.chainSize_of_calm location checkout.image.limits unhindered.calm
    rw [← unhindered.standing.here] at same
    unfold Checkout.chainSize
    rw [same]
    cases (checkout.image.handler.chainSize location checkout.image.limits .quiet).1 <;>
      exact unhindered.share calm
  seek := by
    rintro checkout _ ⟨rfl, unhindered⟩ target
    exact ⟨rfl, rfl, unhindered.seek regular target⟩
  read := by
    rintro checkout _ ⟨rfl, unhindered⟩ count
    exact ⟨rfl, rfl, unhindered.read regular count⟩

/-- Nothing that happens to the stream sets the flag. -/
def Event.Calm : Event → Prop
  | .inquiry _ => True
  | .shared other => other.signals.Calm

/-- As long as the flag stays clear, nothing hinders a stream. -/
theorem unhindered_meetAll (regular : image.handler.Regular) {shared : Shared}
    (calm : shared.signals.Calm) (events : List Event) (clear : ∀ event ∈ events, event.Calm) :
    (meetAll { image, shared } events).Unhindered image := by
  have start : Unhindered image { image, shared } :=
    ⟨⟨rfl, fun _ never => by cases never⟩, calm, fun _ never => by cases never⟩
  generalize ({ image, shared } : Checkout) = checkout at start
  induction events generalizing checkout with
  | nil => exact start
  | cons event events ih =>
    refine ih (fun later member => clear later (List.mem_cons_of_mem _ member)) _ ?_
    have here := clear event List.mem_cons_self
    cases event with
    | inquiry inquiry => exact ((conducts_unhindered regular).answer ⟨rfl, start⟩ inquiry).2.2
    | shared shared => exact start.share here

end Checkout
end RetroMedia
