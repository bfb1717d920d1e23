import RetroMedia.Proofs.Disk.Damage

/-! Listings with a journal. A listing goes on where the walk along a file was cancelled, and lists the
file with the size that its slot stores. A journal that is kept beside the listing notes where this
happened last. -/
namespace RetroMedia.Disk

/-- A counter, and the signals behind the last walk along a file that was cancelled. -/
structure Journal where
  progress : Progress
  absorbed : Option Signals := none

/-- A traversal that keeps a journal. -/
abbrev Noted := EStateM MediaError Journal

namespace Noted

variable {α β : Type}

/-- A traversal that has nothing to note. -/
def lift (walk : Walk α) : Noted α := fun journal =>
  match walk journal.progress with
  | .ok value after => .ok value { journal with progress := after }
  | .error error after => .error error { journal with progress := after }

/-- The outcome without the note. -/
def erase : EStateM.Result MediaError Journal α → EStateM.Result MediaError Progress α
  | .ok value journal => .ok value journal.progress
  | .error error journal => .error error journal.progress

/-- To keep the journal makes no difference to the traversal. -/
def Erases (noted : Noted α) (walk : Walk α) : Prop :=
  ∀ journal, erase (noted journal) = walk journal.progress

theorem erases_lift (walk : Walk α) : Erases (lift walk) walk := by
  intro journal
  unfold lift
  cases walk journal.progress <;> rfl

theorem erases_pure (value : α) : Erases (pure value) (pure value) := by
  intro journal
  rfl

theorem Erases.bind {noted : Noted α} {walk : Walk α} {next : α → Noted β} {next' : α → Walk β}
    (first : Erases noted walk) (rest : ∀ value, Erases (next value) (next' value)) :
    Erases (noted >>= next) (walk >>= next') := by
  intro journal
  have early := first journal
  change erase (EStateM.bind noted next journal) = EStateM.bind walk next' journal.progress
  unfold EStateM.bind
  match step : noted journal with
  | .ok value after =>
    rw [step] at early
    rw [← early]
    exact rest value after
  | .error error after =>
    rw [step] at early
    rw [← early]
    rfl

end Noted

namespace Volume

/-- The entry of a directory slot. That the walk along its chain was cancelled is noted. -/
def noteSlot (volume : Volume) (index : Nat) (slot : Bytes) : Noted Entry := fun journal =>
  match volume.surveySlot index slot journal.progress with
  | .ok (entry, .error .cancelled) after => .ok entry ⟨after, some after.signals⟩
  | .ok (entry, _) after => .ok entry { journal with progress := after }
  | .error error after => .error error { journal with progress := after }

def noteSlots (volume : Volume) : Nat → List Bytes → Noted (List Entry)
  | _, [] => return []
  | index, slot :: rest =>
    if isFreeSlot slot then volume.noteSlots index rest
    else do
      Noted.lift Progress.tick
      let entry ← volume.noteSlot index slot
      let more ← volume.noteSlots (index + 1) rest
      return entry :: more

def noteSectors (volume : Volume) (walk : ChainWalk) (index : Nat) : Noted (List Entry) :=
  fun journal =>
    let on (signals : Signals) : Journal :=
      { journal with progress := { journal.progress with signals } }
    match _step : walk.advance journal.progress.signals with
    | (none, _, signals) => .ok [] (on signals)
    | (some (.error error), _, signals) => .error error (on signals)
    | (some (.ok sector), after, signals) =>
      (do
        let here ← volume.noteSlots index (sector.data.records slotSize)
        let more ← volume.noteSectors after (index + here.length)
        return here ++ more : Noted (List Entry)) (on signals)
termination_by walk.remaining
decreasing_by exact ChainWalk.remaining_lt_of_advance _step

/-- The directory, in order, with a journal of the walks along its files. -/
def noteEntries (volume : Volume) (progress : Progress) :
    EStateM.Result MediaError Journal (List Entry) :=
  volume.noteSectors (ChainWalk.start volume.source volume.firstDirectory progress.limits) 1
    { progress }

theorem readSlot_of_walked {volume : Volume} {slot : Bytes} {progress : Progress}
    {walked : Except MediaError Nat} {signals : Signals}
    (found : chainSize volume.source (Location.ofBytes (slot.drop 0x03)) progress.limits
      progress.signals = (walked, signals)) (index : Nat) :
    volume.readSlot index slot progress
      = .ok (walkedEntry index slot walked) { progress with signals } := by
  rw [← map_surveySlot, Walk.run_map, surveySlot_of_walked found]

theorem noteSlot_of_cancelled {volume : Volume} {slot : Bytes} {journal : Journal} {signals : Signals}
    (found : chainSize volume.source (Location.ofBytes (slot.drop 0x03)) journal.progress.limits
      journal.progress.signals = (.error .cancelled, signals)) (index : Nat) :
    volume.noteSlot index slot journal
      = .ok (slotEntry index slot) ⟨{ journal.progress with signals }, some signals⟩ := by
  rw [noteSlot, surveySlot_of_walked found]
  rfl

theorem noteSlot_of_walked {volume : Volume} {slot : Bytes} {journal : Journal}
    {walked : Except MediaError Nat} {signals : Signals}
    (found : chainSize volume.source (Location.ofBytes (slot.drop 0x03)) journal.progress.limits
      journal.progress.signals = (walked, signals))
    (own : walked ≠ .error .cancelled) (index : Nat) :
    volume.noteSlot index slot journal
      = .ok (walkedEntry index slot walked)
          { journal with progress := { journal.progress with signals } } := by
  rw [noteSlot, surveySlot_of_walked found]
  split <;> rename_i same <;> cases same
  · exact absurd rfl own
  · rfl

theorem erases_noteSlot (volume : Volume) (index : Nat) (slot : Bytes) :
    Noted.Erases (volume.noteSlot index slot) (volume.readSlot index slot) := by
  intro journal
  rw [← map_surveySlot, Walk.run_map, noteSlot]
  split <;> rename_i step <;> rw [step] <;> rfl

theorem erases_noteSlots (volume : Volume) (index : Nat) (slots : List Bytes) :
    Noted.Erases (volume.noteSlots index slots) (volume.listSlots index slots) := by
  induction slots generalizing index with
  | nil => exact Noted.erases_pure []
  | cons slot rest ih =>
    unfold noteSlots listSlots
    by_cases free : isFreeSlot slot = true
    · rw [if_pos free, if_pos free]
      exact ih index
    · rw [if_neg free, if_neg free]
      exact (Noted.erases_lift _).bind fun _ => (volume.erases_noteSlot index slot).bind fun entry =>
        (ih (index + 1)).bind fun more => Noted.erases_pure (entry :: more)

theorem noteSectors_eq (volume : Volume) (walk : ChainWalk) (index : Nat) (journal : Journal) :
    volume.noteSectors walk index journal = match walk.advance journal.progress.signals with
      | (none, _, signals) => .ok [] { journal with progress := { journal.progress with signals } }
      | (some (.error error), _, signals) =>
        .error error { journal with progress := { journal.progress with signals } }
      | (some (.ok sector), after, signals) =>
        (do
          let here ← volume.noteSlots index (sector.data.records slotSize)
          let more ← volume.noteSectors after (index + here.length)
          return here ++ more : Noted (List Entry))
            { journal with progress := { journal.progress with signals } } := by
  rw [noteSectors]
  split <;> rename_i step <;> rw [step]

theorem erases_noteSectors (volume : Volume) (walk : ChainWalk) (index : Nat) :
    Noted.Erases (volume.noteSectors walk index) (volume.listSectors walk index) := by
  induction left : walk.remaining using Nat.strongRecOn generalizing walk index with
  | ind left ih =>
    intro journal
    rw [noteSectors_eq, listSectors_eq]
    match step : walk.advance journal.progress.signals with
    | (none, after, signals) => rfl
    | (some (.error error), after, signals) => rfl
    | (some (.ok sector), after, signals) =>
      have nearer := ChainWalk.remaining_lt_of_advance step
      exact ((volume.erases_noteSlots index _).bind fun here =>
        (ih _ (left ▸ nearer) after _ rfl).bind fun more => Noted.erases_pure (here ++ more)) _

/-- Without the journal the directory is listed as it is. -/
theorem erase_noteEntries (volume : Volume) (progress : Progress) :
    Noted.erase (volume.noteEntries progress) = volume.entries progress :=
  volume.erases_noteSectors _ 1 { progress }

end Volume
end RetroMedia.Disk
