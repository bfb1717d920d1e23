import Mathlib.Data.List.Forall2
import RetroMedia.Proofs.Disk.Journal

/-! Cancellations that are absorbed. From the journal of a listing it can be told whether a reading of the
flag has ended the listing after a walk along a file was cancelled, or whether the cancellation is lost.
The listing is compared with one that is not cancelled: the two go the same way, but for the sizes of
files whose walks were cancelled, until the first one ends. -/
namespace RetroMedia.Disk

namespace Journal

variable {start : Signals} {journal : Journal}

/-- The journal tells whether a reading since the start found the flag set, and no reading since the
note did. -/
def Faithful (journal : Journal) (start : Signals) : Prop :=
  start.Follows journal.progress.signals ∧
    match journal.absorbed with
    | none => ¬ start.Interrupted journal.progress.signals
    | some behind =>
      start.Interrupted journal.progress.signals ∧ behind.Follows journal.progress.signals ∧
        ¬ behind.Interrupted journal.progress.signals

/-- A reading that is no part of a walk along a file found the flag set. -/
def Stopped (journal : Journal) (start : Signals) : Prop :=
  start.Follows journal.progress.signals ∧ start.Interrupted journal.progress.signals ∧
    ∀ behind, journal.absorbed = some behind → behind.Interrupted journal.progress.signals

/-- A walk along a file was cancelled, and no reading since then found the flag set. -/
def Lost (journal : Journal) : Prop :=
  ∃ behind, journal.absorbed = some behind ∧ ¬ behind.Interrupted journal.progress.signals

theorem faithful_start (progress : Progress) : Faithful { progress } progress.signals :=
  ⟨.refl _, progress.signals.not_interrupted_self⟩

/-- Readings that do not find the flag set leave a faithful journal as it is. -/
theorem Faithful.on (faithful : journal.Faithful start) {progress : Progress}
    (follows : journal.progress.signals.Follows progress.signals)
    (clear : ¬ journal.progress.signals.Interrupted progress.signals) :
    Faithful { journal with progress } start := by
  obtain ⟨before, law⟩ := faithful
  refine ⟨before.trans follows, ?_⟩
  cases noted : journal.absorbed with
  | none =>
    rw [noted] at law
    exact Signals.not_interrupted_trans before follows law clear
  | some behind =>
    rw [noted] at law
    obtain ⟨disturbed, since, quiet⟩ := law
    exact ⟨(Signals.interrupted_iff before follows).2 (.inl disturbed), since.trans follows,
      Signals.not_interrupted_trans since follows quiet clear⟩

/-- A reading that finds the flag set ends the listing, unless it is part of a walk along a file. -/
theorem Faithful.stop (faithful : journal.Faithful start) {progress : Progress}
    (follows : journal.progress.signals.Follows progress.signals)
    (stopped : journal.progress.signals.Interrupted progress.signals) :
    Stopped { journal with progress } start := by
  obtain ⟨before, law⟩ := faithful
  refine ⟨before.trans follows, (Signals.interrupted_iff before follows).2 (.inr stopped), ?_⟩
  intro behind (noted : journal.absorbed = some behind)
  rw [noted] at law
  exact (Signals.interrupted_iff law.2.1 follows).2 (.inr stopped)

/-- The journal stays faithful where a walk along a file was cancelled and is noted. -/
theorem Faithful.absorb (faithful : journal.Faithful start) {progress : Progress}
    (follows : journal.progress.signals.Follows progress.signals)
    (stopped : journal.progress.signals.Interrupted progress.signals) :
    Faithful ⟨progress, some progress.signals⟩ start :=
  ⟨faithful.1.trans follows, (Signals.interrupted_iff faithful.1 follows).2 (.inr stopped), .refl _,
    progress.signals.not_interrupted_self⟩

theorem Faithful.lost_iff (faithful : journal.Faithful start) :
    journal.Lost ↔ start.Interrupted journal.progress.signals := by
  obtain ⟨_, law⟩ := faithful
  unfold Lost
  cases noted : journal.absorbed with
  | none =>
    rw [noted] at law
    simpa using law
  | some behind =>
    rw [noted] at law
    obtain ⟨disturbed, _, quiet⟩ := law
    exact ⟨fun _ => disturbed, fun _ => ⟨behind, rfl, quiet⟩⟩

theorem Faithful.absorbed_eq_none (faithful : journal.Faithful start)
    (clear : ¬ start.Interrupted journal.progress.signals) : journal.absorbed = none := by
  obtain ⟨_, law⟩ := faithful
  cases noted : journal.absorbed with
  | none => rfl
  | some behind =>
    rw [noted] at law
    exact absurd law.1 clear

theorem Stopped.not_lost (stopped : journal.Stopped start) : ¬ journal.Lost := by
  rintro ⟨behind, noted, quiet⟩
  exact quiet (stopped.2.2 behind noted)

/-- A journal and the counter of a listing that is not cancelled, both at the same place. -/
structure Beside (journal : Journal) (progress : Progress) : Prop where
  limits : journal.progress.limits = progress.limits
  count : journal.progress.count = progress.count
  bound : journal.progress.bound = progress.bound
  calm : progress.signals.Calm

end Journal

/-- The entry is as it should be, or it is what its slot says of it, and only the size is different. -/
def Estimated (entry entry' : Entry) : Prop :=
  entry = entry' ∨
    ∃ index slot, entry = Volume.slotEntry index slot ∧ entry' = { entry with size := entry'.size }

/-- Entries that were listed beside those of a listing that is not cancelled. -/
def Resembles (journal : Journal) (entries entries' : List Entry) : Prop :=
  (journal.absorbed = none → entries = entries') ∧ List.Forall₂ Estimated entries entries'

namespace Noted

variable {α β : Type} {start : Signals} {before : Journal}

/-- What a traversal with a journal comes to, beside one that is not cancelled: it was cancelled, or it
comes to the same failure, or to a value that is `same`. -/
def Beside (start : Signals) (before : Journal) (same : Journal → α → α → Prop)
    (noted : EStateM.Result MediaError Journal α) (plain : EStateM.Result MediaError Progress α) :
    Prop :=
  (∃ journal, noted = .error .cancelled journal ∧ journal.Stopped start) ∨
    match noted, plain with
    | .ok value journal, .ok value' progress =>
      journal.Faithful start ∧ journal.Beside progress ∧
        (journal.absorbed = none → before.absorbed = none) ∧ same journal value value'
    | .error error journal, .error error' _ =>
      error = error' ∧ error ≠ .cancelled ∧ journal.Faithful start
    | _, _ => False

variable {same : Journal → α → α → Prop} {same' : Journal → β → β → Prop} {progress : Progress}

theorem beside_pure {value value' : α} (faithful : before.Faithful start)
    (beside : before.Beside progress) (holds : same before value value') :
    Beside start before same ((pure value : Noted α) before) ((pure value' : Walk α) progress) :=
  .inr ⟨faithful, beside, id, holds⟩

theorem Beside.bind {noted : Noted α} {walk : Walk α} {next : α → Noted β} {next' : α → Walk β}
    (first : Beside start before same (noted before) (walk progress))
    (rest : ∀ value value' journal middle, journal.Faithful start → journal.Beside middle →
      (journal.absorbed = none → before.absorbed = none) → same journal value value' →
      Beside start journal same' (next value journal) (next' value' middle)) :
    Beside start before same' ((noted >>= next) before) ((walk >>= next') progress) := by
  change Beside start before same' (EStateM.bind noted next before) (EStateM.bind walk next' progress)
  unfold EStateM.bind
  rcases first with ⟨journal, step, stopped⟩ | law
  · rw [step]
    exact .inl ⟨journal, rfl, stopped⟩
  · match step : noted before, step' : walk progress with
    | .ok value journal, .ok value' middle =>
      rw [step, step'] at law
      obtain ⟨faithful, beside, onward, holds⟩ := law
      rcases rest value value' journal middle faithful beside onward holds with stopped | late
      · exact .inl stopped
      · refine .inr ?_
        match finish : next value journal, finish' : next' value' middle with
        | .ok result last, .ok result' last' =>
          simp only [finish, finish'] at late ⊢
          exact ⟨late.1, late.2.1, fun none => onward (late.2.2.1 none), late.2.2.2⟩
        | .error error last, .error error' last' =>
          simp only [finish, finish'] at late ⊢
          exact late
        | .ok _ _, .error _ _ | .error _ _, .ok _ _ =>
          simp only [finish, finish'] at late
    | .error error journal, .error error' middle =>
      rw [step, step'] at law
      exact .inr law
    | .ok _ _, .error _ _ | .error _ _, .ok _ _ =>
      rw [step, step'] at law
      cases law

theorem beside_tick (faithful : before.Faithful start) (beside : before.Beside progress) :
    Beside start before (fun _ _ _ => True) (lift Progress.tick before) (Progress.tick progress) := by
  obtain ⟨limits, count, bound, calm⟩ := beside
  have exceeded : { before.progress with count := before.progress.count + 1 }.exceeded
      = { progress with count := progress.count + 1 }.exceeded := by
    simp only [Progress.exceeded, count, bound]
  unfold lift
  rcases before.progress.tick_cases with
    ⟨finished, step⟩ | ⟨within, signals, follows, ⟨stopped, step⟩ | ⟨clear, step⟩⟩
  · rcases progress.tick_cases with ⟨_, step'⟩ | ⟨within', _⟩
    · rw [step, step']
      exact .inr ⟨rfl, by simp,
        faithful.on (.refl _) before.progress.signals.not_interrupted_self⟩
    · rw [← exceeded, finished] at within'
      cases within'
  · rw [step]
    exact .inl ⟨_, rfl, faithful.stop follows stopped⟩
  · rcases progress.tick_cases with ⟨finished', _⟩ | ⟨_, signals', follows', law⟩
    · rw [← exceeded, within] at finished'
      cases finished'
    · rcases law with ⟨stopped', _⟩ | ⟨_, step'⟩
      · exact absurd stopped' calm.not_interrupted
      · rw [step, step']
        exact .inr ⟨faithful.on follows clear, ⟨limits, congrArg (· + 1) count, bound,
          calm.follows follows'⟩, id, trivial⟩

end Noted

/-- A walk beside one that is not cancelled, where the same is still to come: a reading of the flag ends
it, or both take the same step. -/
theorem ChainWalk.advance_beside {walk walk' : ChainWalk} {signals signals' : Signals}
    (honest : walk.source.Honest) (honest' : walk'.source.Honest) (same : walk.course = walk'.course)
    (calm : signals'.Calm) :
    ∃ result after last, walk.advance signals = (result, after, last) ∧ signals.Follows last ∧
      after.source = walk.source ∧
      ((signals.Interrupted last ∧ result = some (.error .cancelled)) ∨
        (¬ signals.Interrupted last ∧ ∃ after' last', walk'.advance signals' = (result, after', last') ∧
          last'.Calm ∧ after'.source = walk'.source ∧
          (∀ error, result = some (.error error) → walk.course.2 = some error) ∧
          (∀ sector, result = some (.ok sector) → after.course = after'.course))) := by
  obtain ⟨result, after, last, step, follows, source, ⟨stopped, cut, _⟩ | ⟨clear, law⟩⟩ :=
    walk.advance_cases honest signals
  · exact ⟨result, after, last, step, follows, source, .inl ⟨stopped, cut⟩⟩
  · obtain ⟨result', after', last', step', follows', source', ⟨stopped, _⟩ | ⟨_, law'⟩⟩ :=
      walk'.advance_cases honest' signals'
    · exact absurd stopped calm.not_interrupted
    · refine ⟨result, after, last, step, follows, source, .inr ⟨clear, after', last', ?_,
        calm.follows follows', source', ?_, ?_⟩⟩
      · rw [step']
        rcases result with _ | error | sector <;> rcases result' with _ | error' | sector' <;>
          simp_all
      · rintro error rfl
        rw [law]
      · rintro sector rfl
        rcases result' with _ | error' | sector' <;> simp_all [Prod.ext_iff]

namespace Volume

open Noted (Beside)

variable {volume : Volume} {start : Signals} {journal : Journal} {progress : Progress}

theorem beside_noteSlot (honest : volume.source.Honest) (decided : volume.source.Decided)
    (faithful : journal.Faithful start) (beside : journal.Beside progress) (index : Nat)
    (slot : Bytes) :
    Beside start journal
      (fun journal entry entry' => (journal.absorbed = none → entry = entry') ∧ Estimated entry entry')
      (volume.noteSlot index slot journal) (volume.readSlot index slot progress) := by
  obtain ⟨limits, count, bound, calm⟩ := beside
  obtain ⟨last', still, found'⟩ := chainSize_of_calm honest (Location.ofBytes (slot.drop 0x03))
    progress.limits calm
  obtain ⟨walked, last, found, follows, ⟨stopped, rfl⟩ | ⟨clear, rfl⟩⟩ :=
    chainSize_outcome honest (Location.ofBytes (slot.drop 0x03)) journal.progress.limits
      journal.progress.signals
  · -- The listing goes on with an entry that is like the other one but for its size.
    rw [noteSlot_of_cancelled found, readSlot_of_walked found']
    refine .inr ⟨faithful.absorb follows stopped, ⟨limits, count, bound, still⟩, ?_, ?_, ?_⟩
    · intro never
      cases never
    · intro never
      cases never
    · refine .inr ⟨index, slot, rfl, ?_⟩
      cases courseSize (ChainWalk.start volume.source (Location.ofBytes (slot.drop 0x03))
        progress.limits) <;> rfl
  · rw [noteSlot_of_walked found (courseSize_ne_cancelled decided _ _), readSlot_of_walked found',
      limits]
    exact .inr ⟨faithful.on follows clear, ⟨limits, count, bound, still⟩, id, fun _ => rfl, .inl rfl⟩

theorem beside_noteSlots (honest : volume.source.Honest) (decided : volume.source.Decided)
    (faithful : journal.Faithful start) (beside : journal.Beside progress) (index : Nat)
    (slots : List Bytes) :
    Beside start journal Resembles (volume.noteSlots index slots journal)
      (volume.listSlots index slots progress) := by
  induction slots generalizing index journal progress with
  | nil => exact Noted.beside_pure faithful beside ⟨fun _ => rfl, .nil⟩
  | cons slot rest ih =>
    unfold noteSlots listSlots
    by_cases free : isFreeSlot slot = true
    · rw [if_pos free, if_pos free]
      exact ih faithful beside index
    · rw [if_neg free, if_neg free]
      apply (Noted.beside_tick faithful beside).bind
      intro _ _ ticked _ faithful beside _ _
      apply (beside_noteSlot honest decided faithful beside index slot).bind
      intro entry entry' measured _ faithful beside _ here
      apply (ih faithful beside (index + 1)).bind
      intro more more' last _ faithful beside since later
      refine Noted.beside_pure faithful beside ⟨?_, .cons here.2 later.2⟩
      intro none
      rw [here.1 (since none), later.1 none]

theorem beside_noteSectors (honest : volume.source.Honest) (decided : volume.source.Decided)
    {walk walk' : ChainWalk} (source : walk.source = volume.source)
    (source' : walk'.source = volume.source) (same : walk.course = walk'.course)
    (faithful : journal.Faithful start) (beside : journal.Beside progress) (index : Nat) :
    Beside start journal Resembles (volume.noteSectors walk index journal)
      (volume.listSectors walk' index progress) := by
  -- The walk that may be cancelled has its end in sight; the other one shares its course.
  induction left : walk.remaining using Nat.strongRecOn
    generalizing walk walk' journal progress index with
  | ind left ih =>
    obtain ⟨limits, count, bound, calm⟩ := beside
    obtain ⟨result, after, last, step, follows, kept, ⟨stopped, rfl⟩ | ⟨clear, law⟩⟩ :=
      ChainWalk.advance_beside (source ▸ honest) (source' ▸ honest) same calm
    · rw [noteSectors_eq, step]
      exact .inl ⟨_, rfl, faithful.stop follows stopped⟩
    · obtain ⟨after', last', step', calm', kept', failed, onward⟩ := law
      have faithful' : Journal.Faithful
          { journal with progress := { journal.progress with signals := last } } start :=
        faithful.on follows clear
      have beside' : Journal.Beside
          { journal with progress := { journal.progress with signals := last } }
          { progress with signals := last' } := ⟨limits, count, bound, calm'⟩
      rw [noteSectors_eq, listSectors_eq, step, step']
      rcases result with _ | error | sector
      · exact .inr ⟨faithful', beside', id, fun _ => rfl, .nil⟩
      · refine .inr ⟨rfl, ?_, faithful'⟩
        rintro rfl
        exact walk.course_ne_cancelled (source ▸ decided) (failed _ rfl)
      · have nearer := ChainWalk.remaining_lt_of_advance step
        apply (beside_noteSlots honest decided faithful' beside' index _).bind
        intro here here' listed _ faithful beside _ first
        rw [← first.2.length_eq]
        apply (ih _ (left ▸ nearer) (kept.trans source) (kept'.trans source') (onward _ rfl) faithful
          beside (index + here.length) rfl).bind
        intro more more' last _ faithful beside since later
        refine Noted.beside_pure faithful beside ⟨?_, List.rel_append first.2 later.2⟩
        intro none
        rw [first.1 (since none), later.1 none]

/-- A walk along a file of the directory was cancelled, and the listing ended before another reading of
the flag found it set. -/
def Absorbs (volume : Volume) (progress : Progress) : Prop :=
  match volume.noteEntries progress with
  | .ok _ journal | .error _ journal => journal.Lost

/-- What a listing comes to, beside one that is not cancelled. It is cancelled, or it fails as the other
one does, or it lists the same entries, some with the sizes of their slots. In the last two cases a
reading that found the flag set was absorbed. -/
theorem entries_cases (honest : volume.source.Honest) (decided : volume.source.Decided)
    (progress plain : Progress) (limits : progress.limits = plain.limits)
    (count : progress.count = plain.count) (bound : progress.bound = plain.bound)
    (calm : plain.signals.Calm) :
    (∃ after, volume.entries progress = .error .cancelled after ∧
        progress.signals.Interrupted after.signals ∧ ¬ volume.Absorbs progress) ∨
      (∃ error after after', volume.entries progress = .error error after ∧
        volume.entries plain = .error error after' ∧ error ≠ .cancelled ∧
        (volume.Absorbs progress ↔ progress.signals.Interrupted after.signals)) ∨
      (∃ table table' after after', volume.entries progress = .ok table after ∧
        volume.entries plain = .ok table' after' ∧
        (¬ progress.signals.Interrupted after.signals → table = table') ∧
        List.Forall₂ Estimated table table' ∧
        (volume.Absorbs progress ↔ progress.signals.Interrupted after.signals)) := by
  have same : (ChainWalk.start volume.source volume.firstDirectory progress.limits).course
      = (ChainWalk.start volume.source volume.firstDirectory plain.limits).course := by
    rw [limits]
  have law : Beside progress.signals { progress } Resembles (volume.noteEntries progress)
      (volume.entries plain) :=
    beside_noteSectors honest decided rfl rfl same (Journal.faithful_start progress)
      ⟨limits, count, bound, calm⟩ 1
  rw [← erase_noteEntries volume progress, Absorbs]
  rcases law with ⟨journal, listed, stopped⟩ | law
  · rw [listed]
    exact .inl ⟨journal.progress, rfl, stopped.2.1, stopped.not_lost⟩
  · match listed : volume.noteEntries progress, listed' : volume.entries plain with
    | .ok table journal, .ok table' after =>
      rw [listed, listed'] at law
      obtain ⟨faithful, _, _, resembles, estimated⟩ := law
      refine .inr (.inr ⟨table, table', journal.progress, after, rfl, rfl, ?_, estimated,
        faithful.lost_iff⟩)
      intro clear
      exact resembles (faithful.absorbed_eq_none clear)
    | .error error journal, .error error' after =>
      rw [listed, listed'] at law
      obtain ⟨rfl, own, faithful⟩ := law
      exact .inr (.inl ⟨error, journal.progress, after, rfl, rfl, own, faithful.lost_iff⟩)
    | .ok _ _, .error _ _ | .error _ _, .ok _ _ =>
      rw [listed, listed'] at law
      cases law

end Volume
end RetroMedia.Disk
