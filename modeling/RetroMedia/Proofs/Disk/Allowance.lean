import RetroMedia.Proofs.Disk.ChainOutlook
import RetroMedia.Proofs.Disk.ChainWalk
import RetroMedia.Proofs.Disk.Parallel
import RetroMedia.Proofs.Disk.Sources
import RetroMedia.Proofs.Progress.Tally

/-! Disks under limits that allow more or fewer entries. Chains do not look at how many entries a
directory may have, so nothing but the bound of the listing itself can tell such limits apart. -/
namespace RetroMedia

namespace Walk

variable {α : Type}

/-- A traversal that does not look at how many entries a directory may have. -/
def Indifferent (walk : Walk α) : Prop :=
  ∀ entries, Lockstep (fun progress progress' => progress' = progress.allowing entries) walk walk

theorem indifferent_tick : Indifferent Progress.tick := by
  rintro entries progress _ rfl
  let counted := { progress with count := progress.count + 1 }
  let polled := { counted with signals := counted.signals.poll }
  by_cases full : counted.exceeded = true
  · have step : Progress.tick progress = .error .chainTooLong counted := if_pos full
    have step' : Progress.tick (progress.allowing entries)
        = .error .chainTooLong (counted.allowing entries) := if_pos full
    rw [step, step']
    exact ⟨rfl, rfl⟩
  by_cases raised : counted.signals.raised = true
  · have step : Progress.tick progress = .error .cancelled polled :=
      (if_neg full).trans (if_pos raised)
    have step' : Progress.tick (progress.allowing entries)
        = .error .cancelled (polled.allowing entries) := (if_neg full).trans (if_pos raised)
    rw [step, step']
    exact ⟨rfl, rfl⟩
  have step : Progress.tick progress = if counted.refreshDue
      then .ok () { polled with signals := polled.signals.refresh } else .ok () polled :=
    (if_neg full).trans (if_neg raised)
  have step' : Progress.tick (progress.allowing entries) = if counted.refreshDue
      then .ok () (Progress.allowing { polled with signals := polled.signals.refresh } entries)
      else .ok () (polled.allowing entries) :=
    (if_neg full).trans (if_neg raised)
  rw [step, step']
  by_cases due : counted.refreshDue = true
  · rw [if_pos due, if_pos due]
    exact ⟨rfl, rfl⟩
  · rw [if_neg due, if_neg due]
    exact ⟨rfl, rfl⟩

theorem indifferent_counted (result : Except MediaError α) (steps : Nat) :
    (counted result steps).Indifferent := by
  intro entries
  induction steps with
  | zero =>
    cases result with
    | ok value => exact lockstep_pure value
    | error error => exact lockstep_throw error
  | succ steps ih =>
    rw [counted_succ]
    exact (indifferent_tick entries).bind fun _ => ih

end Walk

namespace Disk

theorem SectorSource.Regular.indifferent {source : SectorSource} (regular : source.Regular)
    (location : Location) : (source location).Indifferent := by
  obtain ⟨result, steps, same⟩ := regular location
  exact same ▸ Walk.indifferent_counted result steps

namespace ChainWalk

variable {walk : ChainWalk}

/-- The walk under limits for directories of another size. -/
def allowing (walk : ChainWalk) (entries : Nat) : ChainWalk :=
  { walk with limits := walk.limits.allowing entries }

theorem visit_allowing (regular : walk.source.Regular) (entries : Nat) (location : Location)
    (signals : Signals) :
    ∃ result after last, walk.visit location signals = (result, after, last) ∧
      (walk.allowing entries).visit location signals = (result, after.allowing entries, last) := by
  have counters : (walk.allowing entries).counter signals
      = (walk.counter signals).allowing entries := rfl
  have ticks := Walk.indifferent_tick entries (walk.counter signals) _ rfl
  unfold visit
  rw [counters]
  match step : Progress.tick (walk.counter signals),
      step' : Progress.tick ((walk.counter signals).allowing entries) with
  | .error error early, .error error' early' =>
    rw [step, step'] at ticks
    obtain ⟨rfl, rfl⟩ := ticks
    exact ⟨_, _, _, rfl, rfl⟩
  | .ok _ early, .ok _ early' =>
    rw [step, step'] at ticks
    obtain ⟨-, rfl⟩ := ticks
    dsimp only
    have known : location ∈ (walk.allowing entries).visited ↔ location ∈ walk.visited := .rfl
    by_cases loop : location ∈ walk.visited
    · rw [if_pos loop, if_pos (known.2 loop)]
      exact ⟨_, _, _, rfl, rfl⟩
    rw [if_neg loop, if_neg (mt known.1 loop)]
    -- The source goes the same course under either limits.
    let entered : ChainWalk :=
      { walk with steps := early.count, visited := walk.visited.insert location }
    let scanner := entered.scanCounter early.signals
    have scans := regular.indifferent location entries scanner _ rfl
    match read : walk.source location scanner,
        read' : walk.source location (scanner.allowing entries) with
    | .error error scan, .error error' scan' =>
      rw [read, read'] at scans
      obtain ⟨rfl, rfl⟩ := scans
      exact ⟨_, _, _, rfl, rfl⟩
    | .ok block scan, .ok block' scan' =>
      rw [read, read'] at scans
      obtain ⟨rfl, rfl⟩ := scans
      dsimp only
      rcases ChainLink.ofBytes block.bytes with error | (location' | used) <;>
        exact ⟨_, _, _, rfl, rfl⟩
    | .ok _ _, .error _ _ | .error _ _, .ok _ _ =>
      rw [read, read'] at scans
      cases scans
  | .ok _ _, .error _ _ | .error _ _, .ok _ _ =>
    rw [step, step'] at ticks
    cases ticks

/-- A walk goes on as it would under limits for directories of another size. -/
theorem advance_allowing (regular : walk.source.Regular) (entries : Nat) (signals : Signals) :
    ∃ result after last, walk.advance signals = (result, after, last) ∧
      (walk.allowing entries).advance signals = (result, after.allowing entries, last) ∧
      after.source = walk.source := by
  unfold advance
  cases next : walk.next with
  | none =>
    rw [show (walk.allowing entries).next = none from next]
    exact ⟨_, _, _, rfl, rfl, rfl⟩
  | some location =>
    rw [show (walk.allowing entries).next = some location from next]
    let ended : ChainWalk := { walk with next := none }
    have quiet : ended.source.Regular := regular
    obtain ⟨result, after, last, step, step'⟩ := visit_allowing quiet entries location signals
    have source := visit_source ended location signals
    rw [step] at source
    dsimp only
    rw [step, show { walk.allowing entries with next := none } = ended.allowing entries from rfl,
      step']
    exact ⟨_, _, _, rfl, rfl, source⟩

theorem sectors_allowing (regular : walk.source.Regular) (entries : Nat) (signals : Signals) :
    (walk.allowing entries).sectors signals = walk.sectors signals := by
  induction left : walk.remaining using Nat.strongRecOn generalizing walk signals with
  | ind left ih =>
    obtain ⟨result, after, last, step, step', source⟩ := advance_allowing regular entries signals
    rcases result with _ | (error | sector)
    · rw [sectors_of_over step, sectors_of_over step']
    · rw [sectors_of_error step, sectors_of_error step']
    · have nearer := remaining_lt_of_advance step
      rw [sectors_of_ok step, sectors_of_ok step',
        ih _ (left ▸ nearer) (source.symm ▸ regular) last rfl]

end ChainWalk

theorem chainSize_allowing {source : SectorSource} (regular : source.Regular) (start : Location)
    (limits : Limits) (entries : Nat) (signals : Signals) :
    chainSize source start (limits.allowing entries) signals
      = chainSize source start limits signals := by
  have same := @ChainWalk.sectors_allowing (.start source start limits) regular entries signals
  unfold chainSize ChainWalk.whole
  rw [← same]
  rfl

namespace Volume

variable {volume : Volume}

/-- To measure a chain takes no step of the listing. -/
theorem narrows_measureChain (regular : volume.source.Regular) (start : Location) :
    Walk.Narrows (fun before _ after => before.Takes 0 after) (volume.measureChain start)
      (volume.measureChain start) := by
  intro tight loose tighter
  have same : chainSize volume.source start loose.limits loose.signals
      = chainSize volume.source start tight.limits tight.signals := by
    rw [tighter.limits, chainSize_allowing regular, tighter.signals]
  unfold measureChain
  rw [same]
  exact ⟨rfl, tighter.withSignals _, tight.leads_withSignals _, ⟨rfl, rfl, rfl, rfl⟩⟩

theorem narrows_readSlot (regular : volume.source.Regular) (index : Nat) (slot : Bytes) :
    Walk.Narrows (fun before entry after => entry.index = index ∧ before.Takes 0 after)
      (volume.readSlot index slot) (volume.readSlot index slot) := by
  unfold readSlot
  apply (narrows_measureChain regular _).map
  intro before size after takes
  exact ⟨rfl, takes⟩

theorem enumerates_listSlots (regular : volume.source.Regular) (index : Nat)
    (slots : List Bytes) :
    Walk.Enumerates index (volume.listSlots index slots) (volume.listSlots index slots) := by
  induction slots generalizing index with
  | nil => exact Walk.enumerates_nil
  | cons slot rest ih =>
    unfold listSlots
    by_cases free : isFreeSlot slot = true
    · rw [if_pos free]
      exact ih index
    · rw [if_neg free]
      apply Walk.narrows_tick.bind
      intro _
      apply (narrows_readSlot regular index slot).bind
      intro entry
      apply (ih (index + 1)).map
      rintro read more after tally ticked ⟨numbered, none⟩ before step
      exact tally.cons numbered (step.trans none)

/-- The directory sectors that a walk still has before it, under either limits. -/
theorem enumerates_listSectors (regular : volume.source.Regular) (walk : ChainWalk)
    (source : walk.source = volume.source) (entries index : Nat) :
    Walk.Enumerates index (volume.listSectors walk index)
      (volume.listSectors (walk.allowing entries) index) := by
  induction left : walk.remaining using Nat.strongRecOn generalizing walk index with
  | ind left ih =>
    intro tight loose tighter
    obtain ⟨result, after, last, step, step', source'⟩ :=
      ChainWalk.advance_allowing (source.symm ▸ regular) entries tight.signals
    rw [listSectors_eq, listSectors_eq, ← tighter.signals, step, step']
    have onward := tighter.withSignals last
    rcases result with _ | error | sector
    · exact ⟨rfl, onward, tight.leads_withSignals last, (Tally.nil index _).of_signals⟩
    · exact .inr rfl
    · have nearer := ChainWalk.remaining_lt_of_advance step
      have rest (index : Nat) := ih _ (left ▸ nearer) after (source'.trans source) index rfl
      have whole : Walk.Enumerates index
          (volume.listSlots index (sector.data.records slotSize) >>= fun here =>
            volume.listSectors after (index + here.length) >>= fun more => pure (here ++ more))
          (volume.listSlots index (sector.data.records slotSize) >>= fun here =>
            volume.listSectors (after.allowing entries) (index + here.length) >>= fun more =>
              pure (here ++ more)) := by
        apply (enumerates_listSlots regular index _).bind
        intro here
        apply (rest (index + here.length)).map
        intro middle more after second before first
        exact first.append second
      exact (whole _ _ onward).behind (tight.leads_withSignals last)
        fun table after tally => tally.of_signals

theorem enumerates_entries (regular : volume.source.Regular) :
    Walk.Enumerates 1 volume.entries volume.entries := by
  intro tight loose tighter
  unfold entries
  rw [tighter.limits]
  exact enumerates_listSectors regular (.start volume.source volume.firstDirectory tight.limits) rfl
    loose.limits.maxEntries 1 tight loose tighter

end Volume
end Disk
end RetroMedia
