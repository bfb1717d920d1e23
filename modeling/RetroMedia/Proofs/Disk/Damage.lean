import RetroMedia.Proofs.Disk.Survey

/-! Damaged chains. A walk that breaks off does so behind the sectors that it reached, with a failure
of its own: only the flag cancels, never the sectors of a disk. The entry of such a chain takes its
size from its directory slot, which knows nothing of the chain. -/
namespace RetroMedia

theorem Container.slice_ne_cancelled (container : Container) (offset length : Nat) :
    container.slice offset length ≠ .error .cancelled := by
  unfold slice
  split <;> simp

theorem Gcr.Track.search_ne_cancelled (length : Nat) (number sector : UInt8) (position : Nat)
    (bytes : Bytes) (headerSeen : Bool) :
    search length number sector position bytes headerSeen ≠ .error .cancelled := by
  have missed (headerSeen : Bool) : missing headerSeen ≠ .cancelled := by
    cases headerSeen <;> simp [missing]
  fun_induction search length number sector position bytes headerSeen with
  | case1 | case5 => simpa using missed _
  | case2 => simp
  | case3 _ _ _ _ _ _ _ _ ih | case4 _ _ _ _ _ _ _ _ ih => exact ih

namespace Disk

namespace SectorSource

/-- What a source yields for a sector is never that it was cancelled. -/
def Decided (source : SectorSource) : Prop :=
  ∀ location, source.lookup location ≠ .error .cancelled

end SectorSource

theorem Geometry.decided_source (geometry : Geometry) (container : Container) :
    (geometry.source container).Decided := by
  intro location
  rw [source, SectorSource.lookup_eq SectorSource.heeds_ofLookup, offset]
  split
  · simp [bind, Except.bind]
  · dsimp only [bind, Except.bind]
    split
    · simp
    · rename_i failed
      intro cancelled
      cases cancelled
      exact container.slice_ne_cancelled _ _ failed

theorem TrackImage.trackData_ne_cancelled (image : TrackImage) (track : Nat) :
    image.trackData track ≠ .error .cancelled := by
  unfold trackData
  split
  · simp
  · dsimp only
    split
    · simp
    · cases found : image.container.slice (image.trackOffsets.getD ((track - 1) * 2) 0) 2 with
      | error error =>
        intro cancelled
        cases cancelled
        exact image.container.slice_ne_cancelled _ _ found
      | ok length => exact image.container.slice_ne_cancelled _ _

theorem TrackImage.decided_source (image : TrackImage) : image.source.Decided := by
  intro location
  rw [SectorSource.lookup_eq image.heeds_source, contents]
  split
  · simp
  · split
    · rename_i failed
      intro cancelled
      cases cancelled
      exact image.trackData_ne_cancelled _ failed
    · rename_i bytes _
      cases found : Gcr.Track.search bytes.length location.track location.sector 0 (bytes ++ bytes)
          false with
      | error error =>
        intro cancelled
        cases cancelled
        exact Gcr.Track.search_ne_cancelled _ _ _ _ _ _ found
      | ok data => simp [Except.bind]

namespace ChainWalk

theorem settled_source (walk : ChainWalk) (location : Location) :
    (walk.settled location).2.source = walk.source := by
  unfold settled
  dsimp only
  (repeat' split) <;> rfl

theorem settled_ne_cancelled (walk : ChainWalk) (decided : walk.source.Decided)
    (location : Location) : (walk.settled location).1 ≠ .error .cancelled := by
  unfold settled
  dsimp only
  split
  · simp
  · split
    · simp
    · split
      · rename_i error failed
        intro cancelled
        cases cancelled
        exact decided location failed
      · split
        · rename_i error failed
          unfold ChainLink.ofBytes at failed
          split at failed
          · split at failed <;> cases failed
            simp
          · cases failed
        · simp
        · simp

/-- The failure that ends a walk is one of its own. -/
theorem course_ne_cancelled (walk : ChainWalk) (decided : walk.source.Decided) :
    walk.course.2 ≠ some .cancelled := by
  fun_induction course walk with
  | case1 => simp
  | case2 walk location here error after settles =>
    have law := settled_ne_cancelled { walk with next := none } decided location
    rw [settles] at law
    simpa using law
  | case3 walk location here sector after settles ih =>
    have source := settled_source { walk with next := none } location
    rw [settles] at source
    exact ih (source ▸ decided)

end ChainWalk

theorem courseSize_ne_cancelled {source : SectorSource} (decided : source.Decided) (start : Location)
    (limits : Limits) : courseSize (ChainWalk.start source start limits) ≠ .error .cancelled := by
  have law := (ChainWalk.start source start limits).course_ne_cancelled decided
  unfold courseSize
  rcases course : (ChainWalk.start source start limits).course with ⟨sectors, _ | error⟩
  · simp
  · rw [course] at law
    simpa using law

namespace Volume

variable {volume : Volume} {progress : Progress} {entry : Entry} {error : MediaError}

/-- An entry that was listed although the walk along its chain failed. -/
def Damaged (volume : Volume) (progress : Progress) (entry : Entry) (error : MediaError) : Prop :=
  ∃ surveyed after, volume.survey progress = .ok surveyed after ∧ (entry, .error error) ∈ surveyed

/-- The entry of a slot whose chain cannot be walked. -/
def slotEntry (index : Nat) (slot : Bytes) : Entry where
  index
  name := Petscii.ofPadded (slot.field 0x05 16) Petscii.shiftedSpace
  rawName := slot.field 0x05 16
  size := slot.le16 0x1E * chainedSize
  typeCode := slot.byte 0x02
  location := some (Location.ofBytes (slot.drop 0x03))
  recordSize := if slot.byte 0x02 &&& 0x07 == 0x04 then some (slot.byte 0x17).toNat else none

/-- The entry of a slot whose chain was walked with the given result. -/
def walkedEntry (index : Nat) (slot : Bytes) : Except MediaError Nat → Entry
  | .ok size => { slotEntry index slot with size }
  | .error _ => slotEntry index slot

theorem surveySlot_of_walked {slot : Bytes} {walked : Except MediaError Nat} {signals : Signals}
    (found : chainSize volume.source (Location.ofBytes (slot.drop 0x03)) progress.limits
      progress.signals = (walked, signals)) (index : Nat) :
    volume.surveySlot index slot progress
      = .ok (walkedEntry index slot walked, walked) { progress with signals } := by
  have same : volume.surveySlot index slot progress
      = .ok ({ slotEntry index slot with
            size := match (chainSize volume.source (Location.ofBytes (slot.drop 0x03)) progress.limits
                progress.signals).1 with
              | .ok size => size
              | .error _ => (slotEntry index slot).size },
          (chainSize volume.source (Location.ofBytes (slot.drop 0x03)) progress.limits
            progress.signals).1)
        { progress with
          signals := (chainSize volume.source (Location.ofBytes (slot.drop 0x03)) progress.limits
            progress.signals).2 } := rfl
  rw [same, found]
  cases walked <;> rfl

theorem surveySlots_of_walked {slot : Bytes} {rest : List Bytes} {index : Nat} {after last : Progress}
    {walked : Except MediaError Nat} {signals : Signals}
    {more : List (Entry × Except MediaError Nat)}
    (used : isFreeSlot slot = false) (ticked : Progress.tick progress = .ok () after)
    (found : chainSize volume.source (Location.ofBytes (slot.drop 0x03)) after.limits after.signals
      = (walked, signals))
    (others : volume.surveySlots (index + 1) rest { after with signals } = .ok more last) :
    volume.surveySlots index (slot :: rest) progress
      = .ok ((walkedEntry index slot walked, walked) :: more) last := by
  rw [surveySlots, used]
  simp only [Bool.false_eq_true, if_false, bind, EStateM.bind, ticked, surveySlot_of_walked found,
    others]
  rfl

/-- The survey of a directory of one sector. -/
theorem survey_of_sector {sector : ChainSector} {after : ChainWalk} {signals : Signals}
    {surveyed : List (Entry × Except MediaError Nat)} {last : Progress}
    (first : (ChainWalk.start volume.source volume.firstDirectory progress.limits).advance
      progress.signals = (some (.ok sector), after, signals))
    (ended : after.next = none)
    (listed : volume.surveySlots 1 (sector.data.records slotSize) { progress with signals }
      = .ok surveyed last) :
    volume.survey progress = .ok surveyed last := by
  have ended (index : Nat) : volume.surveySectors after index last = .ok [] last := by
    rw [surveySectors_eq, ChainWalk.advance, ended]
  rw [survey, surveySectors_eq, first]
  simp only [bind, EStateM.bind, listed, ended, pure, EStateM.pure, List.append_nil]

theorem yields_slotEntry (honest : volume.source.Honest) {fit : Signals → Prop}
    (lasting : Signals.Lasting fit) (limits : Limits) (index : Nat) (slot : Bytes) :
    Walk.Yields (Progress.Under limits fit) (volume.surveySlot index slot) fun found =>
      ∀ error, found.2 = .error error → ∃ index slot signals, found.1 = slotEntry index slot ∧
        fit signals ∧
        (chainSize volume.source (Location.ofBytes (slot.drop 0x03)) limits signals).1
          = .error error := by
  rintro progress ⟨rfl, here⟩
  let start := Location.ofBytes (slot.drop 0x03)
  have follows := (chainSize_cases honest start progress.limits progress.signals).1
  rcases walked : chainSize volume.source start progress.limits progress.signals with
    ⟨error | size, signals⟩
  · rw [walked] at follows
    rw [surveySlot_of_walked walked]
    refine ⟨⟨rfl, lasting _ _ follows here⟩, ?_⟩
    rintro _ ⟨⟩
    exact ⟨index, slot, progress.signals, rfl, here, congrArg Prod.fst walked⟩
  · refine ⟨⟨rfl, lasting _ _ follows here⟩, ?_⟩
    intro error (failed : (chainSize volume.source start progress.limits progress.signals).1
      = .error error)
    rw [walked] at failed
    cases failed

/-- The entry of a damaged chain is what some slot says of it, and its chain is walked as far as it can
be. -/
theorem Damaged.course (honest : volume.source.Honest) (calm : progress.signals.Calm)
    (damaged : volume.Damaged progress entry error) :
    ∃ index slot sectors, entry = slotEntry index slot ∧
      (ChainWalk.start volume.source (Location.ofBytes (slot.drop 0x03)) progress.limits).course
        = (sectors, some error) := by
  obtain ⟨surveyed, after, listed, member⟩ := damaged
  have law := yields_survey_of honest Signals.lasting_calm
    (yields_slotEntry honest Signals.lasting_calm progress.limits) progress ⟨rfl, calm⟩
  rw [listed] at law
  obtain ⟨index, slot, signals, same, still, failed⟩ := law.2 _ member error rfl
  obtain ⟨_, _, walked⟩ := chainSize_of_calm honest (Location.ofBytes (slot.drop 0x03))
    progress.limits still
  rw [walked, courseSize] at failed
  dsimp only at failed
  split at failed
  · cases failed
  · rename_i sectors other course
    cases failed
    exact ⟨index, slot, sectors, same, course⟩

theorem Damaged.ne_cancelled (honest : volume.source.Honest) (calm : progress.signals.Calm)
    (decided : volume.source.Decided) (damaged : volume.Damaged progress entry error) :
    error ≠ .cancelled := by
  obtain ⟨index, slot, sectors, _, course⟩ := damaged.course honest calm
  have law := (ChainWalk.start volume.source (Location.ofBytes (slot.drop 0x03))
    progress.limits).course_ne_cancelled decided
  rw [course] at law
  simpa using law

end Volume
end Disk

/-- The contents of the sectors of a disk never say that they were cancelled. -/
theorem Handler.decided_of_disk {container : Container} {format : Format} {volume : Disk.Volume}
    (opened : openAs container format = .ok (.disk volume)) : volume.source.Decided := by
  rcases source_of_disk opened with ⟨geometry, same⟩ | ⟨image, same⟩
  · exact same ▸ geometry.decided_source container
  · exact same ▸ image.decided_source

end RetroMedia
