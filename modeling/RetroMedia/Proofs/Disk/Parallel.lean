import RetroMedia.Disk.Volume
import RetroMedia.Proofs.Disk.ChainWalk
import RetroMedia.Proofs.Progress.Agreement

/-! Disks that are listed alike. Where the walks along two chains stay related and deliver the same
sectors step by step, whole chains, their lengths and the directories above them are the same. Disks
whose sources yield the same sectors are listed alike, whatever the limits. -/
namespace RetroMedia.Disk

/-- Related walks deliver the same and stay related, under any two signals that are `fit`. -/
def ChainWalk.Parallel (fit : Signals → Prop) (related : ChainWalk → ChainWalk → Prop) : Prop :=
  ∀ walk walk' signals signals', related walk walk' → fit signals → fit signals' →
    ∃ result after after' last last', walk.advance signals = (result, after, last) ∧
      walk'.advance signals' = (result, after', last') ∧ related after after' ∧ fit last ∧ fit last'

namespace ChainWalk

variable {fit : Signals → Prop} {related : ChainWalk → ChainWalk → Prop} {walk walk' : ChainWalk}
  {signals signals' : Signals}

theorem sectors_eq (walk : ChainWalk) (signals : Signals) :
    walk.sectors signals = match walk.advance signals with
      | (none, _, signals) => ([], none, signals)
      | (some (.error error), _, signals) => ([], some error, signals)
      | (some (.ok sector), after, signals) =>
        let (more, failure, signals) := after.sectors signals
        (sector :: more, failure, signals) := by
  rw [sectors]
  split <;> rename_i step <;> rw [step]

theorem Parallel.sectors (parallel : Parallel fit related) (here : related walk walk')
    (fits : fit signals) (fits' : fit signals') :
    ∃ found failure last last', walk.sectors signals = (found, failure, last) ∧
      walk'.sectors signals' = (found, failure, last') ∧ fit last ∧ fit last' := by
  fun_induction ChainWalk.sectors walk signals generalizing walk' signals' with
  | case1 walk signals after last step
  | case2 walk signals error after last step =>
    obtain ⟨_, _, after', _, last', same, same', _, still, still'⟩ :=
      parallel walk walk' signals signals' here fits fits'
    rw [step] at same
    cases same
    rw [sectors_eq walk', same']
    exact ⟨_, _, _, _, rfl, rfl, still, still'⟩
  | case3 walk signals sector after last step more failure end' rest ih =>
    obtain ⟨_, _, after', _, last', same, same', onward, still, still'⟩ :=
      parallel walk walk' signals signals' here fits fits'
    rw [step] at same
    cases same
    obtain ⟨_, _, _, end'', found, found', finish, finish'⟩ := ih onward still still'
    rw [rest] at found
    cases found
    rw [sectors_eq walk', same']
    dsimp only
    rw [found']
    exact ⟨_, _, _, _, rfl, rfl, finish, finish'⟩

theorem Parallel.whole (parallel : Parallel fit related) (here : related walk walk')
    (fits : fit signals) (fits' : fit signals') :
    ∃ result last last', walk.whole signals = (result, last) ∧
      walk'.whole signals' = (result, last') ∧ fit last ∧ fit last' := by
  obtain ⟨found, failure, last, last', same, same', still, still'⟩ :=
    parallel.sectors here fits fits'
  unfold ChainWalk.whole
  rw [same, same']
  cases failure with
  | none => exact ⟨_, _, _, rfl, rfl, still, still'⟩
  | some error => exact ⟨_, _, _, rfl, rfl, still, still'⟩

end ChainWalk

namespace Volume

/-- Disks whose chains are walked in parallel, and whose directories begin at the same place. -/
structure Parallel (fit : Signals → Prop) (related : ChainWalk → ChainWalk → Prop)
    (first second : Volume) : Prop where
  walks : ChainWalk.Parallel fit related
  start : ∀ location limits, related (ChainWalk.start first.source location limits)
    (ChainWalk.start second.source location limits)
  directory : first.firstDirectory = second.firstDirectory

theorem listSectors_eq (volume : Volume) (walk : ChainWalk) (index : Nat) (progress : Progress) :
    volume.listSectors walk index progress = match walk.advance progress.signals with
      | (none, _, signals) => .ok [] { progress with signals }
      | (some (.error error), _, signals) => .error error { progress with signals }
      | (some (.ok sector), after, signals) =>
        (do
          let here ← volume.listSlots index (sector.data.records slotSize)
          let more ← volume.listSectors after (index + here.length)
          return here ++ more : Walk (List Entry)) { progress with signals } := by
  rw [listSectors]
  split <;> rename_i step <;> rw [step]

namespace Parallel

variable {fit : Signals → Prop} {flag : Bool} {related : ChainWalk → ChainWalk → Prop}
  {first second : Volume} {signals signals' : Signals}

theorem chainSize (parallel : Parallel fit related first second) (location : Location)
    (limits : Limits) (fits : fit signals) (fits' : fit signals') :
    ∃ size last last', Disk.chainSize first.source location limits signals = (size, last) ∧
      Disk.chainSize second.source location limits signals' = (size, last') ∧
      fit last ∧ fit last' := by
  obtain ⟨result, last, last', same, same', still, still'⟩ :=
    parallel.walks.whole (parallel.start location limits) fits fits'
  unfold Disk.chainSize
  rw [same, same']
  exact ⟨_, _, _, rfl, rfl, still, still'⟩

theorem measureChain (parallel : Parallel fit related first second) (location : Location) :
    (first.measureChain location).Agrees fit (second.measureChain location) := by
  intro progress progress' alike
  obtain ⟨size, last, last', same, same', still, still'⟩ :=
    parallel.chainSize location progress.limits alike.fits alike.fits'
  unfold Volume.measureChain
  rw [same, ← alike.limits, same']
  exact ⟨rfl, rfl, alike.count, alike.bound, still, still'⟩

theorem readSlot (parallel : Parallel fit related first second) (index : Nat) (slot : Bytes) :
    (first.readSlot index slot).Agrees fit (second.readSlot index slot) := by
  unfold Volume.readSlot
  exact (parallel.measureChain _).map _

theorem listSlots (parallel : Parallel fit related first second)
    (uniform : Signals.Uniform fit flag) (index : Nat) (slots : List Bytes) :
    (first.listSlots index slots).Agrees fit (second.listSlots index slots) := by
  induction slots generalizing index with
  | nil => exact lockstep_pure _
  | cons slot rest ih =>
    unfold Volume.listSlots
    by_cases free : isFreeSlot slot = true
    · rw [if_pos free, if_pos free]
      exact ih index
    · rw [if_neg free, if_neg free]
      refine (Walk.agrees_tick uniform).bind fun _ =>
        (parallel.readSlot index slot).bind fun entry => ?_
      exact (ih (index + 1)).map _

theorem listSectors (parallel : Parallel fit related first second)
    (uniform : Signals.Uniform fit flag) {walk walk' : ChainWalk} (here : related walk walk')
    (index : Nat) : (first.listSectors walk index).Agrees fit (second.listSectors walk' index) := by
  induction left : walk.remaining using Nat.strongRecOn generalizing walk walk' index with
  | ind left ih =>
    intro progress progress' alike
    obtain ⟨result, after, after', last, last', step, step', onward, still, still'⟩ :=
      parallel.walks walk walk' progress.signals progress'.signals here alike.fits alike.fits'
    have next : Progress.Alike fit { progress with signals := last }
        { progress' with signals := last' } :=
      ⟨alike.limits, alike.count, alike.bound, still, still'⟩
    rw [listSectors_eq, listSectors_eq, step, step']
    rcases result with _ | error | sector
    · exact ⟨rfl, next⟩
    · exact ⟨rfl, next⟩
    · have nearer := ChainWalk.remaining_lt_of_advance step
      refine ((parallel.listSlots uniform index _).bind fun here => ?_) _ _ next
      exact (ih _ (left ▸ nearer) onward _ rfl).map _

theorem entries (parallel : Parallel fit related first second)
    (uniform : Signals.Uniform fit flag) : first.entries.Agrees fit second.entries := by
  intro progress progress' alike
  unfold Volume.entries
  rw [← parallel.directory, ← alike.limits]
  exact parallel.listSectors uniform (parallel.start _ _) 1 progress progress' alike

end Parallel
end Volume

/-- The length of the chain of a walk where nothing will be cancelled. -/
def courseSize (walk : ChainWalk) : Except MediaError Nat :=
  match walk.course with
  | (sectors, none) => .ok (payloadSize sectors)
  | (_, some error) => .error error

theorem chainSize_of_calm {source : SectorSource} {signals : Signals} (honest : source.Honest)
    (start : Location) (limits : Limits) (calm : signals.Calm) :
    ∃ signals', signals'.Calm ∧ chainSize source start limits signals
      = (courseSize (ChainWalk.start source start limits), signals') := by
  have honest' : (ChainWalk.start source start limits).source.Honest := honest
  obtain ⟨signals', still, same⟩ := ChainWalk.whole_of_calm honest' calm
  refine ⟨signals', still, ?_⟩
  rw [chainSize, same, courseSize]
  rcases (ChainWalk.start source start limits).course with ⟨sectors, _ | error⟩ <;> rfl

namespace Volume

/-- Disks with the same sectors and the same place for the directory. -/
structure Twins (first second : Volume) : Prop where
  honest : first.source.Honest
  honest' : second.source.Honest
  lookup : first.source.lookup = second.source.lookup
  directory : first.firstDirectory = second.firstDirectory

variable {first second : Volume}

theorem Twins.start (twins : Twins first second) (location : Location) {limits limits' : Limits}
    (same : limits = limits') :
    (ChainWalk.start first.source location limits).Alike
      (ChainWalk.start second.source location limits') :=
  ⟨twins.lookup, same, rfl, rfl, rfl⟩

/-- Nothing that is built from walks tells such disks apart, as long as nothing is cancelled. -/
theorem Twins.parallel (twins : Twins first second) :
    Parallel Signals.Calm (fun walk walk' => walk.Alike walk' ∧ walk.source.Honest ∧
      walk'.source.Honest) first second := by
  refine ⟨?_, ?_, twins.directory⟩
  · rintro walk walk' signals signals' ⟨alike, honest, honest'⟩ calm calm'
    obtain ⟨result, after, after', last, last', step, step', still, still', onward, source, source'⟩ :=
      alike.advance honest honest' calm calm'
    exact ⟨result, after, after', last, last', step, step', ⟨onward, source, source'⟩, still, still'⟩
  · intro location limits
    exact ⟨twins.start location rfl, twins.honest, twins.honest'⟩

end Volume
end RetroMedia.Disk
