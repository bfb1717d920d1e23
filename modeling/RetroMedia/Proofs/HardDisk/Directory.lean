import RetroMedia.HardDisk.Volume
import RetroMedia.Proofs.Progress.Agreement

/-! Directories of hard disks, one sector at a time. -/
namespace RetroMedia.HardDisk.Volume

/-- The entries of a directory sector and of the sectors behind it. -/
def listSector (volume : Volume) (limit lba : Nat) (visited : List Nat) (steps index : Nat) :
    Walk (List Entry) :=
  match volume.container.slice (lba * sectorSize) sectorSize with
  | .error error => throw error
  | .ok sector => do
    let here ← volume.listSlots index (sector.records slotSize)
    let link := Pointer.ofBytes (sector.drop nextDirectoryOffset)
    if link.isNull then return here
    match link.lba volume.geometry with
    | .error error => throw error
    | .ok next =>
      let more ← volume.listSectors limit next (lba :: visited) steps (index + here.length)
      return here ++ more

/-- A directory chain takes a step for each of its sectors, and visits none of them twice. -/
theorem listSectors_eq (volume : Volume) (limit lba : Nat) (visited : List Nat)
    (steps index : Nat) (progress : Progress) :
    volume.listSectors limit lba visited steps index progress
      = match Progress.tick (chainCounter progress limit steps) with
        | .error error after => .error error { progress with signals := after.signals }
        | .ok _ after =>
          if lba ∈ visited then .error .chainLoop { progress with signals := after.signals }
          else volume.listSector limit lba visited after.count index
            { progress with signals := after.signals } := by
  match step : Progress.tick (chainCounter progress limit steps) with
  | .error error after =>
    rw [listSectors]
    split <;> rename_i same <;> rw [step] at same <;> cases same
    rfl
  | .ok _ after =>
    rw [listSectors]
    split <;> rename_i same <;> rw [step] at same <;> cases same
    by_cases loop : lba ∈ visited
    · simp only [if_pos loop]
      rfl
    · simp only [if_neg loop]
      rfl

variable {fit : Signals → Prop} {flag : Bool}

theorem listSlots_agrees (uniform : Signals.Uniform fit flag) (volume : Volume) (index : Nat)
    (slots : List Bytes) :
    (volume.listSlots index slots).Agrees fit (volume.listSlots index slots) := by
  induction slots generalizing index with
  | nil => exact lockstep_pure _
  | cons slot rest ih =>
    unfold listSlots
    by_cases free : (slot.byte 0 == 0) = true
    · rw [if_pos free]
      exact ih index
    · rw [if_neg free]
      apply (Walk.agrees_tick uniform).bind
      intro _
      exact (ih (index + 1)).map _

theorem listSector_agrees (uniform : Signals.Uniform fit flag) (volume : Volume)
    (limit lba : Nat) (visited : List Nat) (steps index : Nat)
    (rest : ∀ next index, (volume.listSectors limit next (lba :: visited) steps index).Agrees fit
      (volume.listSectors limit next (lba :: visited) steps index)) :
    (volume.listSector limit lba visited steps index).Agrees fit
      (volume.listSector limit lba visited steps index) := by
  unfold listSector
  split
  · exact lockstep_throw _
  · apply (listSlots_agrees uniform volume index _).bind
    intro here
    dsimp only
    split
    · exact lockstep_pure _
    · split
      · exact lockstep_throw _
      · exact (rest _ _).map _

theorem listSectors_agrees (uniform : Signals.Uniform fit flag) (volume : Volume)
    (limit lba : Nat) (visited : List Nat) (steps index : Nat) :
    (volume.listSectors limit lba visited steps index).Agrees fit
      (volume.listSectors limit lba visited steps index) := by
  induction left : limit - steps using Nat.strongRecOn generalizing lba visited steps index with
  | ind remaining ih =>
    intro progress progress' alike
    have counters : (chainCounter progress limit steps).Alike fit
        (chainCounter progress' limit steps) :=
      ⟨alike.limits, rfl, rfl, alike.fits, alike.fits'⟩
    have ticks := Walk.agrees_tick uniform _ _ counters
    rw [listSectors_eq, listSectors_eq]
    match step : Progress.tick (chainCounter progress limit steps),
        step' : Progress.tick (chainCounter progress' limit steps) with
    | .error error after, .error error' after' =>
      rw [step, step'] at ticks
      exact ⟨ticks.1, alike.limits, alike.count, alike.bound, ticks.2.fits, ticks.2.fits'⟩
    | .ok _ after, .ok _ after' =>
      rw [step, step'] at ticks
      obtain ⟨-, on⟩ := ticks
      obtain ⟨count, within⟩ := @Progress.tick_ok_le _ _ limit rfl step
      have here : after.count = steps + 1 := count
      have nearer : limit - after.count < remaining := by omega
      have onward : Progress.Alike fit { progress with signals := after.signals }
          { progress' with signals := after'.signals } :=
        ⟨alike.limits, alike.count, alike.bound, on.fits, on.fits'⟩
      dsimp only
      rw [← on.count]
      by_cases loop : lba ∈ visited
      · rw [if_pos loop, if_pos loop]
        exact ⟨rfl, onward⟩
      · rw [if_neg loop, if_neg loop]
        apply listSector_agrees uniform _ _ _ _ _ _ _ _ _ onward
        intro next index
        exact ih _ nearer next (lba :: visited) after.count index rfl
    | .ok _ after, .error error after' | .error error after, .ok _ after' =>
      rw [step, step'] at ticks
      cases ticks

theorem entries_agrees (uniform : Signals.Uniform fit flag) (volume : Volume) :
    volume.entries.Agrees fit volume.entries := by
  unfold entries
  apply lockstep_get
  intro progress progress' alike
  rw [alike.limits]
  exact listSectors_agrees uniform volume _ _ _ _ _

end RetroMedia.HardDisk.Volume
