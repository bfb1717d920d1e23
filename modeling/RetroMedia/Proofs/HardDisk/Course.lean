import RetroMedia.Proofs.HardDisk.Directory
import RetroMedia.Proofs.HardDisk.Slots
import RetroMedia.Proofs.Progress.Counting

/-! The course of a directory. Which sectors a directory takes up, and how their chain ends, depends
on the disk alone; a counter and a flag only decide how much of it is seen. Main statement: a
directory is listed as the slots in use on the sectors of its course, in order. -/
namespace RetroMedia.HardDisk.Volume

/-- The bytes of a sector, fewer where the container ends. -/
def stored (volume : Volume) (lba : Nat) : Bytes :=
  volume.container.readAt (lba * sectorSize) sectorSize

/-- Does the container hold all of a sector? -/
def Inside (volume : Volume) (lba : Nat) : Prop :=
  lba * sectorSize + sectorSize ≤ volume.container.size

instance (volume : Volume) (lba : Nat) : Decidable (volume.Inside lba) :=
  inferInstanceAs (Decidable (_ ≤ _))

/-- The pointer at the end of a directory sector. -/
def link (volume : Volume) (lba : Nat) : Pointer :=
  Pointer.ofBytes ((volume.stored lba).drop nextDirectoryOffset)

/-- Is a slot in use? -/
def used (slot : Bytes) : Bool := slot.byte 0 != 0

/-- The slots of a directory sector that are in use. -/
def usedSlots (volume : Volume) (lba : Nat) : List Bytes :=
  ((volume.stored lba).records slotSize).filter used

/-- The slots in use on some sectors, in the order of the sectors. -/
def slotsOn (volume : Volume) (numbers : List Nat) : List Bytes := numbers.flatMap volume.usedSlots

/-- The entries of some slots, numbered from `index` on. -/
def numbered (volume : Volume) (index : Nat) (slots : List Bytes) : List Entry :=
  slots.mapIdx fun place slot => volume.readSlot (index + place) slot

/-- The sectors of a directory chain from `lba` on, and how it ends behind them. At most `room`
sectors are visited, and none that was visited before. -/
def course (volume : Volume) : Nat → Nat → List Nat → List Nat × Except MediaError Unit
  | 0, _, _ => ([], .error .chainTooLong)
  | room + 1, lba, visited =>
    if lba ∈ visited then ([], .error .chainLoop)
    else if volume.Inside lba then
      if (volume.link lba).isNull then ([lba], .ok ())
      else
        match (volume.link lba).lba volume.geometry with
        | .error error => ([lba], .error error)
        | .ok next =>
          let rest := volume.course room next (lba :: visited)
          (lba :: rest.1, rest.2)
    else ([], .error .shortRead)

/-- What becomes of the entries on some sectors where the chain ends behind them in the given way, if
the counter lets all of them be listed. -/
def verdict (volume : Volume) (progress : Progress) (index : Nat) (numbers : List Nat)
    (ending : Except MediaError Unit) : Except MediaError (List Entry) :=
  if progress.fits (volume.slotsOn numbers).length then
    ending.map fun _ => volume.numbered index (volume.slotsOn numbers)
  else .error .chainTooLong

variable {volume : Volume}

theorem slice_of_inside {lba : Nat} (inside : volume.Inside lba) :
    volume.container.slice (lba * sectorSize) sectorSize = .ok (volume.stored lba) := by
  exact if_pos inside

theorem slice_of_not_inside {lba : Nat} (outside : ¬ volume.Inside lba) :
    volume.container.slice (lba * sectorSize) sectorSize = .error .shortRead := by
  exact if_neg outside

section Cases

variable {room lba next : Nat} {visited : List Nat} {error : MediaError}

theorem course_of_visited (loop : lba ∈ visited) :
    volume.course (room + 1) lba visited = ([], .error .chainLoop) := if_pos loop

theorem course_of_not_inside (fresh : lba ∉ visited) (outside : ¬ volume.Inside lba) :
    volume.course (room + 1) lba visited = ([], .error .shortRead) := by
  rw [course, if_neg fresh, if_neg outside]

theorem course_of_null (fresh : lba ∉ visited) (inside : volume.Inside lba)
    (last : (volume.link lba).isNull = true) :
    volume.course (room + 1) lba visited = ([lba], .ok ()) := by
  rw [course, if_neg fresh, if_pos inside, if_pos last]

theorem course_of_error (fresh : lba ∉ visited) (inside : volume.Inside lba)
    (linked : ¬ (volume.link lba).isNull = true)
    (broken : (volume.link lba).lba volume.geometry = .error error) :
    volume.course (room + 1) lba visited = ([lba], .error error) := by
  rw [course, if_neg fresh, if_pos inside, if_neg linked, broken]

theorem course_of_next (fresh : lba ∉ visited) (inside : volume.Inside lba)
    (linked : ¬ (volume.link lba).isNull = true)
    (leads : (volume.link lba).lba volume.geometry = .ok next) :
    volume.course (room + 1) lba visited
      = (lba :: (volume.course room next (lba :: visited)).1,
          (volume.course room next (lba :: visited)).2) := by
  rw [course, if_neg fresh, if_pos inside, if_neg linked, leads]

end Cases

theorem slotsOn_cons (lba : Nat) (numbers : List Nat) :
    volume.slotsOn (lba :: numbers) = volume.usedSlots lba ++ volume.slotsOn numbers :=
  List.flatMap_cons

theorem length_numbered (index : Nat) (slots : List Bytes) :
    (volume.numbered index slots).length = slots.length := List.length_mapIdx

theorem numbered_cons (index : Nat) (slot : Bytes) (slots : List Bytes) :
    volume.numbered index (slot :: slots)
      = volume.readSlot index slot :: volume.numbered (index + 1) slots := by
  simp only [numbered, List.mapIdx_cons, Nat.add_zero, Nat.add_assoc, Nat.add_comm 1]

theorem numbered_append (index : Nat) (slots more : List Bytes) :
    volume.numbered index (slots ++ more)
      = volume.numbered index slots ++ volume.numbered (index + slots.length) more := by
  simp only [numbered, List.mapIdx_append, Nat.add_assoc, Nat.add_comm slots.length]

theorem lists_numbered (volume : Volume) (slots : List Bytes) :
    volume.Lists slots (volume.numbered 1 slots) := by
  refine ⟨length_numbered 1 slots, ?_⟩
  intro place slot here
  refine ⟨volume.readSlot (1 + place) slot, ?_, Nat.add_comm 1 place, describes_readSlot volume _ slot⟩
  rw [numbered, List.getElem?_mapIdx, here]
  rfl

/-- The slots of a sector take a step for each one in use. -/
theorem listSlots_eq_counted (volume : Volume) (index : Nat) (slots : List Bytes) :
    volume.listSlots index slots
      = Walk.counted (.ok (volume.numbered index (slots.filter used)))
          (slots.filter used).length := by
  induction slots generalizing index with
  | nil => rfl
  | cons slot rest ih =>
    unfold listSlots
    by_cases free : (slot.byte 0 == 0) = true
    · have dropped : ¬ used slot = true := by simpa [used] using free
      rw [if_pos free, List.filter_cons_of_neg dropped]
      exact ih index
    · have kept : used slot = true := by simpa [used] using free
      rw [if_neg free, List.filter_cons_of_pos kept, List.length_cons, Walk.counted_succ,
        numbered_cons, ih]
      congr 1
      funext _
      exact Walk.counted_bind _ _ fun more => .ok (volume.readSlot index slot :: more)

variable {progress middle : Progress} {index : Nat}

/-- Room for the slots of one sector and then for those behind it is room for all. -/
theorem verdict_cons {lba : Nat} {numbers : List Nat} {ending : Except MediaError Unit}
    (bound : middle.bound = progress.bound)
    (count : middle.count = progress.count + (volume.usedSlots lba).length) :
    (if progress.fits (volume.usedSlots lba).length then
        (volume.verdict middle (index + (volume.usedSlots lba).length) numbers ending).map
          (volume.numbered index (volume.usedSlots lba) ++ ·)
      else .error .chainTooLong)
      = volume.verdict progress index (lba :: numbers) ending := by
  unfold verdict
  rw [slotsOn_cons, List.length_append, Progress.fits_add bound count, numbered_append]
  cases progress.fits (volume.usedSlots lba).length with
  | false => rfl
  | true =>
    cases middle.fits (volume.slotsOn numbers).length with
    | false => rfl
    | true => cases ending <;> rfl

/-- Entries are only come to where the chain has ended well. -/
theorem verdict_eq_ok {numbers : List Nat} {ending : Except MediaError Unit} {table : List Entry}
    (found : volume.verdict progress index numbers ending = .ok table) :
    ending = .ok () ∧ table = volume.numbered index (volume.slotsOn numbers) := by
  unfold verdict at found
  split at found
  · cases ending with
    | error error => cases found
    | ok _ =>
      cases found
      exact ⟨rfl, rfl⟩
  · cases found

@[simp] theorem verdict_chainTooLong (numbers : List Nat) :
    volume.verdict progress index numbers (.error .chainTooLong) = .error .chainTooLong :=
  ite_self _

theorem listSector_of_not_inside {lba : Nat} (outside : ¬ volume.Inside lba)
    (limit : Nat) (visited : List Nat) (steps index : Nat) :
    volume.listSector limit lba visited steps index = throw .shortRead := by
  rw [listSector, slice_of_not_inside outside]

/-- A sector of a directory lists its slots, and then what its pointer leads to. -/
theorem listSector_of_inside {lba : Nat} (inside : volume.Inside lba)
    (limit : Nat) (visited : List Nat) (steps index : Nat) :
    volume.listSector limit lba visited steps index
      = Walk.counted (.ok (volume.numbered index (volume.usedSlots lba)))
          (volume.usedSlots lba).length >>= fun here =>
        if (volume.link lba).isNull then pure here
        else
          match (volume.link lba).lba volume.geometry with
          | .error error => throw error
          | .ok next => do
            let more ← volume.listSectors limit next (lba :: visited) steps (index + here.length)
            return here ++ more := by
  rw [listSector, slice_of_inside inside]
  dsimp only
  rw [listSlots_eq_counted]
  rfl

/-- A run that comes to what some sectors with the given ending come to. -/
def Follows (volume : Volume) (progress : Progress) (index : Nat)
    (course : List Nat × Except MediaError Unit)
    (run : EStateM.Result MediaError Progress (List Entry)) : Prop :=
  Walk.Lands progress (volume.slotsOn course.1).length
    (volume.verdict progress index course.1 course.2) run

theorem follows_nil (error : MediaError) :
    volume.Follows progress index ([], .error error) (.error error progress) :=
  Walk.lands_error error

/-- The slots of a sector are listed first. -/
theorem follows_cons {lba : Nat} {numbers : List Nat} {ending : Except MediaError Unit}
    {next : List Entry → Walk (List Entry)}
    (onward : ∀ middle : Progress, Walk.Lands middle (volume.slotsOn numbers).length
      ((volume.verdict middle (index + (volume.usedSlots lba).length) numbers ending).map
        (volume.numbered index (volume.usedSlots lba) ++ ·))
      (next (volume.numbered index (volume.usedSlots lba)) middle)) :
    volume.Follows progress index (lba :: numbers, ending)
      ((Walk.counted (.ok (volume.numbered index (volume.usedSlots lba)))
        (volume.usedSlots lba).length >>= next) progress) := by
  let listed := { progress with count := progress.count + (volume.usedSlots lba).length }
  have whole := @verdict_cons volume progress listed index lba numbers ending rfl rfl
  unfold Follows
  rw [← whole, slotsOn_cons, List.length_append]
  apply Walk.lands_counted_bind
  intro middle _ bound count
  have same : volume.verdict listed (index + (volume.usedSlots lba).length) numbers ending
      = volume.verdict middle (index + (volume.usedSlots lba).length) numbers ending := by
    unfold verdict Progress.fits Progress.exceeded
    rw [bound, count]
  rw [same]
  exact onward middle

/-- One sector of a chain, given what comes of the sectors behind it. -/
theorem follows_listSector {limit lba steps room : Nat} {visited : List Nat}
    (fresh : lba ∉ visited)
    (rest : ∀ next index progress, volume.Follows progress index
      (volume.course room next (lba :: visited))
      (volume.listSectors limit next (lba :: visited) steps index progress)) :
    volume.Follows progress index (volume.course (room + 1) lba visited)
      (volume.listSector limit lba visited steps index progress) := by
  by_cases inside : volume.Inside lba
  case neg =>
    rw [course_of_not_inside fresh inside, listSector_of_not_inside inside]
    exact follows_nil _
  rw [listSector_of_inside inside]
  by_cases last : (volume.link lba).isNull = true
  · rw [course_of_null fresh inside last]
    apply follows_cons
    intro middle
    rw [if_pos last]
    change Walk.Lands middle 0 (.ok (_ ++ [])) _
    rw [List.append_nil]
    exact Walk.lands_ok _
  match leads : (volume.link lba).lba volume.geometry with
  | .error error =>
    rw [course_of_error fresh inside last leads]
    apply follows_cons
    intro middle
    rw [if_neg last]
    exact Walk.lands_error _
  | .ok next =>
    rw [course_of_next fresh inside last leads]
    apply follows_cons
    intro middle
    rw [if_neg last, length_numbered]
    exact Walk.lands_map (rest next _ middle)

/-- The chain from a sector on comes to what its course comes to. -/
theorem follows_listSectors (volume : Volume) {limit steps room : Nat} (left : steps + room = limit)
    (lba : Nat) (visited : List Nat) (index : Nat) (progress : Progress) :
    volume.Follows progress index (volume.course room lba visited)
      (volume.listSectors limit lba visited steps index progress) := by
  induction room generalizing lba visited steps index progress with
  | zero =>
    rw [listSectors_eq]
    rcases (chainCounter progress limit steps).tick_cases with
      ⟨_, step⟩ | ⟨room, _⟩
    · rw [step]
      exact follows_nil .chainTooLong
    · have within : ¬ limit < steps + 1 := of_decide_eq_false room
      omega
  | succ room ih =>
    rw [listSectors_eq]
    rcases (chainCounter progress limit steps).tick_cases with
      ⟨full, _⟩ | ⟨_, signals, follows, ⟨stopped, step⟩ | ⟨clear, step⟩⟩
    · have beyond : limit < steps + 1 := of_decide_eq_true full
      omega
    · rw [step]
      exact ⟨{ progress with signals }, follows, Nat.le_add_right _ _, .inl ⟨stopped, rfl⟩⟩
    · rw [step]
      dsimp only
      let on : Progress := { progress with signals }
      have behind : volume.Follows on index (volume.course (room + 1) lba visited)
          (if lba ∈ visited then .error .chainLoop on
            else volume.listSector limit lba visited (steps + 1) index on) := by
        by_cases loop : lba ∈ visited
        · rw [if_pos loop, course_of_visited loop]
          exact follows_nil _
        · rw [if_neg loop]
          apply follows_listSector loop
          intro next index progress
          exact ih (by omega) next (lba :: visited) index progress
      have landed : Walk.Lands progress (0 + _) _ _ := behind.behind follows clear rfl
      rw [Nat.zero_add] at landed
      exact landed

theorem entries_follows (volume : Volume) (progress : Progress) :
    volume.Follows progress 1
      (volume.course progress.limits.maxChainBlocks volume.rootDirectory [])
      (volume.entries progress) := by
  exact volume.follows_listSectors (Nat.zero_add _) volume.rootDirectory [] 1 progress

end RetroMedia.HardDisk.Volume
