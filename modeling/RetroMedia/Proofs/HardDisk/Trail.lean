import Mathlib.Data.List.Chain
import Mathlib.Data.List.Perm.Subperm
import Mathlib.Data.List.TakeDrop
import Mathlib.Logic.Relation
import RetroMedia.Proofs.Disk.SectorImage
import RetroMedia.Proofs.HardDisk.Course

/-! Directories as chains of links. The pointers at the ends of directory sectors make a graph, in
which an address of either form leads to the same sector. Main statement: a directory is listed
exactly where its links come to an end, and then as the slots in use along them; where they run into
a ring it is refused. -/
namespace RetroMedia.HardDisk

/-! ## Disks of given directory sectors

Their boot sector is its own partition table, and their only native partition begins with the disk, so
that the directory begins at sector 2. -/

/-- Some bytes, filled up with zeros to a sector. -/
def sectorOf (bytes : Bytes) : Bytes := bytes.takeD sectorSize 0

/-- A slot with a name, a size, a data pointer and attributes. -/
def slotOf (name : String) (size : UInt8) (pointer : Bytes) (attributes : UInt8) : Bytes :=
  name.toUTF8.data.toList.takeD 8 0x20 ++ [size, 0, 0, 0] ++ pointer.takeD 4 0 ++ [attributes]

/-- A directory sector of some slots, with the pointer at its end. -/
def directoryOf (slots : List Bytes) (pointer : Bytes) : Bytes :=
  (slots.flatMap (·.takeD slotSize 0)).takeD nextDirectoryOffset 0 ++ pointer.takeD 4 0

/-- One head, sixteen sectors to a track, and a native partition at the first sector. -/
def bootSector : Bytes :=
  sectorOf ((signature ++ [0, 0x80, 0, 0, 0, 1, 16]).takeD slotSize 0
    ++ nativeKind :: ("WORK".toUTF8.data.toList.takeD 16 0 ++ [0x80, 0, 0, 0]))

/-- A disk with directory sectors from sector 2 on. -/
def sectorsOf (directory : List Bytes) : List Bytes := bootSector :: [] :: directory

def diskOf (directory : List Bytes) : Container :=
  .ofBytes ((sectorsOf directory).flatMap sectorOf)

def volumeOf (directory : List Bytes) : Volume where
  container := diskOf directory
  geometry := ⟨1, 16⟩
  partitions := Volume.partitionsOf bootSector
  active := Partition.ofSlot 1 (Bytes.field bootSector slotSize slotSize)
  rootDirectory := rootDirectorySector

variable {directory : List Bytes} {lba : Nat} {sector : Bytes}

theorem length_sectorOf (bytes : Bytes) : (sectorOf bytes).length = sectorSize :=
  List.takeD_length sectorSize bytes 0

/-- Each sector can be read where its number says. -/
theorem slice_diskOf (here : (sectorsOf directory)[lba]? = some sector) :
    (diskOf directory).slice (lba * sectorSize) sectorSize = .ok (sectorOf sector) := by
  obtain ⟨before, after, split, place⟩ := Disk.flatMap_split length_sectorOf here
  have whole : (diskOf directory).toBytes = before ++ (sectorOf sector ++ after) := split
  have read := Container.slice_of_split whole
  rwa [place, length_sectorOf] at read

namespace Volume

theorem inside_volumeOf (here : (sectorsOf directory)[lba]? = some sector) :
    (volumeOf directory).Inside lba :=
  Container.slice_eq_ok_iff.1 ⟨_, slice_diskOf here⟩

theorem stored_volumeOf (here : (sectorsOf directory)[lba]? = some sector) :
    (volumeOf directory).stored lba = sectorOf sector :=
  Except.ok.inj ((slice_of_inside (inside_volumeOf here)).symm.trans (slice_diskOf here))

theorem link_volumeOf (here : (sectorsOf directory)[lba]? = some sector) :
    (volumeOf directory).link lba
      = Pointer.ofBytes ((sectorOf sector).drop nextDirectoryOffset) := by
  rw [link, stored_volumeOf here]

theorem usedSlots_volumeOf (here : (sectorsOf directory)[lba]? = some sector) :
    (volumeOf directory).usedSlots lba
      = (Bytes.records (sectorOf sector) slotSize).filter used := by
  rw [usedSlots, stored_volumeOf here]

theorem sectorOf_bootSector : sectorOf bootSector = bootSector := by decide +kernel

/-- A disk opens where its boot sector leads to a table with a native partition. -/
theorem open_of_boot {container : Container} {boot table : Bytes} {number start : Nat}
    {active : Partition} (read : container.slice 0 sectorSize = .ok boot)
    (signed : (boot.take signature.length != signature) = false)
    (linked : (Pointer.ofBytes (boot.drop 0x08)).isNull = false)
    (leads : (Pointer.ofBytes (boot.drop 0x08)).lba ⟨boot.byte 0x0C, boot.byte 0x0D⟩ = .ok number)
    (found : container.slice (number * sectorSize) sectorSize = .ok table)
    (native : (partitionsOf table).find? (·.kind == nativeKind) = some active)
    (begins : active.start.lba ⟨boot.byte 0x0C, boot.byte 0x0D⟩ = .ok start) :
    Volume.open container = .ok {
      container, active
      geometry := ⟨boot.byte 0x0C, boot.byte 0x0D⟩
      partitions := partitionsOf table
      rootDirectory := start + rootDirectorySector } := by
  unfold Volume.open
  simp only [bind, Except.bind, read, signed, linked, leads, found, native, begins,
    Bool.false_eq_true, if_false, pure, Except.pure]

theorem open_diskOf (directory : List Bytes) :
    Volume.open (diskOf directory) = .ok (volumeOf directory) := by
  have boot : (diskOf directory).slice (0 * sectorSize) sectorSize = .ok bootSector :=
    (slice_diskOf rfl).trans (congrArg Except.ok sectorOf_bootSector)
  have leads : (Pointer.ofBytes (bootSector.drop 0x08)).lba
      ⟨Bytes.byte bootSector 0x0C, Bytes.byte bootSector 0x0D⟩ = .ok 0 := by decide +kernel
  have native : (partitionsOf bootSector).find? (·.kind == nativeKind)
      = some (Partition.ofSlot 1 (Bytes.field bootSector slotSize slotSize)) := by decide +kernel
  have begins : (Partition.ofSlot 1 (Bytes.field bootSector slotSize slotSize)).start.lba
      ⟨Bytes.byte bootSector 0x0C, Bytes.byte bootSector 0x0D⟩ = .ok 0 := by decide +kernel
  exact open_of_boot boot (by decide +kernel) (by decide +kernel) leads boot native begins

end Volume

end RetroMedia.HardDisk

namespace RetroMedia.HardDisk.Volume

/-- The pointer at the end of one sector leads to the other one. -/
structure LeadsTo (volume : Volume) (lba next : Nat) : Prop where
  inside : volume.Inside lba
  linked : (volume.link lba).isNull = false
  resolved : (volume.link lba).lba volume.geometry = .ok next

/-- Different sectors of the container, from the root directory on along the links. -/
structure Path (volume : Volume) (numbers : List Nat) : Prop where
  root : numbers.head? = some volume.rootDirectory
  links : numbers.IsChain volume.LeadsTo
  distinct : numbers.Nodup
  inside : ∀ lba ∈ numbers, volume.Inside lba

/-- A path of at most `limit` sectors to a sector that leads nowhere. -/
structure Trail (volume : Volume) (limit : Nat) (numbers : List Nat) : Prop
    extends volume.Path numbers where
  short : numbers.length ≤ limit
  closed : ∀ lba ∈ numbers.getLast?, (volume.link lba).isNull = true

/-- A path to a sector that leads back to one of its sectors. -/
structure Ring (volume : Volume) (numbers : List Nat) : Prop extends volume.Path numbers where
  back : ∀ lba ∈ numbers.getLast?, ∃ next ∈ numbers, volume.LeadsTo lba next

/-- What lies ahead of a walk that has visited some sectors: sectors of the container not visited so
far, each of which leads to the one behind it. -/
structure Ahead (volume : Volume) (visited numbers : List Nat) : Prop where
  links : numbers.IsChain volume.LeadsTo
  distinct : numbers.Nodup
  inside : ∀ lba ∈ numbers, volume.Inside lba
  fresh : ∀ lba ∈ numbers, lba ∉ visited

variable {volume : Volume} {lba next : Nat} {visited numbers : List Nat}

theorem Path.ahead (path : volume.Path numbers) : volume.Ahead [] numbers :=
  ⟨path.links, path.distinct, path.inside, fun _ _ => List.not_mem_nil⟩

theorem ahead_cons_iff :
    volume.Ahead visited (lba :: numbers)
      ↔ lba ∉ visited ∧ volume.Inside lba ∧ (∀ next ∈ numbers.head?, volume.LeadsTo lba next) ∧
        volume.Ahead (lba :: visited) numbers := by
  constructor
  · rintro ⟨links, distinct, inside, fresh⟩
    rw [List.isChain_cons] at links
    rw [List.nodup_cons] at distinct
    rw [List.forall_mem_cons] at inside fresh
    refine ⟨fresh.1, inside.1, links.1, links.2, distinct.2, inside.2, ?_⟩
    intro other member again
    rcases List.mem_cons.1 again with rfl | old
    · exact distinct.1 member
    · exact fresh.2 other member old
  · rintro ⟨here, hold, leads, links, distinct, inside, fresh⟩
    refine ⟨List.isChain_cons.2 ⟨leads, links⟩, List.nodup_cons.2 ⟨?_, distinct⟩,
      List.forall_mem_cons.2 ⟨hold, inside⟩, List.forall_mem_cons.2 ⟨here, ?_⟩⟩
    · intro again
      exact fresh lba again List.mem_cons_self
    · intro other member old
      exact fresh other member (List.mem_cons_of_mem _ old)

theorem course_of_leadsTo {room : Nat} (fresh : lba ∉ visited) (leads : volume.LeadsTo lba next) :
    volume.course (room + 1) lba visited
      = (lba :: (volume.course room next (lba :: visited)).1,
          (volume.course room next (lba :: visited)).2) :=
  course_of_next fresh leads.inside (by simp [leads.linked]) leads.resolved

/-- The course runs along what lies ahead, as far as there is room for it. -/
theorem course_of_ahead {room : Nat} {more : List Nat}
    (ahead : volume.Ahead visited (lba :: more))
    (leads : ∀ last ∈ (lba :: more).getLast?, volume.LeadsTo last next) :
    volume.course (more.length + 1 + room) lba visited
      = (lba :: more ++ (volume.course room next ((lba :: more).reverse ++ visited)).1,
          (volume.course room next ((lba :: more).reverse ++ visited)).2) := by
  induction more generalizing lba visited with
  | nil =>
    have fresh := (ahead_cons_iff.1 ahead).1
    have here := leads lba rfl
    rw [List.length_nil, Nat.zero_add, Nat.add_comm 1 room, course_of_leadsTo fresh here]
    rfl
  | cons second more ih =>
    obtain ⟨fresh, _, link, rest⟩ := ahead_cons_iff.1 ahead
    have here := link second rfl
    have later := ih rest (by simpa using leads)
    rw [List.length_cons, Nat.add_right_comm _ 1 room, course_of_leadsTo fresh here, later]
    simp

theorem course_of_closed {room : Nat} {more : List Nat}
    (ahead : volume.Ahead visited (lba :: more)) (short : (lba :: more).length ≤ room)
    (closed : ∀ last ∈ (lba :: more).getLast?, (volume.link last).isNull = true) :
    volume.course room lba visited = (lba :: more, .ok ()) := by
  obtain ⟨room, rfl⟩ : ∃ before, room = before + 1 := ⟨room - 1, by simp at short; omega⟩
  induction more generalizing lba visited room with
  | nil =>
    obtain ⟨fresh, inside, -, -⟩ := ahead_cons_iff.1 ahead
    exact course_of_null fresh inside (closed lba rfl)
  | cons second more ih =>
    obtain ⟨fresh, _, link, rest⟩ := ahead_cons_iff.1 ahead
    obtain ⟨room, rfl⟩ : ∃ before, room = before + 1 := ⟨room - 1, by simp at short; omega⟩
    have later := ih rest (by simpa using closed) room (by simpa using short)
    rw [course_of_leadsTo fresh (link second rfl), later]

/-- A course that comes to its end has kept to its links. -/
theorem ahead_of_course {room : Nat} (done : volume.course room lba visited = (numbers, .ok ())) :
    numbers.head? = some lba ∧ volume.Ahead visited numbers ∧ numbers.length ≤ room ∧
      ∀ last ∈ numbers.getLast?, (volume.link last).isNull = true := by
  induction room generalizing lba visited numbers with
  | zero => cases done
  | succ room ih =>
    by_cases loop : lba ∈ visited
    · cases (course_of_visited loop).symm.trans done
    by_cases inside : volume.Inside lba
    case neg => cases (course_of_not_inside loop inside).symm.trans done
    by_cases last : (volume.link lba).isNull = true
    · rw [course_of_null loop inside last] at done
      cases done
      refine ⟨rfl, ahead_cons_iff.2 ⟨loop, inside, by simp, ⟨.nil, .nil, ?_, ?_⟩⟩, by simp, ?_⟩
      · intro _ never
        cases never
      · intro _ never
        cases never
      · rintro _ ⟨⟩
        exact last
    match leads : (volume.link lba).lba volume.geometry with
    | .error error => cases (course_of_error loop inside last leads).symm.trans done
    | .ok next =>
      rw [course_of_next loop inside last leads] at done
      cases rest : volume.course room next (lba :: visited) with
      | mk more ending =>
        rw [rest] at done
        cases done
        obtain ⟨head, ahead, short, closed⟩ := ih rest
        have link : ∀ second ∈ more.head?, volume.LeadsTo lba second := by
          intro second here
          rw [head] at here
          cases here
          exact ⟨inside, Bool.eq_false_iff.2 last, leads⟩
        refine ⟨rfl, ahead_cons_iff.2 ⟨loop, inside, link, ahead⟩, Nat.succ_le_succ short, ?_⟩
        cases more with
        | nil => cases head
        | cons second more => simpa using closed

theorem course_eq_ok_iff {limit : Nat} :
    volume.course limit volume.rootDirectory [] = (numbers, .ok ()) ↔ volume.Trail limit numbers := by
  constructor
  · intro done
    obtain ⟨head, ahead, short, closed⟩ := ahead_of_course done
    exact ⟨⟨head, ahead.links, ahead.distinct, ahead.inside⟩, short, closed⟩
  · intro trail
    cases numbers with
    | nil => cases trail.root
    | cons first more =>
      cases trail.root
      exact course_of_closed trail.ahead trail.short trail.closed

/-- Where there is more ahead than room for it, the course is cut off. -/
theorem course_of_cut {room : Nat} {more : List Nat} (ahead : volume.Ahead visited (lba :: more))
    (leads : ∀ last ∈ (lba :: more).getLast?, ∃ next, volume.LeadsTo last next)
    (long : room ≤ (lba :: more).length) :
    volume.course room lba visited = ((lba :: more).take room, .error .chainTooLong) := by
  induction more generalizing lba visited room with
  | nil =>
    cases room with
    | zero => rfl
    | succ room =>
      obtain ⟨next, here⟩ := leads lba rfl
      obtain rfl : room = 0 := by simpa using long
      rw [course_of_leadsTo (ahead_cons_iff.1 ahead).1 here]
      rfl
  | cons second more ih =>
    cases room with
    | zero => rfl
    | succ room =>
      obtain ⟨fresh, _, link, rest⟩ := ahead_cons_iff.1 ahead
      have later := ih rest (by simpa using leads) (Nat.le_of_succ_le_succ long)
      rw [course_of_leadsTo fresh (link second rfl), later, List.take_succ_cons]

/-- The course along a ring ends where it closes, or sooner where there is no room for it. -/
theorem course_of_ring {limit : Nat} (ring : volume.Ring numbers) :
    volume.course limit volume.rootDirectory []
      = if numbers.length < limit then (numbers, .error .chainLoop)
        else (numbers.take limit, .error .chainTooLong) := by
  cases numbers with
  | nil => cases ring.root
  | cons first more =>
    cases ring.root
    have ahead := ring.ahead
    by_cases room : (volume.rootDirectory :: more).length < limit
    · obtain ⟨last, here⟩ : ∃ last, (volume.rootDirectory :: more).getLast? = some last :=
        ⟨_, List.getLast?_eq_some_getLast (List.cons_ne_nil _ _)⟩
      obtain ⟨next, again, leads⟩ := ring.back last here
      have onward : ∀ other ∈ (volume.rootDirectory :: more).getLast?,
          volume.LeadsTo other next := by
        intro other found
        rw [here] at found
        cases found
        exact leads
      obtain ⟨left, rfl⟩ : ∃ left, limit = more.length + 1 + (left + 1) :=
        ⟨limit - (more.length + 2), by simp at room; omega⟩
      have visited : next ∈ (volume.rootDirectory :: more).reverse ++ [] :=
        List.mem_append_left _ (List.mem_reverse.2 again)
      rw [if_pos room, course_of_ahead ahead onward, course_of_visited visited, List.append_nil]
    · rw [if_neg room]
      apply course_of_cut ahead _ (Nat.not_lt.1 room)
      intro last here
      obtain ⟨next, _, leads⟩ := ring.back last here
      exact ⟨next, leads⟩

/-- A sector that leads into a cycle leads to one that does. -/
theorem next_of_cycle (cycle : Relation.TransGen volume.LeadsTo next next)
    (onward : Relation.TransGen volume.LeadsTo lba next) :
    ∃ other, volume.LeadsTo lba other ∧ Relation.TransGen volume.LeadsTo other next := by
  obtain ⟨other, leads, rest⟩ := Relation.TransGen.head'_iff.1 onward
  exact ⟨other, leads, cycle.trans_right rest⟩

/-- The sectors of a path are too many for the container beyond its size. -/
theorem Path.length_le (path : volume.Path numbers) : numbers.length ≤ volume.container.size := by
  have small : numbers ⊆ List.range volume.container.size := by
    intro lba member
    have inside := path.inside lba member
    unfold Inside sectorSize at inside
    exact List.mem_range.2 (by omega)
  simpa using (List.subperm_of_subset path.distinct small).length_le

/-- Links that run into a cycle anywhere make a ring. -/
theorem exists_ring (reached : Relation.ReflTransGen volume.LeadsTo volume.rootDirectory lba)
    (cycle : Relation.TransGen volume.LeadsTo lba lba) : ∃ numbers, volume.Ring numbers := by
  -- As long as no path closes, there is a longer one.
  have longer : ∀ length, (∃ numbers, volume.Ring numbers) ∨
      ∃ numbers last, volume.Path numbers ∧ numbers.length = length + 1 ∧
        numbers.getLast? = some last ∧ Relation.TransGen volume.LeadsTo last lba := by
    intro length
    induction length with
    | zero =>
      have onward := cycle.trans_right reached
      obtain ⟨next, leads, _⟩ := next_of_cycle cycle onward
      refine .inr ⟨[volume.rootDirectory], volume.rootDirectory, ⟨rfl, .singleton _, by simp, ?_⟩,
        rfl, rfl, onward⟩
      intro other member
      cases List.mem_singleton.1 member
      exact leads.inside
    | succ length ih =>
      obtain closed | ⟨numbers, last, path, size, here, onward⟩ := ih
      · exact .inl closed
      obtain ⟨next, leads, rest⟩ := next_of_cycle cycle onward
      by_cases again : next ∈ numbers
      · refine .inl ⟨numbers, path, ?_⟩
        intro other found
        rw [here] at found
        cases found
        exact ⟨next, again, leads⟩
      · obtain ⟨after, further, _⟩ := next_of_cycle cycle rest
        refine .inr ⟨numbers ++ [next], next, ⟨?_, ?_, ?_, ?_⟩, by simp [size], by simp, rest⟩
        · rw [List.head?_append, path.root]
          rfl
        · refine List.isChain_append.2 ⟨path.links, .singleton _, ?_⟩
          rintro other found _ ⟨⟩
          rw [here] at found
          cases found
          exact leads
        · simpa [List.nodup_append] using ⟨path.distinct, fun other member same => again (same ▸ member)⟩
        · intro other member
          rcases List.mem_append.1 member with old | new
          · exact path.inside other old
          · cases List.mem_singleton.1 new
            exact further.inside
  rcases longer volume.container.size with closed | ⟨numbers, _, path, size, _⟩
  · exact closed
  · have := path.length_le
    omega

theorem length_slotsOn_take_le (numbers : List Nat) (limit : Nat) :
    (volume.slotsOn (numbers.take limit)).length ≤ (volume.slotsOn numbers).length := by
  conv_rhs => rw [← List.take_append_drop limit numbers, slotsOn, List.flatMap_append,
    List.length_append]
  exact Nat.le_add_right _ _

/-- A directory that is listed at all is listed along a trail. Along a trail it comes to one entry for
each slot in use, numbered in order, which describes the slot, unless the counter has no room for all of
them; along a ring it comes to an error, before which no slot has been counted twice. Links that run
into a cycle make a ring. -/
theorem entries_along_links (volume : Volume) (progress : Progress) :
    (∀ table after, volume.entries progress = .ok table after →
      ∃ numbers, volume.Trail progress.limits.maxChainBlocks numbers ∧
        volume.Lists (volume.slotsOn numbers) table) ∧
    (∀ numbers, volume.Trail progress.limits.maxChainBlocks numbers →
      ∃ table, volume.Lists (volume.slotsOn numbers) table ∧
        Walk.Lands progress (volume.slotsOn numbers).length
          (if progress.fits (volume.slotsOn numbers).length then .ok table else .error .chainTooLong)
          (volume.entries progress)) ∧
    (∀ numbers, volume.Ring numbers →
      Walk.Lands progress (volume.slotsOn numbers).length
        (if numbers.length < progress.limits.maxChainBlocks
            ∧ progress.fits (volume.slotsOn numbers).length
          then .error .chainLoop else .error .chainTooLong)
        (volume.entries progress)) ∧
    (∀ lba, Relation.ReflTransGen volume.LeadsTo volume.rootDirectory lba →
      Relation.TransGen volume.LeadsTo lba lba → ∃ numbers, volume.Ring numbers) := by
  have follows := volume.entries_follows progress
  refine ⟨?_, ?_, ?_, fun _ reached cycle => exists_ring reached cycle⟩
  · intro table after listed
    cases same : volume.course progress.limits.maxChainBlocks volume.rootDirectory [] with
    | mk numbers ending =>
      rw [same, listed] at follows
      obtain ⟨_, _, _, ⟨_, never⟩ | ⟨_, found⟩⟩ := follows
      · cases never
      cases come : volume.verdict progress 1 numbers ending with
      | error error =>
        rw [come] at found
        cases found
      | ok table =>
        rw [come] at found
        cases found
        obtain ⟨rfl, rfl⟩ := verdict_eq_ok come
        exact ⟨numbers, course_eq_ok_iff.1 same, lists_numbered volume _⟩
  · intro numbers trail
    rw [course_eq_ok_iff.2 trail] at follows
    exact ⟨_, lists_numbered volume _, follows⟩
  · intro numbers ring
    rw [course_of_ring ring] at follows
    by_cases room : numbers.length < progress.limits.maxChainBlocks
    · rw [if_pos room] at follows
      simp only [room, true_and]
      exact follows
    · rw [if_neg room, Follows, verdict_chainTooLong] at follows
      rw [if_neg fun both => room both.1]
      exact follows.mono (length_slotsOn_take_le numbers _)

/-- A directory along a trail that no flag can end is listed. -/
theorem entries_of_trail {progress : Progress} (calm : progress.signals.Calm)
    (trail : volume.Trail progress.limits.maxChainBlocks numbers)
    (fits : progress.fits (volume.slotsOn numbers).length = true) :
    ∃ after, volume.entries progress
      = .ok (volume.numbered 1 (volume.slotsOn numbers)) after := by
  have follows := volume.entries_follows progress
  rw [course_eq_ok_iff.2 trail, Follows, verdict, if_pos fits] at follows
  obtain ⟨after, _, _, ⟨stopped, _⟩ | ⟨_, listed⟩⟩ := follows
  · exact absurd stopped calm.not_interrupted
  · exact ⟨after, listed⟩

theorem leadsTo_volumeOf {directory : List Bytes} {sector : Bytes}
    (here : (sectorsOf directory)[lba]? = some sector)
    (linked : (Pointer.ofBytes ((sectorOf sector).drop nextDirectoryOffset)).isNull = false)
    (resolved : (Pointer.ofBytes ((sectorOf sector).drop nextDirectoryOffset)).lba ⟨1, 16⟩
      = .ok next) : (volumeOf directory).LeadsTo lba next := by
  refine ⟨inside_volumeOf here, ?_, ?_⟩
  · rw [link_volumeOf here, linked]
  · rw [link_volumeOf here]
    exact resolved

/-- Two directory sectors of which the first leads to the second by its number. -/
def pairedSectors (back : Bytes) : List Bytes :=
  [directoryOf [slotOf "FIRST" 0 [] 0x02] [0x80, 3, 0, 0],
    directoryOf [slotOf "SECOND" 0 [] 0x02] back]

theorem path_pairedSectors (back : Bytes) : (volumeOf (pairedSectors back)).Path [2, 3] := by
  have leads : (volumeOf (pairedSectors back)).LeadsTo 2 3 :=
    leadsTo_volumeOf rfl (by decide +kernel) (by decide +kernel)
  refine ⟨rfl, .cons_cons leads (.singleton _), by decide, ?_⟩
  intro lba member
  rcases List.mem_cons.1 member with rfl | second
  · exact leads.inside
  · cases List.mem_singleton.1 second
    exact inside_volumeOf rfl

/-- The second sector leads back to the first one by cylinder, head and sector. -/
theorem ring_pairedSectors : (volumeOf (pairedSectors [0, 0, 0, 3])).Ring [2, 3] := by
  refine ⟨path_pairedSectors _, ?_⟩
  rintro _ ⟨⟩
  exact ⟨2, by decide, leadsTo_volumeOf rfl (by decide +kernel) (by decide +kernel)⟩

theorem trail_pairedSectors {limit : Nat} (room : 2 ≤ limit) :
    (volumeOf (pairedSectors [])).Trail limit [2, 3] := by
  refine ⟨path_pairedSectors _, room, ?_⟩
  rintro _ ⟨⟩
  have second : (sectorsOf (pairedSectors []))[3]?
      = some (directoryOf [slotOf "SECOND" 0 [] 0x02] []) := rfl
  have link := link_volumeOf second
  change ((volumeOf (pairedSectors [])).link 3).isNull = true
  rw [link]
  decide +kernel

/-- Each of the two sectors has one slot in use. -/
theorem slotsOn_pairedSectors :
    (volumeOf (pairedSectors [])).slotsOn [2, 3]
      = [(slotOf "FIRST" 0 [] 0x02).takeD slotSize 0, (slotOf "SECOND" 0 [] 0x02).takeD slotSize 0] := by
  have first := @usedSlots_volumeOf (pairedSectors []) 2 _ rfl
  have second := @usedSlots_volumeOf (pairedSectors []) 3 _ rfl
  rw [slotsOn_cons, slotsOn_cons, first, second]
  decide +kernel

/-- Two directory sectors are listed where the second leads nowhere, and refused where it leads back. -/
theorem entries_along_links_of_pairedSectors :
    (∃ table after, (volumeOf (pairedSectors [])).entries {} = .ok table after ∧
      table.map Entry.index = [1, 2] ∧ table.map Entry.name = ["FIRST", "SECOND"]) ∧
    ∃ after, (volumeOf (pairedSectors [0, 0, 0, 3])).entries {} = .error .chainLoop after := by
  have calm : ∀ after, ¬ Signals.quiet.Interrupted after := fun _ =>
    Signals.calm_quiet.not_interrupted
  constructor
  · obtain ⟨table, lists, after, _, _, ⟨stopped, _⟩ | ⟨_, listed⟩⟩ :=
      ((volumeOf (pairedSectors [])).entries_along_links {}).2.1 [2, 3]
        (trail_pairedSectors (by decide))
    · exact absurd stopped (calm _)
    rw [if_pos (Progress.fits_of_unbounded rfl _)] at listed
    refine ⟨table, after, listed, ?_⟩
    rw [slotsOn_pairedSectors] at lists
    obtain ⟨first, second, rfl⟩ := List.length_eq_two.1 lists.length
    obtain ⟨_, here, one, describes⟩ := lists.entry 0 _ rfl
    cases here
    obtain ⟨_, here, two, describes'⟩ := lists.entry 1 _ rfl
    cases here
    simp only [List.map_cons, List.map_nil]
    rw [one, two, describes.name, describes'.name, holds_iff.1 describes.rawName,
      holds_iff.1 describes'.rawName]
    exact ⟨rfl, by decide +kernel⟩
  · obtain ⟨after, _, _, ⟨stopped, _⟩ | ⟨_, refused⟩⟩ :=
      ((volumeOf (pairedSectors [0, 0, 0, 3])).entries_along_links {}).2.2.1 [2, 3]
        ring_pairedSectors
    · exact absurd stopped (calm _)
    · rw [if_pos ⟨by decide, Progress.fits_of_unbounded rfl _⟩] at refused
      exact ⟨after, refused⟩

end RetroMedia.HardDisk.Volume
