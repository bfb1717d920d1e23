import Mathlib.Algebra.Group.Nat.Defs
import Mathlib.Data.Prod.Lex
import RetroMedia.Proofs.Checked.HardDisk

/-! Places on a drive. Its sectors are counted through: those of a track one after the other, the
tracks of a cylinder head by head, and the cylinders one after the other. Main statement: the places
that a drive has are numbered in their order and without a gap, and no number that a pointer leads to
is too large for what is computed from it. -/
namespace RetroMedia.HardDisk

/-- The cylinder, the head and the sector of a pointer that is no plain number, in the order of their
weight. -/
def Pointer.place (pointer : Pointer) : ℕ ×ₗ ℕ ×ₗ ℕ :=
  toLex (pointer.first.toNat, toLex (pointer.second.toNat, pointer.third.toNat))

/-- The drive has the head and, counting from one, the sector that a pointer names. -/
structure DriveGeometry.Has (geometry : DriveGeometry) (pointer : Pointer) : Prop where
  head : pointer.second.toNat < geometry.heads.toNat
  counted : 1 ≤ pointer.third.toNat
  sector : pointer.third.toNat ≤ geometry.sectorsPerTrack.toNat

/-- How many sectors all the cylinders have that a byte can number. -/
def DriveGeometry.sectors (geometry : DriveGeometry) : Nat :=
  256 * geometry.heads.toNat * geometry.sectorsPerTrack.toNat

namespace Pointer

variable {geometry : DriveGeometry} {pointer other : Pointer}

/-- How many tracks come before that of a pointer. -/
def tracksBefore (pointer : Pointer) (geometry : DriveGeometry) : Nat :=
  pointer.first.toNat * geometry.heads.toNat + pointer.second.toNat

/-- How many sectors come before that of a pointer. -/
def sectorsBefore (pointer : Pointer) (geometry : DriveGeometry) : Nat :=
  pointer.tracksBefore geometry * geometry.sectorsPerTrack.toNat + (pointer.third.toNat - 1)

theorem lba_of_direct (direct : pointer.isDirect = true) :
    pointer.lba geometry
      = .ok (pointer.third.toBitVec ++ pointer.second.toBitVec ++ pointer.first.toBitVec).toNat := by
  have first := pointer.first.toNat_lt
  have second := pointer.second.toNat_lt
  rw [lba, if_pos direct, BitVec.toNat_append, BitVec.toNat_append]
  simp only [UInt8.toNat_toBitVec]
  rw [← Nat.shiftLeft_add_eq_or_of_lt second, ← Nat.shiftLeft_add_eq_or_of_lt first,
    Nat.shiftLeft_eq, Nat.shiftLeft_eq]
  simp only [Bytes.littleEndian, Except.ok.injEq]
  omega

theorem lba_of_place (placed : pointer.isDirect = false) :
    pointer.lba geometry = if pointer.third == 0 || geometry.sectorsPerTrack < pointer.third
        || geometry.heads ≤ pointer.second then .error .invalidLocation
      else .ok (pointer.sectorsBefore geometry) :=
  if_neg (Bool.eq_false_iff.1 placed)

theorem has_iff : geometry.Has pointer ↔
    ¬ (pointer.third == 0 || geometry.sectorsPerTrack < pointer.third
      || geometry.heads ≤ pointer.second) = true := by
  simp only [Bool.or_eq_true, beq_iff_eq, decide_eq_true_eq, not_or, ← UInt8.toNat_inj,
    UInt8.lt_iff_toNat_lt, UInt8.le_iff_toNat_le, UInt8.toNat_zero]
  constructor
  · rintro ⟨head, counted, sector⟩
    omega
  · rintro ⟨⟨counted, sector⟩, head⟩
    exact ⟨by omega, by omega, by omega⟩

theorem lba_eq_ok_iff (placed : pointer.isDirect = false) {number : Nat} :
    pointer.lba geometry = .ok number ↔
      geometry.Has pointer ∧ pointer.sectorsBefore geometry = number := by
  rw [lba_of_place placed, has_iff]
  split
  · rename_i missing
    constructor
    · rintro ⟨⟩
    · rintro ⟨has, _⟩
      exact absurd missing has
  · rename_i has
    rw [Except.ok.injEq]
    exact (and_iff_right has).symm

/-- What counts on behind a lower number stays below what the next one begins with. -/
theorem mul_add_lt {high next low count : Nat} (below : high < next) (few : low < count) :
    high * count + low < next * count := by
  calc high * count + low < high * count + count := Nat.add_lt_add_left few _
    _ = (high + 1) * count := (Nat.succ_mul high count).symm
    _ ≤ next * count := Nat.mul_le_mul_right count below

/-- Every number below the end is what some number of a step counts on to. -/
theorem exists_mul_add {number next count : Nat} (small : number < next * count) :
    ∃ high low, high < next ∧ low < count ∧ high * count + low = number := by
  have some : 0 < count := Nat.pos_of_mul_pos_left (Nat.zero_lt_of_lt small)
  exact ⟨number / count, number % count, (Nat.div_lt_iff_lt_mul some).2 small, Nat.mod_lt _ some,
    Nat.div_add_mod' number count⟩

theorem tracksBefore_lt (has : geometry.Has pointer) :
    pointer.tracksBefore geometry < 256 * geometry.heads.toNat :=
  mul_add_lt pointer.first.toNat_lt has.head

theorem sectorsBefore_lt (has : geometry.Has pointer) :
    pointer.sectorsBefore geometry < geometry.sectors :=
  mul_add_lt (tracksBefore_lt has) (by have counted := has.counted; have sector := has.sector; omega)

theorem place_lt_iff : pointer.place < other.place ↔
    pointer.first.toNat < other.first.toNat ∨ pointer.first.toNat = other.first.toNat ∧
      (pointer.second.toNat < other.second.toNat ∨ pointer.second.toNat = other.second.toNat ∧
        pointer.third.toNat < other.third.toNat) := by
  simp only [place, Prod.Lex.toLex_lt_toLex]

/-- Sectors are counted in the order of their places. -/
theorem sectorsBefore_lt_of_place_lt (has : geometry.Has pointer)
    (before : pointer.place < other.place) :
    pointer.sectorsBefore geometry < other.sectorsBefore geometry := by
  have counted := has.counted
  have sector := has.sector
  have onTrack : pointer.third.toNat - 1 < geometry.sectorsPerTrack.toNat := by omega
  have later (tracks : pointer.tracksBefore geometry < other.tracksBefore geometry) :
      pointer.sectorsBefore geometry < other.sectorsBefore geometry :=
    Nat.lt_add_right _ (mul_add_lt tracks onTrack)
  rcases place_lt_iff.1 before with cylinder | ⟨cylinder, head | ⟨head, behind⟩⟩
  · exact later (Nat.lt_add_right _ (mul_add_lt cylinder has.head))
  · apply later
    rw [tracksBefore, tracksBefore, cylinder]
    exact Nat.add_lt_add_left head _
  · rw [sectorsBefore, sectorsBefore, tracksBefore, tracksBefore, cylinder, head]
    omega

theorem sectorsBefore_le_iff (has : geometry.Has pointer) (has' : geometry.Has other) :
    pointer.sectorsBefore geometry ≤ other.sectorsBefore geometry ↔ pointer.place ≤ other.place := by
  constructor
  · intro order
    by_contra behind
    exact Nat.not_lt.2 order (sectorsBefore_lt_of_place_lt has' (not_le.1 behind))
  · intro order
    rcases order.lt_or_eq with before | same
    · exact Nat.le_of_lt (sectorsBefore_lt_of_place_lt has before)
    · simp only [place, toLex_inj, Prod.mk.injEq] at same
      rw [sectorsBefore, sectorsBefore, tracksBefore, tracksBefore, same.1, same.2.1, same.2.2]

/-- The place of any number is found by division. -/
theorem exists_place {number : Nat} (small : number < geometry.sectors) :
    ∃ pointer : Pointer, pointer.isDirect = false ∧ geometry.Has pointer ∧
      pointer.sectorsBefore geometry = number := by
  obtain ⟨track, sector, onDrive, onTrack, rfl⟩ := exists_mul_add small
  obtain ⟨cylinder, head, byte, onCylinder, rfl⟩ := exists_mul_add onDrive
  have heads := geometry.heads.toNat_lt
  have perTrack := geometry.sectorsPerTrack.toNat_lt
  have first : (UInt8.ofNat cylinder).toNat = cylinder := UInt8.toNat_ofNat_of_lt' byte
  have second : (UInt8.ofNat head).toNat = head :=
    UInt8.toNat_ofNat_of_lt' (Nat.lt_trans onCylinder heads)
  have third : (UInt8.ofNat (sector + 1)).toNat = sector + 1 :=
    UInt8.toNat_ofNat_of_lt' (Nat.lt_of_le_of_lt onTrack perTrack)
  refine ⟨⟨0, .ofNat cylinder, .ofNat head, .ofNat (sector + 1)⟩, by simp [isDirect], ⟨?_, ?_, ?_⟩, ?_⟩
  · rw [second]
    exact onCylinder
  · rw [third]
    exact Nat.le_add_left _ _
  · rw [third]
    exact onTrack
  · rw [sectorsBefore, tracksBefore, first, second, third, Nat.add_sub_cancel]

end Pointer

namespace Volume

variable {container : Container} {volume : Volume}

/-- A sector that is the table of partitions: the boot sector leads to it. -/
def IsTable (container : Container) (geometry : DriveGeometry) (sector : Bytes) : Prop :=
  ∃ boot number, container.slice 0 sectorSize = .ok boot ∧
    (Pointer.ofBytes (boot.drop 0x08)).lba geometry = .ok number ∧
    container.slice (number * sectorSize) sectorSize = .ok sector

/-- The partitions of a disk come from its table, and its directory begins behind the first sectors of
the partition that is served. -/
theorem of_open (opened : Volume.open container = .ok volume) :
    (∃ sector, IsTable container volume.geometry sector ∧
      volume.partitions = partitionsOf sector) ∧
      ∃ start, volume.active.start.lba volume.geometry = .ok start ∧
        volume.rootDirectory = start + rootDirectorySector := by
  unfold Volume.open at opened
  simp only [bind, Except.bind] at opened
  -- One check after the other: where it fails, nothing is opened.
  split at opened
  · cases opened
  rename_i boot read
  split at opened
  · cases opened
  split at opened
  · cases opened
  split at opened
  · cases opened
  rename_i number led
  split at opened
  · cases opened
  rename_i table found
  split at opened
  · cases opened
  split at opened
  · cases opened
  rename_i start begins
  cases opened
  exact ⟨⟨table, ⟨boot, number, read, led, found⟩, rfl⟩, start, begins, rfl⟩

end Volume

/-- The places that a drive has are numbered in their order, one by one and without a gap, and there
is no number for any other place. A pointer that is a plain number leads to that number on every
drive. All numbers stay below `2 ^ 24`: neither they themselves, nor the offsets of their sectors,
nor the root directories of partitions that begin there are too large for a word. -/
theorem places_numbered (geometry : DriveGeometry) :
    (∀ pointer : Pointer, pointer.isDirect = false →
      ((∃ number, pointer.lba geometry = .ok number) ↔ geometry.Has pointer)) ∧
    (∀ first second : Pointer, first.isDirect = false → second.isDirect = false →
      ∀ number number', first.lba geometry = .ok number → second.lba geometry = .ok number' →
        (first.place ≤ second.place ↔ number ≤ number') ∧
          (first.place = second.place ↔ number = number')) ∧
    (∀ number, (∃ pointer : Pointer, pointer.isDirect = false ∧ pointer.lba geometry = .ok number) ↔
      number < 256 * geometry.heads.toNat * geometry.sectorsPerTrack.toNat) ∧
    (∀ pointer : Pointer, pointer.isDirect = true → pointer.lba geometry
      = .ok (pointer.third.toBitVec ++ pointer.second.toBitVec ++ pointer.first.toBitVec).toNat) ∧
    (∀ pointer : Pointer, Checked.HardDisk.lba pointer geometry = .ok (pointer.lba geometry)) ∧
    (∀ (pointer : Pointer) number, pointer.lba geometry = .ok number → number < 2 ^ 24 ∧
      Checked.mul UInt64.size number sectorSize = .ok (number * sectorSize)) ∧
    ∀ container volume, Volume.open container = .ok volume →
      ∃ start, volume.active.start.lba volume.geometry = .ok start ∧
        Checked.add UInt64.size start rootDirectorySector = .ok volume.rootDirectory ∧
        Checked.mul UInt64.size volume.rootDirectory sectorSize
          = .ok (volume.rootDirectory * sectorSize) := by
  refine ⟨?_, ?_, ?_, fun _ => Pointer.lba_of_direct, fun pointer =>
    Checked.HardDisk.lba_eq pointer geometry, ?_, ?_⟩
  · intro pointer placed
    simp only [Pointer.lba_eq_ok_iff placed, exists_and_left, exists_eq', and_true]
  · intro first second placed placed' number number' found found'
    obtain ⟨has, rfl⟩ := (Pointer.lba_eq_ok_iff placed).1 found
    obtain ⟨has', rfl⟩ := (Pointer.lba_eq_ok_iff placed').1 found'
    have order := Pointer.sectorsBefore_le_iff has has'
    have order' := Pointer.sectorsBefore_le_iff has' has
    exact ⟨order.symm, by rw [le_antisymm_iff, le_antisymm_iff, order, order']⟩
  · intro number
    constructor
    · rintro ⟨pointer, placed, found⟩
      obtain ⟨has, rfl⟩ := (Pointer.lba_eq_ok_iff placed).1 found
      exact Pointer.sectorsBefore_lt has
    · intro small
      obtain ⟨pointer, placed, has, counted⟩ := Pointer.exists_place small
      exact ⟨pointer, placed, (Pointer.lba_eq_ok_iff placed).2 ⟨has, counted⟩⟩
  · intro pointer number found
    have small := Pointer.lba_lt found
    exact ⟨small, Checked.HardDisk.mul_sectorSize_eq (Nat.lt_add_right _ small)⟩
  · intro container volume opened
    obtain ⟨_, start, found, root⟩ := Volume.of_open opened
    have near := Nat.add_lt_add_right (Pointer.lba_lt found) rootDirectorySector
    refine ⟨start, found, ?_, ?_⟩
    · rw [root]
      exact Checked.add_eq (Nat.lt_trans near (by decide))
    · rw [root]
      exact Checked.HardDisk.mul_sectorSize_eq near

/-- A drive with four heads and 32 sectors to a track. -/
theorem places_numbered_of_four_heads :
    (Pointer.mk 0x00 2 1 5).lba ⟨4, 32⟩ = .ok 292 ∧ (292 : Nat) < 2 ^ 24 ∧
      DriveGeometry.Has ⟨4, 32⟩ (Pointer.mk 0x00 2 1 5) ∧
      (Pointer.mk 0x00 2 0 32).place ≤ (Pointer.mk 0x00 2 1 5).place ∧
      (Pointer.mk 0x80 0x34 0x12 0x00).lba ⟨4, 32⟩ = .ok 0x1234 := by
  have found : (Pointer.mk 0x00 2 1 5).lba ⟨4, 32⟩ = .ok 292 := by decide
  have earlier : (Pointer.mk 0x00 2 0 32).lba ⟨4, 32⟩ = .ok 287 := by decide
  obtain ⟨valid, order, _, direct, _, small, _⟩ := places_numbered ⟨4, 32⟩
  exact ⟨found, (small _ _ found).1, (valid _ rfl).1 ⟨_, found⟩,
    (order _ _ rfl rfl _ _ earlier found).1.2 (by decide), direct _ rfl⟩

end RetroMedia.HardDisk
