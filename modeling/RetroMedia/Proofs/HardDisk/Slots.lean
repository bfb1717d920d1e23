import RetroMedia.HardDisk.Volume
import RetroMedia.Proofs.Text.Padding

/-! Slots of hard-disk directories. What an entry says is stated from the bytes of its slot, apart from
the way in which slots are read: its name from the field that is padded, its size and offset from the
pointer to its data. Main statement: the entry that is read from a slot describes that slot. -/
namespace RetroMedia.HardDisk

open Petscii

/-- The name that a field holds ahead of spaces, shifted spaces and zeros, in this order. Each run takes
in all of its padding, the zeros first. -/
def Holds (field name : Bytes) : Prop :=
  ∃ spaces shifted zeros,
    field = name ++ List.replicate spaces 0x20 ++ List.replicate shifted shiftedSpace
      ++ List.replicate zeros 0x00 ∧
    name.getLast? ≠ some 0x20 ∧
    (name ++ List.replicate spaces 0x20).getLast? ≠ some shiftedSpace ∧
    (name ++ List.replicate spaces 0x20 ++ List.replicate shifted shiftedSpace).getLast? ≠ some 0x00

/-- A field holds just the name that trimming leaves of it. -/
theorem holds_iff {field name : Bytes} : Holds field name ↔ name = trimName field := by
  constructor
  · rintro ⟨spaces, shifted, zeros, rfl, inner, middle, outer⟩
    unfold trimName
    rw [trimPadding_append_replicate, trimPadding_of_ends outer, trimPadding_append_replicate,
      trimPadding_of_ends middle, trimPadding_append_replicate, trimPadding_of_ends inner]
  · rintro rfl
    obtain ⟨zeros, outer⟩ := exists_replicate field 0x00
    obtain ⟨shifted, middle⟩ := exists_replicate (trimPadding field 0x00) shiftedSpace
    obtain ⟨spaces, inner⟩ :=
      exists_replicate (trimPadding (trimPadding field 0x00) shiftedSpace) 0x20
    refine ⟨spaces, shifted, zeros, ?_, getLast?_trimPadding _ _, ?_, ?_⟩
    · rw [trimName, ← inner, ← middle]
      exact outer
    · rw [trimName, ← inner]
      exact getLast?_trimPadding _ _
    · rw [trimName, ← inner, ← middle]
      exact getLast?_trimPadding _ _

namespace Volume

/-- A slot whose data cannot be reached: it holds a subdirectory, or its pointer leads to further
pointers or to no sector. -/
def Unresolvable (volume : Volume) (slot : Bytes) : Prop :=
  slot.byte 0x10 &&& 0x07 = directoryType ∨
  (Pointer.ofBytes (slot.drop 0x0C)).isIndirect = true ∨
  (Pointer.ofBytes (slot.drop 0x0C)).isNull = false ∧
    ∃ error, (Pointer.ofBytes (slot.drop 0x0C)).lba volume.geometry = .error error

/-- Where the data of a slot lies and how much there is of it. It lies where the pointer leads, as far as
the container goes. Without a pointer there is none, and where the pointer cannot be resolved, the stored
size is all that is known. -/
structure Locates (volume : Volume) (slot : Bytes) (offset size : Nat) (incomplete : Bool) :
    Prop where
  incomplete : incomplete = true ↔ volume.Unresolvable slot
  stored : volume.Unresolvable slot → offset = 0 ∧ size = slot.le32 0x08
  empty : ¬ volume.Unresolvable slot → (Pointer.ofBytes (slot.drop 0x0C)).isNull = true →
    offset = 0 ∧ size = 0
  resolved : ∀ number, ¬ volume.Unresolvable slot →
    (Pointer.ofBytes (slot.drop 0x0C)).isNull = false →
    (Pointer.ofBytes (slot.drop 0x0C)).lba volume.geometry = .ok number →
      offset = number * sectorSize ∧
        size = min (slot.le32 0x08) (volume.container.size - number * sectorSize)

/-- What an entry says of its slot, whatever its number. -/
structure Describes (volume : Volume) (slot : Bytes) (entry : Entry) : Prop where
  rawName : Holds (slot.take 8) entry.rawName
  name : entry.name = toText entry.rawName
  kind : entry.kind = if slot.byte 0x10 &&& 0x07 = directoryType then .directory else .file
  typeCode : entry.typeCode = slot.byte 0x10
  timestamp : entry.timestamp = Timestamp.unpack? (slot.le32 0x11)
  recordSize : entry.recordSize = if slot.byte 0x15 = 0 then none else some (slot.byte 0x15).toNat
  data : volume.Locates slot entry.offset entry.size entry.incomplete
  bare : entry.location = none ∧ entry.loadAddress = none ∧ entry.formatHint = none

/-- The table of some slots: for each of them, in order, an entry that describes it and has the number
of its place, counted from one. -/
structure Lists (volume : Volume) (slots : List Bytes) (table : List Entry) : Prop where
  length : table.length = slots.length
  entry : ∀ (place : Nat) (slot : Bytes), slots[place]? = some slot →
    ∃ entry, table[place]? = some entry ∧ entry.index = place + 1 ∧ volume.Describes slot entry

variable {volume : Volume} {slot : Bytes}

theorem resolveData_of_unresolvable (stuck : volume.Unresolvable slot) (stored : Nat) :
    volume.resolveData (slot.byte 0x10) (Pointer.ofBytes (slot.drop 0x0C)) stored
      = (0, stored, true) := by
  unfold resolveData
  rcases stuck with directory | indirect | ⟨linked, error, broken⟩
  · rw [if_pos (Bool.or_eq_true_iff.2 (.inl (beq_iff_eq.2 directory)))]
  · rw [if_pos (Bool.or_eq_true_iff.2 (.inr indirect))]
  · rw [linked, if_neg Bool.false_ne_true, broken]
    exact ite_self _

theorem locates_resolveData (volume : Volume) (slot : Bytes) {offset size : Nat} {incomplete : Bool}
    (found : volume.resolveData (slot.byte 0x10) (Pointer.ofBytes (slot.drop 0x0C)) (slot.le32 0x08)
      = (offset, size, incomplete)) : volume.Locates slot offset size incomplete := by
  by_cases stuck : volume.Unresolvable slot
  · rw [resolveData_of_unresolvable stuck] at found
    cases found
    exact ⟨iff_of_true rfl stuck, fun _ => ⟨rfl, rfl⟩, fun clear => absurd stuck clear,
      fun _ clear => absurd stuck clear⟩
  have file : ¬ (slot.byte 0x10 &&& 0x07 == directoryType
      || (Pointer.ofBytes (slot.drop 0x0C)).isIndirect) = true := by
    rw [Bool.or_eq_true, beq_iff_eq]
    exact fun early => stuck (early.imp_right .inl)
  unfold resolveData at found
  rw [if_neg file] at found
  cases linked : (Pointer.ofBytes (slot.drop 0x0C)).isNull with
  | true =>
    rw [linked, if_pos rfl] at found
    cases found
    refine ⟨iff_of_false nofun stuck, fun never => absurd never stuck, fun _ _ => ⟨rfl, rfl⟩, ?_⟩
    intro _ _ other
    cases linked.symm.trans other
  | false =>
    rw [linked, if_neg Bool.false_ne_true] at found
    cases leads : (Pointer.ofBytes (slot.drop 0x0C)).lba volume.geometry with
    | error error => exact absurd (.inr (.inr ⟨linked, error, leads⟩)) stuck
    | ok number =>
      rw [leads] at found
      cases found
      refine ⟨iff_of_false nofun stuck, fun never => absurd never stuck, ?_, ?_⟩
      · intro _ other
        cases linked.symm.trans other
      · intro _ _ _ leads'
        cases leads.symm.trans leads'
        exact ⟨rfl, rfl⟩

theorem describes_readSlot (volume : Volume) (index : Nat) (slot : Bytes) :
    volume.Describes slot (volume.readSlot index slot) := by
  have kind : (volume.readSlot index slot).kind
      = if slot.byte 0x10 &&& 0x07 = directoryType then .directory else .file := by
    simp [readSlot]
  have recordSize : (volume.readSlot index slot).recordSize
      = if slot.byte 0x15 = 0 then none else some (slot.byte 0x15).toNat := by
    simp [readSlot]
  exact ⟨holds_iff.2 rfl, rfl, kind, rfl, rfl, recordSize, locates_resolveData volume slot rfl,
    rfl, rfl, rfl⟩

end Volume
end RetroMedia.HardDisk
