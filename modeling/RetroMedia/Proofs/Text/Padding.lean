import Mathlib.Data.List.DropRight
import RetroMedia.Entry
import RetroMedia.Text.Petscii

/-! Names in fields of a fixed size. A field is trimmed by taking off one padding after the other, each
of them once. This comes to the longest beginning that does not end in padding exactly if the paddings
lie around the name in layers, in the order in which they are taken off. -/
namespace RetroMedia.Petscii

/-- What stored names are padded with. -/
def paddings : Bytes := [0x00, 0x20, shiftedSpace]

/-- A name that does not end in padding. -/
def Bare (name : Bytes) : Prop := ∀ last ∈ name.getLast?, last ∉ paddings

instance (name : Bytes) : Decidable (Bare name) := Option.decidableForallMem name.getLast?

/-- The longest beginning of a field that does not end in padding. -/
structure IsBareName (field name : Bytes) : Prop where
  beginning : name <+: field
  bare : Bare name
  longest : ∀ other, other <+: field → Bare other → other.length ≤ name.length

/-- A field without one padding after the other. -/
def trimEach (order : List UInt8) (field : Bytes) : Bytes := order.foldl trimPadding field

/-- The paddings lie around a name in layers, the first one of the order outermost. A layer can be
missing. -/
def Layered : List UInt8 → Bytes → Prop
  | [], field => Bare field
  | padding :: rest, field =>
    ∃ inner count, field = inner ++ List.replicate count padding ∧ Layered rest inner

section Trimming

variable {padding : UInt8} {order : List UInt8} {field name : Bytes}

/-- What is taken off is a run of the padding. -/
theorem exists_replicate (field : Bytes) (padding : UInt8) :
    ∃ count, field = trimPadding field padding ++ List.replicate count padding := by
  have run : field.rtakeWhile (· == padding)
      = List.replicate (field.rtakeWhile (· == padding)).length padding :=
    List.eq_replicate_iff.2 ⟨rfl, fun _ member => by simpa using List.mem_rtakeWhile_imp member⟩
  refine ⟨(field.rtakeWhile (· == padding)).length, ?_⟩
  rw [← run]
  exact List.rdropWhile_append_rtakeWhile.symm

theorem getLast?_trimPadding (field : Bytes) (padding : UInt8) :
    (trimPadding field padding).getLast? ≠ some padding := by
  intro ends
  have stops := List.head?_dropWhile_not (· == padding) field.reverse
  rw [trimPadding, List.getLast?_reverse] at ends
  rw [ends] at stops
  simp at stops

theorem trimEach_cons (padding : UInt8) (rest : List UInt8) (field : Bytes) :
    trimEach (padding :: rest) field = trimEach rest (trimPadding field padding) := rfl

/-- Only paddings of the order are taken off. -/
theorem exists_removed (order : List UInt8) (field : Bytes) :
    ∃ removed, field = trimEach order field ++ removed ∧ ∀ byte ∈ removed, byte ∈ order := by
  induction order generalizing field with
  | nil => exact ⟨[], (List.append_nil field).symm, nofun⟩
  | cons padding rest ih =>
    obtain ⟨count, outer⟩ := exists_replicate field padding
    obtain ⟨removed, inner, known⟩ := ih (trimPadding field padding)
    refine ⟨removed ++ List.replicate count padding, ?_, ?_⟩
    · rw [trimEach_cons, ← List.append_assoc, ← inner]
      exact outer
    · intro byte member
      rcases List.mem_append.1 member with first | last
      · exact List.mem_cons_of_mem _ (known byte first)
      · rw [List.eq_of_mem_replicate last]
        exact List.mem_cons_self

/-- A name is left as it is just where it ends in none of the paddings. -/
theorem trimEach_eq_self_iff :
    trimEach order name = name ↔ ∀ padding ∈ order, name.getLast? ≠ some padding := by
  induction order with
  | nil => exact iff_of_true rfl nofun
  | cons padding rest ih =>
    rw [List.forall_mem_cons, trimEach_cons, ← ih]
    constructor
    · intro same
      obtain ⟨count, outer⟩ := exists_replicate name padding
      obtain ⟨removed, inner, -⟩ := exists_removed rest (trimPadding name padding)
      have none : count = 0 := by
        have outer' := congrArg List.length outer
        have inner' := congrArg List.length inner
        rw [List.length_append, same] at inner'
        rw [List.length_append, List.length_replicate] at outer'
        omega
      rw [none, List.replicate_zero, List.append_nil] at outer
      rw [← outer] at same
      exact ⟨outer ▸ getLast?_trimPadding name padding, same⟩
    · rintro ⟨ends, same⟩
      rw [trimPadding_of_ends ends, same]

/-- To take off one more padding leaves the layers of the others. -/
theorem Layered.trimPadding (layered : Layered order field) (known : padding ∈ paddings) :
    Layered order (trimPadding field padding) := by
  induction order generalizing field with
  | nil =>
    have ends : field.getLast? ≠ some padding := fun ends => layered padding ends known
    rwa [trimPadding_of_ends ends]
  | cons outer rest ih =>
    obtain ⟨inner, count, rfl, within⟩ := layered
    by_cases same : outer = padding
    · rw [same, trimPadding_append_replicate]
      exact ⟨_, 0, (List.append_nil _).symm, ih within⟩
    · cases count with
      | zero =>
        rw [List.replicate_zero, List.append_nil]
        exact ⟨_, 0, (List.append_nil _).symm, ih within⟩
      | succ count =>
        have ends : (inner ++ List.replicate (count + 1) outer).getLast? ≠ some padding := by
          rw [List.replicate_succ', ← List.append_assoc, List.getLast?_concat]
          simpa using same
        rw [trimPadding_of_ends ends]
        exact ⟨inner, count + 1, rfl, within⟩

/-- Trimming leaves no padding at the end exactly if the paddings lie in layers. -/
theorem bare_trimEach_iff (known : ∀ padding ∈ order, padding ∈ paddings) :
    Bare (trimEach order field) ↔ Layered order field := by
  induction order generalizing field with
  | nil => rfl
  | cons padding rest ih =>
    rw [List.forall_mem_cons] at known
    rw [trimEach_cons, ih known.2]
    constructor
    · intro layered
      obtain ⟨count, outer⟩ := exists_replicate field padding
      exact ⟨_, count, outer, layered⟩
    · rintro ⟨inner, count, rfl, layered⟩
      rw [trimPadding_append_replicate]
      exact layered.trimPadding known.1

/-- What trimming leaves is the longest bare beginning, if it is bare at all. -/
theorem isBareName_trimEach_iff (known : ∀ padding ∈ order, padding ∈ paddings) :
    IsBareName field (trimEach order field) ↔ Bare (trimEach order field) := by
  refine ⟨IsBareName.bare, fun bare => ?_⟩
  obtain ⟨removed, split, all⟩ := exists_removed order field
  have beginning : trimEach order field <+: field := ⟨removed, split.symm⟩
  refine ⟨beginning, bare, fun other begins bare' => ?_⟩
  -- anything longer ends in a byte that was taken off
  by_contra longer
  obtain ⟨more, rfl⟩ := List.prefix_of_prefix_length_le beginning begins (by omega)
  have some : more ≠ [] := by
    rintro rfl
    simp at longer
  have within : more <+: removed := by
    obtain ⟨rest, whole⟩ := begins
    rw [List.append_assoc] at whole
    exact ⟨rest, List.append_cancel_left (whole.trans split)⟩
  have last : more.getLast some ∈ paddings :=
    known _ (all _ (within.subset (List.getLast_mem some)))
  refine bare' (more.getLast some) ?_ last
  rw [List.getLast?_append_of_ne_nil _ some, List.getLast?_eq_some_getLast some]
  rfl

end Trimming

section Fields

variable {order : List UInt8} {field : Bytes} {trim : Bytes → Bytes}

/-- What becomes of a field that is trimmed by taking off the paddings of an order. Nothing but padding
is taken off. Exactly where the paddings lie in layers nothing is left to take off, and what is left is
the longest beginning that does not end in padding. -/
structure Trims (trim : Bytes → Bytes) (order : List UInt8) (field : Bytes) : Prop where
  removed : ∃ removed, field = trim field ++ removed ∧ ∀ byte ∈ removed, byte ∈ paddings
  settled : trim (trim field) = trim field ↔ Layered order field
  bare : Bare (trim field) ↔ Layered order field
  longest : IsBareName field (trim field) ↔ Layered order field

theorem trims_trimEach (same : ∀ padding, padding ∈ order ↔ padding ∈ paddings) (field : Bytes) :
    Trims (trimEach order) order field := by
  have known : ∀ padding ∈ order, padding ∈ paddings := fun padding => (same padding).1
  have bare : Bare (trimEach order field) ↔ Layered order field := bare_trimEach_iff known
  refine ⟨?_, ?_, bare, (isBareName_trimEach_iff known).trans bare⟩
  · obtain ⟨removed, split, all⟩ := exists_removed order field
    exact ⟨removed, split, fun byte member => known byte (all byte member)⟩
  · rw [trimEach_eq_self_iff, ← bare]
    constructor
    · intro ends last here padding
      exact ends last ((same last).2 padding) here
    · intro ends padding member here
      exact ends padding here (known padding member)

/-- A text that shows all of a field but the padding at its end. -/
def ShowsBare (field : Bytes) (text : String) : Prop :=
  ∃ name, IsBareName field name ∧ text = toText name

theorem length_eq_of_toText_eq {name other : Bytes} (same : toText name = toText other) :
    name.length = other.length := by
  have chars := congrArg List.length (String.ofList_injective same)
  rwa [List.length_map, List.length_map] at chars

/-- Beginnings of one field that have the same text are the same. -/
theorem eq_of_toText_eq {name other : Bytes} (begins : name <+: field) (begins' : other <+: field)
    (same : toText name = toText other) : name = other := by
  have length := length_eq_of_toText_eq same
  exact (List.prefix_of_prefix_length_le begins begins' length.le).eq_of_length length

theorem Trims.showsBare_iff (trims : Trims trim order field) :
    ShowsBare field (toText (trim field)) ↔ Layered order field := by
  rw [← trims.longest]
  constructor
  · rintro ⟨name, bare, same⟩
    obtain ⟨removed, split, -⟩ := trims.removed
    rwa [eq_of_toText_eq ⟨removed, split.symm⟩ bare.beginning same]
  · intro bare
    exact ⟨_, bare, rfl⟩

/-- An entry that is named by all of a field but the padding at its end exactly where the paddings lie
in layers. -/
structure NamedBy (order : List UInt8) (field : Bytes) (entry : Entry) : Prop where
  bare : Bare entry.rawName ↔ Layered order field
  longest : IsBareName field entry.rawName ↔ Layered order field
  shown : ShowsBare field entry.name ↔ Layered order field

theorem Trims.namedBy {entry : Entry} (trims : Trims trim order field)
    (raw : entry.rawName = trim field) (shown : entry.name = toText entry.rawName) :
    NamedBy order field entry := by
  refine ⟨?_, ?_, ?_⟩
  · rw [raw]
    exact trims.bare
  · rw [raw]
    exact trims.longest
  · rw [shown, raw]
    exact trims.showsBare_iff

end Fields

end RetroMedia.Petscii
