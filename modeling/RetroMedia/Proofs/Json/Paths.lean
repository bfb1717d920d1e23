import Mathlib.Data.List.Nodup
import RetroMedia.Document
import RetroMedia.Proofs.Json.Canonical

/-! Paths into values. A name leads from a structured value to one of its members, and to no more than
one if the value is canonical. -/
namespace RetroMedia.Json

/-- The value that names lead to from a value: a member of a record has its key as its name, an item of a
list its place. -/
inductive Reaches : Json → List String → Json → Prop
  | here (value : Json) : Reaches value [] value
  | member {members : List (String × Json)} {name : String} {inner found : Json} {names : List String}
    (listed : (name, inner) ∈ members) (onward : Reaches inner names found) :
    Reaches (.object members) (name :: names) found
  | item {items : List Json} {place : Nat} {inner found : Json} {names : List String}
    (listed : items[place]? = some inner) (onward : Reaches inner names found) :
    Reaches (.array items) (toString place :: names) found

/-- There is no floating-point number in a value. -/
def Exact (value : Json) : Prop :=
  ∀ names number, value.Reaches names (.number number) → number.isFloat = false

/-- How many values lie directly within a value. -/
def memberCount : Json → Nat
  | array items => items.length
  | object members => members.length
  | _ => 0

variable {value inner found : Json} {members : List (String × Json)} {name : String}
  {names : List String} {depth : Nat}

theorem length_membersOf? (structured : Document.membersOf? value = some members) :
    members.length = value.memberCount := by
  cases value <;> cases structured <;> simp [memberCount]

theorem exists_membersOf? (structured : value.isStructured = true) :
    ∃ members, Document.membersOf? value = some members := by
  cases value <;> first | exact ⟨_, rfl⟩ | cases structured

/-- The first name of a path leads to a member. -/
theorem reaches_cons_iff (structured : Document.membersOf? value = some members) :
    value.Reaches (name :: names) found ↔
      ∃ inner, (name, inner) ∈ members ∧ inner.Reaches names found := by
  constructor
  · intro reached
    cases reached with
    | member listed onward =>
      cases structured
      exact ⟨_, listed, onward⟩
    | item listed onward =>
      cases structured
      refine ⟨_, List.mem_mapIdx.2 ?_, onward⟩
      obtain ⟨inside, same⟩ := List.getElem?_eq_some_iff.1 listed
      exact ⟨_, inside, by rw [same]⟩
  · rintro ⟨inner, listed, onward⟩
    cases value with
    | object members' =>
      cases structured
      exact .member listed onward
    | array items =>
      cases structured
      obtain ⟨place, inside, same⟩ := List.mem_mapIdx.1 listed
      cases same
      exact .item (List.getElem?_eq_getElem inside) onward
    | null | bool | number | string => cases structured

theorem Exact.within (exact : value.Exact) (structured : Document.membersOf? value = some members)
    {member : String × Json} (listed : member ∈ members) : member.2.Exact := by
  intro names number reached
  exact exact (member.1 :: names) number ((reaches_cons_iff structured).2 ⟨_, listed, reached⟩)

theorem Exact.item {items : List Json} (exact : (array items).Exact) {item : Json}
    (listed : item ∈ items) : item.Exact := by
  obtain ⟨place, inside, rfl⟩ := List.getElem_of_mem listed
  exact exact.within rfl (List.mem_mapIdx.2 ⟨place, inside, rfl⟩)

/-- Different members of a canonical value have different names. -/
theorem Canonical.within (canonical : value.Canonical depth)
    (structured : Document.membersOf? value = some members) :
    (members.map Prod.fst).Nodup ∧ ∃ less, less ≤ depth ∧
      ∀ member ∈ members, member.2.Canonical less := by
  cases canonical with
  | object distinct inside =>
    cases structured
    exact ⟨distinct, _, Nat.le_succ _, inside⟩
  | @array depth items inside =>
    cases structured
    refine ⟨?_, depth, Nat.le_succ _, ?_⟩
    · rw [List.Nodup, List.pairwise_iff_getElem]
      intro first second here there before same
      rw [List.getElem_map, List.getElem_map, List.getElem_mapIdx, List.getElem_mapIdx] at same
      exact absurd (Text.toString_inj same) (Nat.ne_of_lt before)
    · intro member listed
      obtain ⟨place, here, rfl⟩ := List.mem_mapIdx.1 listed
      exact inside _ (List.getElem_mem here)
  | null | bool | number | string => cases structured

/-- Behind a name that is there, a path goes on from its member. -/
theorem Canonical.reaches_iff (canonical : value.Canonical depth)
    (structured : Document.membersOf? value = some members) (listed : (name, inner) ∈ members) :
    value.Reaches (name :: names) found ↔ inner.Reaches names found := by
  rw [reaches_cons_iff structured]
  constructor
  · rintro ⟨other, listed', onward⟩
    have same := List.inj_on_of_nodup_map (canonical.within structured).1 listed' listed rfl
    cases same
    exact onward
  · intro onward
    exact ⟨inner, listed, onward⟩

/-- Some names may be followed through a value: there are no floating-point numbers in it, no list or
record of it has more than so many members, and what the names lead to before the last of them is a list
or a record. -/
structure Passable (value : Json) (names : List String) (most : Nat) : Prop where
  exact : value.Exact
  bounded : ∀ path inner, value.Reaches path inner → inner.memberCount ≤ most
  structured : ∀ before inner, before <+: names → before ≠ names → value.Reaches before inner →
    inner.isStructured = true

theorem Passable.onward {most : Nat} (passable : value.Passable (name :: names) most)
    (structured : Document.membersOf? value = some members) (listed : (name, inner) ∈ members) :
    inner.Passable names most := by
  have below {path : List String} {last : Json} (reached : inner.Reaches path last) :
      value.Reaches (name :: path) last :=
    (reaches_cons_iff structured).2 ⟨inner, listed, reached⟩
  refine ⟨passable.exact.within structured listed, ?_, ?_⟩
  · intro path last reached
    exact passable.bounded _ last (below reached)
  · intro before last shorter proper reached
    apply passable.structured (name :: before) last _ _ (below reached)
    · exact (List.prefix_cons_inj name).2 shorter
    · intro same
      exact proper (List.cons.inj same).2

end RetroMedia.Json
