import RetroMedia.Proofs.Json.Paths
import RetroMedia.Proofs.Json.Scanner

/-! Documents, written and read back. The compact text of a value without floating-point numbers is a
document of that value. -/
namespace RetroMedia

namespace Json

open JsonToken (spells_of_fixed spells_string)

/-- A value is cut into its tokens, however deep it is. -/
theorem Canonical.scans {depth : Nat} {value : Json} (canonical : value.Canonical depth)
    (exact : value.Exact) : value.Scans := by
  induction canonical with
  | null depth =>
    have known : ([0x6E, 0x75, 0x6C, 0x6C], .null) ∈ JsonToken.fixed := by decide
    exact scans_of_spells (spells_of_fixed _ known) rfl
  | bool depth value =>
    cases value with
    | false =>
      have known : ([0x66, 0x61, 0x6C, 0x73, 0x65], .bool false) ∈ JsonToken.fixed := by decide
      exact scans_of_spells (spells_of_fixed _ known) rfl
    | true =>
      have known : ([0x74, 0x72, 0x75, 0x65], .bool true) ∈ JsonToken.fixed := by decide
      exact scans_of_spells (spells_of_fixed _ known) rfl
  | number depth fits => exact scans_number fits (exact [] _ (.here _))
  | string depth text => exact scans_of_spells (spells_string text) rfl
  | array inside ih => exact scans_array fun item member => ih item member (exact.item member)
  | object distinct inside ih =>
    exact scans_object fun member here => ih member here (exact.within rfl here)

end Json

namespace JsonBuilder

/-- Tokens that amount to a value where one may stand, as long as there is room for it. -/
def Builds (depth : Nat) (value : Json) : Prop :=
  ∀ builder : JsonBuilder, builder.frames.length + depth ≤ maxDepth →
    (builder.expects = .value ∨ builder.expects = .valueOrClose) →
    value.tokens.foldlM step? builder = some (builder.place value)

variable {builder after : JsonBuilder} {token : JsonToken}

theorem step?_of_value (ready : builder.expects = .value ∨ builder.expects = .valueOrClose)
    (opens : token ≠ .closeArray ∧ token ≠ .closeObject) :
    builder.step? token = builder.value? token := by
  unfold step?
  rcases ready with ready | ready
  · rw [ready]
  · rw [ready]
    have stays : builder.leave? token = none := by
      unfold leave?
      split
      · exact absurd rfl opens.1
      · exact absurd rfl opens.2
      · rfl
    rw [stays, Option.none_or]

variable {depth : Nat}

theorem builds_of_token {value : Json} (alone : value.tokens = [token])
    (opens : token ≠ .closeArray ∧ token ≠ .closeObject)
    (taken : ∀ builder : JsonBuilder, builder.value? token = some (builder.place value)) :
    Builds depth value := by
  intro builder _ ready
  rw [alone, List.foldlM_cons, step?_of_value ready opens, taken]
  rfl

theorem place_expecting (builder : JsonBuilder) (expects : JsonExpects) (value : Json) :
    { builder with expects }.place value = builder.place value := by
  obtain ⟨frames, _, result⟩ := builder
  rcases frames with _ | ⟨newestFirst | ⟨members, key⟩, outer⟩ <;> rfl

theorem step?_close (left : builder.leave? token = some after) (closes : token ≠ .comma)
    (ready : builder.expects = .valueOrClose ∨ builder.expects = .keyOrClose ∨
      builder.expects = .commaOrClose) : builder.step? token = some after := by
  unfold step?
  rcases ready with ready | ready | ready
  · rw [ready, left]
    rfl
  · rw [ready, left]
    rfl
  · rw [ready, left]
    exact if_neg closes

section Lists

variable {newestFirst : List Json} {outer : List JsonFrame}
  (inside : builder.frames = .array newestFirst :: outer)
include inside

theorem step?_closeArray (ready : builder.expects = .valueOrClose ∨ builder.expects = .commaOrClose) :
    builder.step? .closeArray
      = some ({ builder with frames := outer }.place (.array newestFirst.reverse)) := by
  apply step?_close _ (by decide) (ready.imp_right .inr)
  unfold leave?
  rw [inside]

theorem place_item (item : Json) :
    builder.place item
      = { builder with frames := .array (item :: newestFirst) :: outer, expects := .commaOrClose } := by
  unfold place
  rw [inside]

/-- The items of a list, up to its end. -/
theorem foldlM_items {items : List Json} (builds : ∀ item ∈ items, Builds depth item)
    (room : outer.length + (depth + 1) ≤ maxDepth)
    (ready : builder.expects = .value ∨ builder.expects = .valueOrClose)
    (begun : items = [] → builder.expects = .valueOrClose) :
    (Json.itemTokens items ++ [JsonToken.closeArray]).foldlM step? builder
      = some ({ builder with frames := outer }.place (.array (newestFirst.reverse ++ items))) := by
  induction items generalizing builder newestFirst with
  | nil =>
    rw [Json.itemTokens, List.nil_append, List.foldlM_cons,
      step?_closeArray inside (.inl (begun rfl)), List.append_nil]
    rfl
  | cons item items ih =>
    have fits : builder.frames.length + depth ≤ maxDepth := by
      rw [inside, List.length_cons]
      omega
    have first := builds item List.mem_cons_self builder fits ready
    rw [place_item inside] at first
    -- The last item is followed by the end of the list, and every other one by a comma.
    cases items with
    | nil =>
      have ended := @step?_closeArray
        { builder with frames := .array (item :: newestFirst) :: outer, expects := .commaOrClose }
        (item :: newestFirst) outer rfl (.inr rfl)
      rw [Json.itemTokens, List.foldlM_append, first, Option.bind_eq_bind, Option.bind_some,
        List.foldlM_cons, ended, List.reverse_cons, place_expecting { builder with frames := outer }]
      rfl
    | cons next items =>
      have cut : Json.itemTokens (item :: next :: items) ++ [JsonToken.closeArray]
          = item.tokens ++ .comma :: (Json.itemTokens (next :: items) ++ [.closeArray]) :=
        List.append_assoc _ _ _
      have onward : (Json.itemTokens (next :: items) ++ [JsonToken.closeArray]).foldlM step?
          { builder with frames := .array (item :: newestFirst) :: outer, expects := .value }
            = some ({ builder with frames := outer, expects := .value }.place
              (.array ((item :: newestFirst).reverse ++ next :: items))) :=
        ih rfl (fun other member => builds other (List.mem_cons_of_mem _ member)) (.inl rfl)
          fun empty => absurd empty (List.cons_ne_nil _ _)
      rw [cut, List.foldlM_append, first, Option.bind_eq_bind, Option.bind_some, List.foldlM_cons]
      change (Json.itemTokens (next :: items) ++ [JsonToken.closeArray]).foldlM step? _ = _
      rw [onward, place_expecting { builder with frames := outer }]
      simp

end Lists

theorem builds_array {items : List Json} (builds : ∀ item ∈ items, Builds depth item) :
    Builds (depth + 1) (.array items) := by
  intro builder room ready
  have opened : builder.step? .openArray = some { builder with
      frames := .array [] :: builder.frames
      expects := .valueOrClose } := by
    rw [step?_of_value ready (by decide)]
    exact if_pos (by omega)
  have inside := @foldlM_items { builder with
      frames := .array [] :: builder.frames
      expects := .valueOrClose } depth [] builder.frames rfl items builds room (.inr rfl) fun _ => rfl
  rw [Json.tokens, List.cons_append, List.foldlM_cons, opened, Option.bind_eq_bind, Option.bind_some,
    inside]
  exact congrArg some (place_expecting builder _ _)

section Records

variable {earlier members : List (String × Json)} {key : String} {outer : List JsonFrame}
  (inside : builder.frames = .object earlier key :: outer)
include inside

theorem step?_closeObject (ready : builder.expects = .keyOrClose ∨ builder.expects = .commaOrClose) :
    builder.step? .closeObject
      = some ({ builder with frames := outer }.place (.object earlier)) := by
  apply step?_close _ (by decide) (.inr ready)
  unfold leave?
  rw [inside]

theorem step?_key (ready : builder.expects = .key ∨ builder.expects = .keyOrClose) (name : String) :
    builder.step? (.string name)
      = some { builder with frames := .object earlier name :: outer, expects := .colon } := by
  have named : builder.key? (.string name)
      = some { builder with frames := .object earlier name :: outer, expects := .colon } := by
    unfold key?
    rw [inside]
  have stays : builder.leave? (.string name) = none := by
    unfold leave?
    rw [inside]
  unfold step?
  rcases ready with ready | ready
  · rw [ready, named]
  · rw [ready, stays, named]
    rfl

/-- A member of a record, whatever follows it. -/
theorem foldlM_member {name : String} {value : Json} (builds : Builds depth value)
    (new : name ∉ earlier.map Prod.fst) (room : outer.length + (depth + 1) ≤ maxDepth)
    (ready : builder.expects = .key ∨ builder.expects = .keyOrClose) (more : List JsonToken) :
    (JsonToken.string name :: .colon :: (value.tokens ++ more)).foldlM step? builder
      = more.foldlM step? { builder with
        frames := .object (earlier ++ [(name, value)]) "" :: outer
        expects := .commaOrClose } := by
  have first := builds { builder with frames := .object earlier name :: outer, expects := .value }
    (by rw [List.length_cons]; omega) (.inl rfl)
  have placed : { builder with frames := .object earlier name :: outer, expects := .value }.place value
      = { builder with
        frames := .object (Json.putMember earlier name value) "" :: outer
        expects := .commaOrClose } := rfl
  rw [placed, Json.putMember_of_new new] at first
  rw [List.foldlM_cons, step?_key inside ready, Option.bind_eq_bind, Option.bind_some]
  change (value.tokens ++ more).foldlM step? _ = _
  rw [List.foldlM_append, first]
  rfl

/-- The members of a record, up to its end. -/
theorem foldlM_members (builds : ∀ member ∈ members, Builds depth member.2)
    (distinct : ((earlier ++ members).map Prod.fst).Nodup)
    (room : outer.length + (depth + 1) ≤ maxDepth)
    (ready : builder.expects = .key ∨ builder.expects = .keyOrClose)
    (begun : members = [] → builder.expects = .keyOrClose) :
    (Json.memberTokens members ++ [JsonToken.closeObject]).foldlM step? builder
      = some ({ builder with frames := outer }.place (.object (earlier ++ members))) := by
  induction members generalizing builder earlier key with
  | nil =>
    rw [Json.memberTokens, List.nil_append, List.foldlM_cons,
      step?_closeObject inside (.inl (begun rfl)), List.append_nil]
    rfl
  | cons member members ih =>
    obtain ⟨name, value⟩ := member
    have new : name ∉ earlier.map Prod.fst := by
      rw [List.map_append] at distinct
      intro old
      exact (List.nodup_append.1 distinct).2.2 name old name List.mem_cons_self rfl
    have first := foldlM_member inside (builds _ List.mem_cons_self) new room ready
    -- The last member is followed by the end of the record, and every other one by a comma.
    cases members with
    | nil =>
      have ended := @step?_closeObject
        { builder with
          frames := .object (earlier ++ [(name, value)]) "" :: outer
          expects := .commaOrClose } _ "" outer rfl (.inr rfl)
      rw [Json.memberTokens, List.cons_append, List.cons_append, first, List.foldlM_cons, ended,
        place_expecting { builder with frames := outer }]
      rfl
    | cons next members =>
      have cut : Json.memberTokens ((name, value) :: next :: members) ++ [JsonToken.closeObject]
          = .string name :: .colon ::
            (value.tokens ++ .comma :: (Json.memberTokens (next :: members) ++ [.closeObject])) := by
        change _ :: _ :: ((value.tokens ++ _ :: Json.memberTokens (next :: members)) ++ _) = _
        rw [List.append_assoc]
        rfl
      have onward : (Json.memberTokens (next :: members) ++ [JsonToken.closeObject]).foldlM step?
          { builder with frames := .object (earlier ++ [(name, value)]) "" :: outer, expects := .key }
            = some ({ builder with frames := outer, expects := .key }.place
              (.object (earlier ++ [(name, value)] ++ next :: members))) := by
        apply ih rfl (fun other member => builds other (List.mem_cons_of_mem _ member)) _ (.inl rfl)
          fun empty => absurd empty (List.cons_ne_nil _ _)
        rw [List.append_assoc]
        exact distinct
      rw [cut, first, List.foldlM_cons]
      change (Json.memberTokens (next :: members) ++ [JsonToken.closeObject]).foldlM step? _ = _
      rw [onward, place_expecting { builder with frames := outer }]
      simp

end Records

theorem builds_object {members : List (String × Json)} (distinct : (members.map Prod.fst).Nodup)
    (builds : ∀ member ∈ members, Builds depth member.2) : Builds (depth + 1) (.object members) := by
  intro builder room ready
  have opened : builder.step? .openObject = some { builder with
      frames := .object [] "" :: builder.frames
      expects := .keyOrClose } := by
    rw [step?_of_value ready (by decide)]
    exact if_pos (by omega)
  have inside := @foldlM_members { builder with
      frames := .object [] "" :: builder.frames
      expects := .keyOrClose } depth [] members "" builder.frames rfl builds distinct room (.inr rfl)
    fun _ => rfl
  rw [Json.tokens, List.cons_append, List.foldlM_cons, opened, Option.bind_eq_bind, Option.bind_some,
    inside]
  exact congrArg some (place_expecting builder _ _)

theorem builds_of_canonical {value : Json} (canonical : value.Canonical depth) :
    Builds depth value := by
  induction canonical with
  | null depth => exact builds_of_token rfl (by decide) fun _ => rfl
  | bool depth value => exact builds_of_token rfl ⟨nofun, nofun⟩ fun _ => rfl
  | number depth fits => exact builds_of_token rfl ⟨nofun, nofun⟩ fun _ => rfl
  | string depth text => exact builds_of_token rfl ⟨nofun, nofun⟩ fun _ => rfl
  | array inside ih => exact builds_array ih
  | object distinct inside ih => exact builds_object distinct ih

end JsonBuilder

namespace Json

/-- The compact text of a value is read back as that value. -/
theorem parse?_compact {depth : Nat} {value : Json} (canonical : value.Canonical depth)
    (shallow : depth ≤ JsonBuilder.maxDepth) (exact : value.Exact) :
    parse? (Utf8.encode value.compact) = some value := by
  have scanned := canonical.scans exact [] [] nofun
  rw [List.append_nil, List.append_nil, JsonToken.scan?, List.reverse_reverse] at scanned
  have built := JsonBuilder.builds_of_canonical canonical {} (by simpa using shallow) (.inl rfl)
  rw [parse?, compact, Utf8.encode_eq, String.toList_ofList, scanned, Option.bind_some, ofTokens?,
    built]
  rfl

end Json
end RetroMedia
