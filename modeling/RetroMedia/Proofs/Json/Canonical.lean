import RetroMedia.Json.Document
import RetroMedia.Proofs.Json.Number

/-! What documents hold. The numbers of a document are such as digits make up, no record has a key twice,
and lists and records lie within one another only so deep. -/
namespace RetroMedia

namespace Json

/-- A value as a document may hold it, with at most so many lists and records within one another. -/
inductive Canonical : Nat → Json → Prop
  | null (depth : Nat) : Canonical depth .null
  | bool (depth : Nat) (value : Bool) : Canonical depth (.bool value)
  | number {value : JsonNumber} (depth : Nat) (fits : value.Fits) : Canonical depth (.number value)
  | string (depth : Nat) (text : String) : Canonical depth (.string text)
  | array {depth : Nat} {items : List Json} (inside : ∀ item ∈ items, Canonical depth item) :
    Canonical (depth + 1) (.array items)
  | object {depth : Nat} {members : List (String × Json)} (distinct : (members.map Prod.fst).Nodup)
    (inside : ∀ member ∈ members, Canonical depth member.2) : Canonical (depth + 1) (.object members)

section Members

variable {members : List (String × Json)} {key : String} {value : Json}

/-- A new member comes last. -/
theorem putMember_of_new (new : key ∉ members.map Prod.fst) (value : Json) :
    putMember members key value = members ++ [(key, value)] := by
  have none : members.any (·.1 == key) = false := by
    rw [List.any_eq_false]
    intro member here same
    exact new (List.mem_map.2 ⟨member, here, beq_iff_eq.1 same⟩)
  rw [putMember, none, if_neg (by decide)]

theorem mem_putMember {member : String × Json} (here : member ∈ putMember members key value) :
    member ∈ members ∨ member = (key, value) := by
  unfold putMember at here
  split at here
  · obtain ⟨old, there, same⟩ := List.mem_map.1 here
    split at same
    · exact .inr same.symm
    · exact .inl (same ▸ there)
  · rcases List.mem_append.1 here with old | new
    · exact .inl old
    · exact .inr (List.mem_singleton.1 new)

/-- A member that is set again keeps its place. -/
theorem nodup_putMember (distinct : (members.map Prod.fst).Nodup) (key : String) (value : Json) :
    ((putMember members key value).map Prod.fst).Nodup := by
  by_cases known : key ∈ members.map Prod.fst
  · have keys : (putMember members key value).map Prod.fst = members.map Prod.fst := by
      obtain ⟨member, here, same⟩ := List.mem_map.1 known
      have some : members.any (·.1 == key) = true := List.any_eq_true.2 ⟨member, here, by simp [same]⟩
      rw [putMember, if_pos some, List.map_map]
      apply List.map_congr_left
      intro other _
      dsimp only [Function.comp]
      split
      · rename_i equal
        exact (beq_iff_eq.1 equal).symm
      · rfl
    rw [keys]
    exact distinct
  · rw [putMember_of_new known, List.map_append]
    apply List.nodup_append.2
    refine ⟨distinct, by simp, ?_⟩
    rintro old here new last rfl
    rw [List.map_singleton, List.mem_singleton] at last
    rw [last] at here
    exact known here

end Members
end Json

namespace JsonToken

/-- The numbers among some tokens are such as digits make up. -/
def Fit (tokens : List JsonToken) : Prop := ∀ number, JsonToken.number number ∈ tokens → number.Fits

theorem fits_of_next? {first : UInt8} {rest after : Bytes} {number : JsonNumber}
    (found : next? first rest = some (.number number, after)) : number.Fits := by
  unfold next? at found
  split at found
  · simp only [Option.bind_eq_bind, Option.bind_eq_some_iff] at found
    obtain ⟨_, _, _, _, same⟩ := found
    cases same
  · split at found
    · simp only [Option.bind_eq_bind, Option.bind_eq_some_iff] at found
      obtain ⟨_, read, same⟩ := found
      cases same
      exact JsonNumber.fits_of_read? read
    · simp only [Option.bind_eq_bind, Option.bind_eq_some_iff] at found
      obtain ⟨⟨spelling, token⟩, member, same⟩ := found
      cases same
      have listed := List.mem_of_find?_eq_some member
      simp [fixed] at listed

theorem fit_of_scan? {newestFirst tokens : List JsonToken} {bytes : Bytes} (fit : Fit newestFirst)
    (found : scan? newestFirst bytes = some tokens) : Fit tokens := by
  fun_induction scan? newestFirst bytes with
  | case1 newestFirst =>
    cases found
    intro number member
    exact fit number (List.mem_reverse.1 member)
  | case2 newestFirst first rest blank ih => exact ih fit found
  | case3 => cases found
  | case4 newestFirst first rest shows token after step ih =>
    apply ih _ found
    intro number member
    rcases List.mem_cons.1 member with rfl | old
    · exact fits_of_next? step
    · exact fit number old

end JsonToken

namespace JsonBuilder

open Json (Canonical)

/-- The values in an open list or record are such as documents may hold. -/
def Holds (depth : Nat) : JsonFrame → Prop
  | .array newestFirst => ∀ item ∈ newestFirst, Canonical depth item
  | .object members _ =>
    (members.map Prod.fst).Nodup ∧ ∀ member ∈ members, Canonical depth member.2

/-- Open lists and records leave room for what is within them. -/
def Stacked : List JsonFrame → Prop
  | [] => True
  | frame :: outer =>
    ∃ depth, outer.length + (depth + 1) = maxDepth ∧ Holds depth frame ∧ Stacked outer

/-- A document in the making is one that may be completed. -/
structure Sound (builder : JsonBuilder) : Prop where
  stacked : Stacked builder.frames
  complete : ∀ value ∈ builder.result, Canonical maxDepth value

variable {builder after : JsonBuilder} {token : JsonToken}

theorem Sound.place (sound : builder.Sound) {depth : Nat} {value : Json}
    (room : builder.frames.length + depth = maxDepth) (canonical : Canonical depth value) :
    (builder.place value).Sound := by
  obtain ⟨frames, expects, result⟩ := builder
  obtain ⟨stacked, complete⟩ := sound
  unfold JsonBuilder.place
  match frames with
  | [] =>
    refine ⟨trivial, ?_⟩
    rintro _ ⟨⟩
    rw [← room, List.length_nil, Nat.zero_add]
    exact canonical
  | .array newestFirst :: outer =>
    obtain ⟨inner, fits, holds, below⟩ := stacked
    -- The values in the innermost frame may be as deep as there is room.
    have same : inner = depth := by
      rw [List.length_cons] at room
      omega
    rw [same] at fits holds
    exact ⟨⟨depth, fits, List.forall_mem_cons.2 ⟨canonical, holds⟩, below⟩, complete⟩
  | .object members key :: outer =>
    obtain ⟨inner, fits, ⟨distinct, holds⟩, below⟩ := stacked
    have same : inner = depth := by
      rw [List.length_cons] at room
      omega
    rw [same] at fits holds
    refine ⟨⟨depth, fits, ⟨Json.nodup_putMember distinct key value, ?_⟩, below⟩, complete⟩
    intro member here
    rcases Json.mem_putMember here with old | rfl
    · exact holds member old
    · exact canonical

theorem Sound.enter? (sound : builder.Sound) (frame : JsonFrame) {expects : JsonExpects}
    (holds : ∀ depth, Holds depth frame) (step : builder.enter? frame expects = some after) :
    after.Sound := by
  unfold JsonBuilder.enter? at step
  split at step
  · rename_i fits
    cases step
    exact ⟨⟨maxDepth - 1 - builder.frames.length, by omega, holds _, sound.stacked⟩, sound.complete⟩
  · cases step

theorem Sound.leave? (sound : builder.Sound) (step : builder.leave? token = some after) :
    after.Sound := by
  obtain ⟨frames, expects, result⟩ := builder
  obtain ⟨stacked, complete⟩ := sound
  unfold JsonBuilder.leave? at step
  dsimp only at step
  split at step
  · rename_i newestFirst outer
    obtain ⟨depth, fits, holds, below⟩ := stacked
    cases step
    have sound : (JsonBuilder.mk outer expects result).Sound := ⟨below, complete⟩
    apply sound.place fits
    exact .array fun item member => holds item (List.mem_reverse.1 member)
  · rename_i members key outer
    obtain ⟨depth, fits, ⟨distinct, holds⟩, below⟩ := stacked
    cases step
    have sound : (JsonBuilder.mk outer expects result).Sound := ⟨below, complete⟩
    exact sound.place fits (.object distinct holds)
  · cases step

theorem length_frames_le (stacked : Stacked builder.frames) : builder.frames.length ≤ maxDepth := by
  cases split : builder.frames with
  | nil => exact Nat.zero_le _
  | cons frame outer =>
    rw [split] at stacked
    obtain ⟨depth, fits, _⟩ := stacked
    rw [List.length_cons]
    omega

theorem Sound.value? (sound : builder.Sound) (fits : ∀ number, token = .number number → number.Fits)
    (step : builder.value? token = some after) : after.Sound := by
  have room := Nat.add_sub_of_le (length_frames_le sound.stacked)
  cases token with
  | null =>
    cases step
    exact sound.place room (.null _)
  | bool value =>
    cases step
    exact sound.place room (.bool _ value)
  | number value =>
    cases step
    exact sound.place room (.number _ (fits value rfl))
  | string text =>
    cases step
    exact sound.place room (.string _ text)
  | openArray => exact sound.enter? (.array []) (fun _ => List.forall_mem_nil _) step
  | openObject =>
    exact sound.enter? (.object [] "") (fun _ => ⟨List.nodup_nil, List.forall_mem_nil _⟩) step
  | closeArray | closeObject | comma | colon => cases step

theorem Sound.expecting (sound : builder.Sound) (expects : JsonExpects) :
    { builder with expects }.Sound :=
  ⟨sound.stacked, sound.complete⟩

theorem Sound.key? (sound : builder.Sound) (step : builder.key? token = some after) :
    after.Sound := by
  obtain ⟨frames, expects, result⟩ := builder
  unfold JsonBuilder.key? at step
  dsimp only at step
  split at step
  · split at step
    · rename_i key members old outer
      cases step
      obtain ⟨stacked, complete⟩ := sound
      exact ⟨stacked, complete⟩
    · cases step
  · cases step

theorem Sound.separate? (sound : builder.Sound) (step : builder.separate? = some after) :
    after.Sound := by
  unfold JsonBuilder.separate? at step
  split at step
  · cases step
    exact sound.expecting _
  · cases step
    exact sound.expecting _
  · cases step

/-- No token spoils a document in the making. -/
theorem Sound.step? (sound : builder.Sound) (fits : ∀ number, token = .number number → number.Fits)
    (step : builder.step? token = some after) : after.Sound := by
  unfold JsonBuilder.step? at step
  split at step
  · exact sound.value? fits step
  · rcases Option.or_eq_some_iff.1 step with left | ⟨_, taken⟩
    · exact sound.leave? left
    · exact sound.value? fits taken
  · exact sound.key? step
  · rcases Option.or_eq_some_iff.1 step with left | ⟨_, taken⟩
    · exact sound.leave? left
    · exact sound.key? taken
  · split at step
    · cases step
      exact sound.expecting _
    · cases step
  · split at step
    · exact sound.separate? step
    · exact sound.leave? step
  · cases step

theorem Sound.foldlM {tokens : List JsonToken} (sound : builder.Sound) (fit : JsonToken.Fit tokens)
    (steps : tokens.foldlM JsonBuilder.step? builder = some after) : after.Sound := by
  induction tokens generalizing builder with
  | nil =>
    cases steps
    exact sound
  | cons token tokens ih =>
    rw [List.foldlM_cons] at steps
    obtain ⟨next, step, onward⟩ := Option.bind_eq_some_iff.1 steps
    apply ih _ (fun number member => fit number (List.mem_cons_of_mem _ member)) onward
    apply sound.step? _ step
    rintro number rfl
    exact fit number List.mem_cons_self

end JsonBuilder

/-- A document is canonical. -/
theorem Json.canonical_of_parse? {bytes : Bytes} {value : Json} (parsed : parse? bytes = some value) :
    value.Canonical JsonBuilder.maxDepth := by
  unfold parse? ofTokens? at parsed
  simp only [Option.bind_eq_some_iff] at parsed
  obtain ⟨tokens, scanned, builder, built, complete⟩ := parsed
  have fit : JsonToken.Fit tokens := JsonToken.fit_of_scan? (fun _ => List.not_mem_nil.elim) scanned
  have fresh : ({} : JsonBuilder).Sound := ⟨trivial, nofun⟩
  exact (fresh.foldlM fit built).complete value complete

end RetroMedia
