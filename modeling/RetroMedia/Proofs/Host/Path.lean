import Mathlib.Data.List.TakeWhile
import RetroMedia.Host.Path

/-! Names below a path. A name is a step that leads somewhere and not upward. Written behind a path, names
become further steps of it, and they are what is taken off its end again, one at a time. -/
namespace RetroMedia.HostPath

/-- A single step into a directory. -/
structure IsName (name : String) : Prop where
  filled : name ≠ ""
  single : '/' ∉ name.toList
  notHere : name ≠ "."
  notAbove : name ≠ ".."

/-- A path followed by some names. -/
def below (path : HostPath) (names : List String) : HostPath :=
  { path with steps := path.steps ++ names }

/-- The path up to the last step that leads somewhere. -/
def trimmed (path : HostPath) : HostPath :=
  { path with steps := trimIdle path.absolute path.steps }

variable {path : HostPath} {name text : String}

theorem IsName.leads (isName : IsName name) : isIdle name = false := by
  simp [isIdle, isName.filled, isName.notHere]

section Splitting

theorem splitSteps_append (chars : List Char) (single : '/' ∉ name.toList) :
    splitSteps (chars ++ '/' :: name.toList) = splitSteps chars ++ [name] := by
  unfold splitSteps
  rw [List.splitOn_append_cons_self, List.splitOn_eq_singleton single]
  simp

theorem not_mem_of_mem_splitOn {chars piece : List Char} (member : piece ∈ chars.splitOn '/') :
    '/' ∉ piece := by
  induction chars generalizing piece with
  | nil => simp_all
  | cons char rest ih =>
    rw [List.splitOn_cons_eq_if_modifyHead] at member
    split at member
    · rcases List.mem_cons.1 member with rfl | later
      · simp
      · exact ih later
    · rename_i other
      cases split : rest.splitOn '/' with
      | nil => exact absurd split (List.splitOn_ne_nil '/' rest)
      | cons first pieces =>
        rw [split] at member ih
        rcases List.mem_cons.1 member with rfl | later
        · intro inside
          rcases List.mem_cons.1 inside with rfl | behind
          · exact other (beq_self_eq_true _)
          · exact ih List.mem_cons_self behind
        · exact ih (List.mem_cons_of_mem _ later)

theorem splitSteps_ne_nil (chars : List Char) : splitSteps chars ≠ [] := by
  simp [splitSteps, List.splitOn_ne_nil]

theorem single_of_mem_splitSteps {chars : List Char} {step : String}
    (member : step ∈ splitSteps chars) : '/' ∉ step.toList := by
  obtain ⟨piece, inside, rfl⟩ := List.mem_map.1 member
  rw [String.toList_ofList]
  exact not_mem_of_mem_splitOn inside

theorem toList_joined (steps : List String) :
    (String.intercalate "/" steps).toList = ['/'].intercalate (steps.map String.toList) :=
  String.toList_intercalate

theorem splitSteps_joined {steps : List String} (some : steps ≠ [])
    (single : ∀ step ∈ steps, '/' ∉ step.toList) :
    splitSteps (String.intercalate "/" steps).toList = steps := by
  unfold splitSteps
  rw [toList_joined, List.splitOn_intercalate]
  · simp [Function.comp_def]
  · intro piece member
    obtain ⟨step, inside, rfl⟩ := List.mem_map.1 member
    exact single step inside
  · simpa using some

theorem head?_joined {first : String} (filled : first ≠ "") (rest : List String) :
    (String.intercalate "/" (first :: rest)).toList.head? = first.toList.head? := by
  cases chars : first.toList with
  | nil => exact absurd (String.toList_eq_nil_iff.1 chars) filled
  | cons char chars' => cases rest <;> simp [chars]

theorem joined_splitSteps (chars : List Char) :
    String.intercalate "/" (splitSteps chars) = String.ofList chars := by
  apply String.toList_inj.1
  rw [toList_joined, splitSteps, List.map_map, String.toList_ofList]
  have same : String.toList ∘ String.ofList = id := by
    funext piece
    exact String.toList_ofList
  rw [same, List.map_id, List.intercalate_splitOn]

end Splitting

section Texts

theorem ofText_of_slash {rest : List Char} (begins : text.toList = '/' :: rest) :
    ofText text = ⟨true, splitSteps rest⟩ := by
  unfold ofText
  rw [begins]
  rfl

theorem ofText_of_no_slash (outside : text.toList.head? ≠ some '/') :
    ofText text = ⟨false, splitSteps text.toList⟩ := by
  unfold ofText
  split
  · rename_i rest begins
    rw [begins] at outside
    exact absurd rfl outside
  · rfl

theorem ofText_cases (text : String) :
    (∃ rest, text.toList = '/' :: rest ∧ ofText text = ⟨true, splitSteps rest⟩) ∨
      (text.toList.head? ≠ some '/' ∧ ofText text = ⟨false, splitSteps text.toList⟩) := by
  by_cases begins : text.toList.head? = some '/'
  · obtain ⟨rest, same⟩ := List.head?_eq_some_iff.1 begins
    exact .inl ⟨rest, same, ofText_of_slash same⟩
  · exact .inr ⟨begins, ofText_of_no_slash begins⟩

/-- A path as it may be written down, with a first step if it is relative. -/
structure Written (path : HostPath) : Prop where
  single : ∀ step ∈ path.steps, '/' ∉ step.toList
  relative : path.absolute = false → ∃ first rest, path.steps = first :: rest ∧ first ≠ ""

theorem toText_ofText (text : String) : (ofText text).toText = text := by
  apply String.toList_inj.1
  rcases ofText_cases text with ⟨rest, begins, same⟩ | ⟨_, same⟩
  · simp [same, toText, joined_splitSteps, begins]
  · simp [same, toText, joined_splitSteps]

theorem written_ofText (filled : text ≠ "") : (ofText text).Written := by
  rcases ofText_cases text with ⟨rest, begins, same⟩ | ⟨outside, same⟩
  · rw [same]
    exact ⟨fun _ => single_of_mem_splitSteps, fun never => by cases never⟩
  · rw [same]
    refine ⟨fun _ => single_of_mem_splitSteps, fun _ => ?_⟩
    obtain ⟨first, rest, split⟩ := List.exists_cons_of_ne_nil (splitSteps_ne_nil text.toList)
    refine ⟨first, rest, split, ?_⟩
    rintro rfl
    -- An empty first step stands before a slash, or there is nothing else.
    have joined := joined_splitSteps text.toList
    rw [split, String.ofList_toList] at joined
    cases rest with
    | nil => exact filled joined.symm
    | cons second rest =>
      apply outside
      rw [← joined, String.intercalate_cons_cons]
      simp

theorem Written.toText_ne (written : path.Written) : path.toText ≠ "" := by
  obtain ⟨absolute, steps⟩ := path
  cases absolute with
  | true => simp [toText]
  | false =>
    obtain ⟨first, rest, rfl, filled⟩ := written.relative rfl
    intro empty
    have head := head?_joined filled rest
    have same : toText ⟨false, first :: rest⟩ = String.intercalate "/" (first :: rest) := by
      simp [toText]
    rw [← same, empty] at head
    exact filled (String.toList_eq_nil_iff.1 (List.head?_eq_none_iff.1 head.symm))

theorem Written.ofText_toText (written : path.Written) (filled : path.steps ≠ []) :
    ofText path.toText = path := by
  obtain ⟨absolute, steps⟩ := path
  have joined := splitSteps_joined filled written.single
  cases absolute with
  | true =>
    have begins : (toText ⟨true, steps⟩).toList = '/' :: (String.intercalate "/" steps).toList := by
      simp [toText]
    rw [ofText_of_slash begins, joined]
  | false =>
    have same : toText ⟨false, steps⟩ = String.intercalate "/" steps := by simp [toText]
    have outside : (toText ⟨false, steps⟩).toList.head? ≠ some '/' := by
      obtain ⟨first, rest, rfl, proper⟩ := written.relative rfl
      rw [same, head?_joined proper]
      exact fun slash => written.single first List.mem_cons_self (List.mem_of_head? slash)
    rw [ofText_of_no_slash outside, same, joined]

theorem ofText_root (single : '/' ∉ name.toList) : ofText ("/" ++ name) = ⟨true, [name]⟩ := by
  have begins : ("/" ++ name).toList = '/' :: name.toList := by simp
  rw [ofText_of_slash begins, splitSteps, List.splitOn_eq_singleton single]
  simp

/-- A name written behind a path is one more step of it. -/
theorem ofText_append (filled : text ≠ "") (single : '/' ∉ name.toList) :
    ofText (text ++ "/" ++ name) = (ofText text).below [name] := by
  have chars : (text ++ "/" ++ name).toList = text.toList ++ '/' :: name.toList := by simp
  rcases ofText_cases text with ⟨rest, begins, same⟩ | ⟨outside, same⟩
  · have begins' : (text ++ "/" ++ name).toList = '/' :: (rest ++ '/' :: name.toList) := by
      rw [chars, begins]
      rfl
    rw [same, ofText_of_slash begins', splitSteps_append rest single]
    rfl
  · have outside' : (text ++ "/" ++ name).toList.head? ≠ some '/' := by
      rw [chars]
      cases begins : text.toList with
      | nil => exact absurd (String.toList_eq_nil_iff.1 begins) filled
      | cons char rest => simpa [begins] using outside
    rw [same, ofText_of_no_slash outside', chars, splitSteps_append _ single]
    rfl

/-- Behind a slash a name takes the place of the empty last step. -/
theorem ofText_of_slash_end (front : String) (single : '/' ∉ name.toList) :
    ∃ absolute kept, ofText (front ++ "/") = ⟨absolute, kept ++ [""]⟩ ∧
      ofText (front ++ "/" ++ name) = ⟨absolute, kept ++ [name]⟩ := by
  have empty : '/' ∉ "".toList := by simp
  by_cases filled : front = ""
  · subst filled
    exact ⟨true, [], ofText_root empty, ofText_root single⟩
  · have before := ofText_append filled empty
    rw [String.append_empty] at before
    exact ⟨_, _, before, ofText_append filled single⟩

/-- Names written behind a path are further steps of it. -/
theorem ofText_intercalate {names : List String} (filled : text ≠ "")
    (single : ∀ name ∈ names, '/' ∉ name.toList) :
    ofText (String.intercalate "/" (text :: names)) = (ofText text).below names := by
  induction names generalizing text with
  | nil => simp [below]
  | cons name names ih =>
    have onward : text ++ "/" ++ name ≠ "" := by simp [filled]
    have first := ofText_append filled (single name List.mem_cons_self)
    have joined : String.intercalate "/" (text :: name :: names)
        = String.intercalate "/" ((text ++ "/" ++ name) :: names) := by
      rw [String.intercalate_cons_cons, String.intercalate_cons_append]
    rw [joined, ih onward fun later member => single later (List.mem_cons_of_mem _ member), first]
    simp [below]

end Texts

section Trimming

/-- What is trimmed off a path leads nowhere. -/
theorem exists_trimmed (path : HostPath) :
    ∃ idles, path.steps = path.trimmed.steps ++ idles ∧ ∀ idle ∈ idles, isIdle idle = true := by
  obtain ⟨absolute, steps⟩ := path
  have parts : steps = (steps.reverse.dropWhile isIdle).reverse
      ++ (steps.reverse.takeWhile isIdle).reverse := by
    rw [← List.reverse_append, List.takeWhile_append_dropWhile, List.reverse_reverse]
  have idle : ∀ step ∈ (steps.reverse.takeWhile isIdle).reverse, isIdle step = true := by
    intro step member
    exact List.mem_takeWhile_imp (List.mem_reverse.1 member)
  unfold trimmed trimIdle
  dsimp only
  cases kept : (steps.reverse.dropWhile isIdle).reverse with
  | cons first rest =>
    rw [kept] at parts
    exact ⟨_, parts, idle⟩
  | nil =>
    rw [kept, List.nil_append] at parts
    rw [← parts] at idle
    dsimp only
    split
    · rename_i here
      cases steps with
      | nil => simp at here
      | cons first rest =>
        have point : first = "." := by simp_all
        exact ⟨rest, by rw [point]; rfl, fun step member => idle step (List.mem_cons_of_mem _ member)⟩
    · exact ⟨steps, rfl, idle⟩

theorem trimIdle_of_leads (absolute : Bool) (steps : List String) (leads : isIdle name = false) :
    trimIdle absolute (steps ++ [name]) = steps ++ [name] := by
  simp [trimIdle, leads]

theorem fileName?_below (names : List String) (isName : IsName name) :
    (path.below (names ++ [name])).fileName? = some name := by
  rw [fileName?, below, ← List.append_assoc, trimIdle_of_leads _ _ isName.leads]
  simp [isName.notHere, isName.notAbove]

theorem parent_below (names : List String) (isName : IsName name) :
    (path.below (names ++ [name])).parent = (path.below names).trimmed := by
  rw [parent, below, ← List.append_assoc, trimIdle_of_leads _ _ isName.leads, List.dropLast_concat]
  rfl

theorem trimmed_below {names : List String} (are : ∀ name ∈ names, IsName name)
    (filled : names ≠ []) : (path.below names).trimmed = path.below names := by
  rw [← List.dropLast_concat_getLast filled, trimmed, below, ← List.append_assoc,
    trimIdle_of_leads _ _ (are _ (List.getLast_mem filled)).leads]

/-- A relative path of nothing but idle steps begins with a point, which stays. -/
theorem Written.trimmed_ne_nil (written : path.Written) (relative : path.absolute = false) :
    path.trimmed.steps ≠ [] := by
  obtain ⟨first, rest, same, filled⟩ := written.relative relative
  intro none
  unfold HostPath.trimmed trimIdle at none
  dsimp only at none
  split at none
  · rename_i dropped
    have idle := List.dropWhile_eq_nil_iff.1 (List.reverse_eq_nil_iff.1 dropped) first (by simp [same])
    have point : first = "." := by simpa [isIdle, filled] using idle
    simp [relative, same, point] at none
  · rename_i kept
    exact kept none

theorem Written.trimmed (written : path.Written) : path.trimmed.Written := by
  obtain ⟨idles, parts, _⟩ := exists_trimmed path
  constructor
  · intro step member
    apply written.single
    rw [parts]
    exact List.mem_append_left _ member
  · intro relative
    obtain ⟨first, rest, same, filled⟩ := written.relative relative
    obtain ⟨first', rest', kept⟩ := List.exists_cons_of_ne_nil (written.trimmed_ne_nil relative)
    rw [kept, same] at parts
    cases parts
    exact ⟨first, rest', kept, filled⟩

theorem utf8ByteSize_joined_le (steps more : List String) :
    (String.intercalate "/" steps).utf8ByteSize
      ≤ (String.intercalate "/" (steps ++ more)).utf8ByteSize := by
  by_cases none : steps = []
  · simp [none]
  · by_cases none' : more = []
    · simp [none']
    · rw [String.intercalate_append_of_ne_nil none none', String.utf8ByteSize_append,
        String.utf8ByteSize_append]
      omega

theorem utf8ByteSize_trimmed_le (path : HostPath) :
    path.trimmed.toText.utf8ByteSize ≤ path.toText.utf8ByteSize := by
  obtain ⟨idles, parts, _⟩ := exists_trimmed path
  have shorter := utf8ByteSize_joined_le path.trimmed.steps idles
  rw [← parts] at shorter
  rw [toText, toText, String.utf8ByteSize_append, String.utf8ByteSize_append]
  exact Nat.add_le_add_left shorter _

end Trimming

theorem endsWith_slash_iff : text.endsWith "/" = true ↔ ∃ front, text = front ++ "/" := by
  rw [String.endsWith_eq_endsWith_toSlice, String.Slice.endsWith_string_iff, String.copy_toSlice]
  constructor
  · rintro ⟨front, same⟩
    exact ⟨String.ofList front, String.toList_inj.1 (by simp [← same])⟩
  · rintro ⟨front, rfl⟩
    exact ⟨front.toList, by simp⟩

theorem IsName.not_slash (isName : IsName name) : name.startsWith "/" = false := by
  rw [String.startsWith_string_eq_false_iff]
  rintro ⟨rest, same⟩
  apply isName.single
  rw [← same]
  simp

/-- A name is joined to a path by writing it behind the path, or in the place of an empty last step. -/
theorem Written.join_eq (written : path.Written) (isName : IsName name) :
    ∃ kept idles, path.steps = kept ++ idles ∧ (∀ idle ∈ idles, isIdle idle = true) ∧
      path.join name = ⟨path.absolute, kept ++ [name]⟩ := by
  rw [join, isName.not_slash, if_neg (by simp)]
  rcases path with ⟨absolute, _ | ⟨first, rest⟩⟩
  · cases absolute with
    | false =>
      obtain ⟨_, _, never, _⟩ := written.relative rfl
      cases never
    | true =>
      have root : toText ⟨true, []⟩ = "/" := rfl
      have ends : "/".endsWith "/" = true := endsWith_slash_iff.2 ⟨"", rfl⟩
      refine ⟨[], [], rfl, by simp, ?_⟩
      rw [root, ends, Bool.or_true, if_pos rfl]
      exact ofText_root isName.single
  · have same := written.ofText_toText (by simp)
    have filled := written.toText_ne
    generalize toText ⟨absolute, first :: rest⟩ = text at same filled
    split
    · rename_i ends
      have slash : text.endsWith "/" = true := by simpa [filled] using ends
      obtain ⟨front, rfl⟩ := endsWith_slash_iff.1 slash
      obtain ⟨absolute', kept, before, after⟩ := ofText_of_slash_end front isName.single
      obtain ⟨rfl, steps⟩ := HostPath.mk.inj (before.symm.trans same)
      exact ⟨kept, [""], steps.symm, by simp [isIdle], after⟩
    · rw [ofText_append filled isName.single, same]
      exact ⟨_, [], by simp, by simp, rfl⟩

end RetroMedia.HostPath
