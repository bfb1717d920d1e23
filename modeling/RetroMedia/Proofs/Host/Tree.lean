import Mathlib.Data.List.Induction
import RetroMedia.Proofs.Host.Path
import RetroMedia.Vfs.Resolve

/-! Paths that end outside of the tree. If the first of some names is missing where a path leads, none of
the paths with these names leads anywhere, and the longest existing part of them is the path itself. -/
namespace RetroMedia.Host

open HostPath (IsName Written isIdle)

variable {host : Host} {path : HostPath} {node : HostNode} {trail : HostTrail}

/-- Where the steps of a path lead, however long the path is. -/
def reach (host : Host) (path : HostPath) : Except HostError HostTrail := do
  path.steps.foldlM step (← host.start path.absolute)

/-- A directory can be left by a step that leads nowhere. -/
def AtDirectory (trail : HostTrail) : Prop :=
  ∃ own members above, trail = (own, .directory members) :: above

theorem reach_append (absolute : Bool) (steps more : List String) :
    host.reach ⟨absolute, steps ++ more⟩ = host.reach ⟨absolute, steps⟩ >>= more.foldlM step := by
  unfold reach
  cases host.start absolute with
  | error error => rfl
  | ok trail => exact List.foldlM_append

theorem find?_eq_some_iff :
    host.find? path = some node ↔ path.toText.utf8ByteSize < pathLimit ∧ path.toText ≠ "" ∧
      ∃ own above, host.reach path = .ok ((own, node) :: above) := by
  have followed : host.follow path path.steps.length = if pathLimit ≤ path.toText.utf8ByteSize
      then .error .nameTooLong
      else if path.toText.isEmpty then .error .missing else host.reach path := by
    unfold follow reach
    rw [List.take_length]
    split
    · rfl
    · split <;> rfl
  unfold find? find
  rw [followed]
  by_cases long : pathLimit ≤ path.toText.utf8ByteSize
  · rw [if_pos long]
    simp [bind, Except.bind, Except.toOption, Nat.not_lt.2 long]
  · rw [if_neg long]
    by_cases empty : path.toText = ""
    · simp [empty, bind, Except.bind, Except.toOption]
    · rw [if_neg (by simpa using empty)]
      rcases host.reach path with error | (_ | ⟨⟨own, node'⟩, above⟩) <;>
        simp [Nat.not_le.1 long, empty, bind, Except.bind, Except.toOption, pure, Except.pure]

theorem step_idle {idle : String} (leads : isIdle idle = true) {after : HostTrail}
    (taken : step trail idle = .ok after) : after = trail ∧ AtDirectory trail := by
  unfold step at taken
  split at taken
  · cases taken
  · cases taken
  · rw [leads, if_pos rfl] at taken
    cases taken
    exact ⟨rfl, _, _, _, rfl⟩

theorem foldlM_idle {idles : List String} (idle : ∀ step ∈ idles, isIdle step = true)
    {after : HostTrail} (taken : idles.foldlM step trail = .ok after) :
    after = trail ∧ (idles = [] ∨ AtDirectory trail) := by
  induction idles with
  | nil =>
    cases taken
    exact ⟨rfl, .inl rfl⟩
  | cons first rest ih =>
    rw [List.foldlM_cons] at taken
    cases moved : step trail first with
    | error error =>
      rw [moved] at taken
      cases taken
    | ok onward =>
      obtain ⟨rfl, directory⟩ := step_idle (idle first List.mem_cons_self) moved
      rw [moved] at taken
      have later := ih (fun step member => idle step (List.mem_cons_of_mem _ member)) taken
      exact ⟨later.1, .inr directory⟩

/-- Idle steps at the end of a path only tell that it leads to a directory. -/
theorem reach_of_idle {absolute : Bool} {kept idles : List String}
    (idle : ∀ step ∈ idles, isIdle step = true)
    (reached : host.reach ⟨absolute, kept ++ idles⟩ = .ok trail) :
    host.reach ⟨absolute, kept⟩ = .ok trail ∧ (idles = [] ∨ AtDirectory trail) := by
  rw [reach_append] at reached
  cases before : host.reach ⟨absolute, kept⟩ with
  | error error =>
    rw [before] at reached
    cases reached
  | ok there =>
    rw [before] at reached
    obtain ⟨rfl, law⟩ := foldlM_idle idle reached
    exact ⟨rfl, law⟩

theorem step_of_absent {name own : String} {above : HostTrail} (absent : node.member? name = none)
    (isName : IsName name) : ∃ error, step ((own, node) :: above) name = .error error := by
  cases node with
  | file content => exact ⟨_, rfl⟩
  | directory members =>
    unfold step
    dsimp only
    rw [isName.leads, if_neg (by simp), if_neg (by simpa using isName.notAbove), absent]
    exact ⟨_, rfl⟩

/-- A missing name ends a path. -/
theorem exists_below_of_absent {name own : String} {above : HostTrail}
    (reached : host.reach path = .ok ((own, node) :: above)) (absent : node.member? name = none)
    (isName : IsName name) (rest : List String) :
    host.exists (path.below (name :: rest)) = false := by
  obtain ⟨error, missing⟩ := @step_of_absent node name own above absent isName
  have lost : host.reach (path.below (name :: rest)) = .error error := by
    rw [HostPath.below, reach_append, reached]
    change (name :: rest).foldlM step ((own, node) :: above) = _
    rw [List.foldlM_cons, missing]
    rfl
  unfold «exists»
  cases found : host.find? (path.below (name :: rest)) with
  | none => rfl
  | some node' =>
    obtain ⟨_, _, own, above, reached'⟩ := find?_eq_some_iff.1 found
    rw [lost] at reached'
    cases reached'

/-- What is trimmed off a path makes no difference to where it leads, and only a path to a directory has
anything to trim off. -/
theorem find?_trimmed (written : path.Written) (leads : host.find? path = some node) :
    host.find? path.trimmed = some node ∧ (path.trimmed = path ∨ node.isDirectory = true) := by
  obtain ⟨short, _, own, above, reached⟩ := find?_eq_some_iff.1 leads
  obtain ⟨idles, parts, idle⟩ := HostPath.exists_trimmed path
  have same : path = ⟨path.absolute, path.trimmed.steps ++ idles⟩ := by rw [← parts]
  rw [same] at reached
  obtain ⟨reached', directory⟩ := reach_of_idle idle reached
  constructor
  · apply find?_eq_some_iff.2
    have shorter := HostPath.utf8ByteSize_trimmed_le path
    exact ⟨by omega, written.trimmed.toText_ne, own, above, reached'⟩
  · rcases directory with rfl | ⟨_, _, _, here⟩
    · left
      rw [List.append_nil] at same
      exact same.symm
    · right
      cases here
      rfl

/-- A name that is missing in a directory cannot be joined to its path. -/
theorem exists_join_of_absent {name : String} (written : path.Written)
    (leads : host.find? path = some node) (absent : node.member? name = none)
    (isName : IsName name) : host.exists (path.join name) = false := by
  obtain ⟨_, _, own, above, reached⟩ := find?_eq_some_iff.1 leads
  obtain ⟨kept, idles, parts, idle, joined⟩ := written.join_eq isName
  have same : path = ⟨path.absolute, kept ++ idles⟩ := by rw [← parts]
  rw [same] at reached
  rw [joined]
  exact exists_below_of_absent (reach_of_idle idle reached).1 absent isName []

theorem exists_of_find? (leads : host.find? path = some node) : host.exists path = true := by
  rw [«exists», leads]
  rfl

theorem existingPart_of_exists (here : host.exists path = true) (names : List String) :
    host.existingPart path names = some (path, names) := by
  rw [existingPart, here, if_pos rfl]

theorem existingPart_of_missing (missing : host.exists path = false) {name : String}
    (named : path.fileName? = some name) (names : List String) :
    host.existingPart path names = host.existingPart path.parent (name :: names) := by
  rw [existingPart, missing, if_neg (by simp)]
  split
  · rename_i unnamed
    rw [named] at unnamed
    cases unnamed
  · rename_i found
    rw [named] at found
    cases found
    rfl

/-- Names that lead out of the tree are all taken off the end of a path again. -/
theorem existingPart_below {first : String} {rest : List String} (written : path.Written)
    (leads : host.find? path = some node) (absent : node.member? first = none)
    (are : ∀ name ∈ first :: rest, IsName name) (more : List String) :
    host.existingPart (path.below (first :: rest)) more
      = some (path.trimmed, first :: rest ++ more) := by
  obtain ⟨_, _, own, above, reached⟩ := find?_eq_some_iff.1 leads
  have isFirst := are first List.mem_cons_self
  induction rest using List.reverseRecOn generalizing more with
  | nil =>
    have missing := exists_below_of_absent reached absent isFirst []
    have named : (path.below [first]).fileName? = some first := HostPath.fileName?_below [] isFirst
    have above : (path.below [first]).parent = path.trimmed := by
      have up : (path.below ([] ++ [first])).parent = _ := HostPath.parent_below [] isFirst
      simpa [HostPath.below] using up
    rw [existingPart_of_missing missing named, above]
    exact existingPart_of_exists (exists_of_find? (find?_trimmed written leads).1) _
  | append_singleton front last ih =>
    have isLast := are last (by simp)
    have before : ∀ name ∈ first :: front, IsName name := by
      intro name member
      apply are
      rw [← List.cons_append]
      exact List.mem_append_left _ member
    have missing := exists_below_of_absent reached absent isFirst (front ++ [last])
    rw [← List.cons_append] at missing ⊢
    rw [existingPart_of_missing missing (HostPath.fileName?_below _ isLast),
      HostPath.parent_below _ isLast, HostPath.trimmed_below before (by simp), ih before]
    simp

end RetroMedia.Host
