/-! Name patterns: a star stands for any run of characters, a question mark for exactly one, and
every other character for itself. The search keeps only the most recent star, so it never tries
more than once per pattern star and name position. -/
namespace RetroMedia.Wildcard

/-- How far a pattern without a pending star gets along a name. -/
inductive Progression where
  /-- The name is used up; the flag says whether only stars are left of the pattern. -/
  | finished (accepts : Bool)
  /-- A star was met: the pattern after it and the name from there on. -/
  | star (pattern name : List Char)
  /-- The next character fits nothing. -/
  | stuck

/-- Match character by character until the name ends, a star is met, or a character fails. -/
def advance : List Char → List Char → Progression
  | pattern, [] => .finished (pattern.all (· == '*'))
  | [], _ :: _ => .stuck
  | expected :: pattern, actual :: name =>
    if expected == '*' then .star pattern (actual :: name)
    else if expected == '?' || expected == actual then advance pattern name
    else .stuck

theorem advance_star_lt {pattern name pattern' name' : List Char}
    (met : advance pattern name = .star pattern' name') : pattern'.length < pattern.length := by
  fun_induction advance pattern name with
  | case1 => simp at met
  | case2 => simp at met
  | case3 expected pattern actual name isStar =>
    simp only [Progression.star.injEq] at met
    simp [← met.1]
  | case4 expected pattern actual name notStar fits ih =>
    have := ih met
    simp only [List.length_cons]
    omega
  | case5 => simp at met

/-- After a star: match the rest of the pattern here, or let the star take one more character.
A later star settles the earlier one for good. -/
def search (pattern name : List Char) : Bool :=
  match _met : advance pattern name with
  | .finished accepts => accepts
  | .star pattern' name' => search pattern' name'
  | .stuck =>
    match name with
    | [] => false
    | _ :: rest => search pattern rest
termination_by (pattern.length, name.length)
decreasing_by
  · exact Prod.Lex.left _ _ (advance_star_lt _met)
  · exact Prod.Lex.right _ (by simp)

/-- The form in which names are compared: as they are, or with ASCII letters in upper case. -/
def fold (caseSensitive : Bool) (text : String) : List Char :=
  if caseSensitive then text.toList else text.toList.map Char.toUpper

/-- Does the whole name fit the pattern? -/
def fits (pattern name : String) (caseSensitive : Bool) : Bool :=
  match advance (fold caseSensitive pattern) (fold caseSensitive name) with
  | .finished accepts => accepts
  | .star pattern' name' => search pattern' name'
  | .stuck => false

end RetroMedia.Wildcard
