import RetroMedia.Text.Wildcard
import Mathlib.Data.List.Forall2

/-! What patterns mean. A pattern covers a name that can be cut into pieces, one for each of its
characters. The search keeps only the most recent star and still finds every such cut, since the end
of a name that an earlier star could have left is one that the later star can leave as well. A pattern
without a star and a question mark stands for nothing but itself. -/
namespace RetroMedia.Wildcard

/-- The pieces of a name that a pattern character takes: a star takes any piece, a question mark one
character, and every other character just itself. -/
inductive Takes : Char → List Char → Prop
  | star (piece : List Char) : Takes '*' piece
  | one (actual : Char) : Takes '?' [actual]
  | itself {expected : Char} (notStar : expected ≠ '*') (notOne : expected ≠ '?') :
      Takes expected [expected]

/-- The name can be cut into consecutive pieces, one for each character of the pattern, which takes
it. -/
def Covers (pattern name : List Char) : Prop :=
  ∃ pieces, List.Forall₂ Takes pattern pieces ∧ pieces.flatten = name

variable {expected : Char} {pattern name : List Char}

theorem covers_nil_iff : Covers [] name ↔ name = [] := by
  constructor
  · rintro ⟨_, ⟨⟩, rfl⟩
    rfl
  · rintro rfl
    exact ⟨[], .nil, rfl⟩

theorem covers_cons_iff :
    Covers (expected :: pattern) name ↔
      ∃ piece rest, Takes expected piece ∧ Covers pattern rest ∧ piece ++ rest = name := by
  constructor
  · rintro ⟨_, _ | ⟨takes, more⟩, rfl⟩
    exact ⟨_, _, takes, ⟨_, more, rfl⟩, rfl⟩
  · rintro ⟨piece, _, takes, ⟨pieces, more, rfl⟩, rfl⟩
    exact ⟨piece :: pieces, .cons takes more, rfl⟩

/-- A star leaves any end of the name to the rest of the pattern. -/
theorem covers_star_iff :
    Covers ('*' :: pattern) name ↔ ∃ rest, rest <:+ name ∧ Covers pattern rest := by
  rw [covers_cons_iff]
  constructor
  · rintro ⟨piece, rest, _, covers, rfl⟩
    exact ⟨rest, List.suffix_append piece rest, covers⟩
  · rintro ⟨rest, ⟨piece, rfl⟩, covers⟩
    exact ⟨piece, rest, .star piece, covers, rfl⟩

/-- Every other character stands for the first one of the name. -/
theorem covers_cons_of_ne_star (notStar : expected ≠ '*') :
    Covers (expected :: pattern) name ↔
      ∃ actual rest, (expected = '?' ∨ expected = actual) ∧ Covers pattern rest ∧
        actual :: rest = name := by
  rw [covers_cons_iff]
  constructor
  · rintro ⟨_, rest, takes, covers, rfl⟩
    cases takes with
    | star => exact absurd rfl notStar
    | one actual => exact ⟨actual, rest, .inl rfl, covers, rfl⟩
    | itself => exact ⟨expected, rest, .inr rfl, covers, rfl⟩
  · rintro ⟨actual, rest, fits, covers, rfl⟩
    refine ⟨[actual], rest, ?_, covers, rfl⟩
    by_cases isOne : expected = '?'
    · subst isOne
      exact .one actual
    · obtain rfl := fits.resolve_left isOne
      exact .itself notStar isOne

/-- Nothing but stars covers the empty name. -/
theorem covers_empty_iff : Covers pattern [] ↔ pattern.all (· == '*') = true := by
  induction pattern with
  | nil => simp [covers_nil_iff]
  | cons expected pattern ih =>
    by_cases isStar : expected = '*'
    · subst isStar
      simp [covers_star_iff, ih]
    · simp [covers_cons_of_ne_star isStar, isStar]

/-- A star that covers the end of a name covers the whole name as well. -/
theorem covers_star_of_suffix {later : List Char} (suffix : later <:+ name)
    (covers : Covers ('*' :: pattern) later) : Covers ('*' :: pattern) name := by
  obtain ⟨rest, inside, covers⟩ := covers_star_iff.1 covers
  exact covers_star_iff.2 ⟨rest, inside.trans suffix, covers⟩

/-- What the characters before the next star decide. To begin them later in the name can only help a
pattern that was not begun in vain: whatever the pattern covers then, the star that was met covers. -/
theorem advance_spec (pattern name : List Char) :
    match advance pattern name with
    | .finished accepts =>
      (accepts = true → Covers pattern name) ∧
        ∀ later, later <:+ name → Covers pattern later → accepts = true
    | .star pattern' name' =>
      (Covers ('*' :: pattern') name' → Covers pattern name) ∧
        ∀ later, later <:+ name → Covers pattern later → Covers ('*' :: pattern') name'
    | .stuck => ¬ Covers pattern name := by
  fun_induction advance pattern name with
  | case1 pattern =>
    refine ⟨covers_empty_iff.2, ?_⟩
    intro later suffix covers
    rw [List.suffix_nil.1 suffix] at covers
    exact covers_empty_iff.1 covers
  | case2 actual name => simp [covers_nil_iff]
  | case3 expected pattern actual name isStar =>
    rw [beq_iff_eq] at isStar
    subst isStar
    exact ⟨id, fun later suffix covers => covers_star_of_suffix suffix covers⟩
  | case4 expected pattern actual name notStar fits ih =>
    have notStar : expected ≠ '*' := by simpa using notStar
    have fits : expected = '?' ∨ expected = actual := by simpa using fits
    have begun (covers : Covers pattern name) : Covers (expected :: pattern) (actual :: name) :=
      (covers_cons_of_ne_star notStar).2 ⟨actual, name, fits, covers, rfl⟩
    have shorter {later : List Char} (suffix : later <:+ actual :: name)
        (covers : Covers (expected :: pattern) later) :
        ∃ rest, rest <:+ name ∧ Covers pattern rest := by
      obtain ⟨first, rest, _, onward, rfl⟩ := (covers_cons_of_ne_star notStar).1 covers
      refine ⟨rest, ?_, onward⟩
      rcases List.suffix_cons_iff.1 suffix with same | inside
      · cases same
        exact List.suffix_rfl
      · exact (List.suffix_cons first rest).trans inside
    cases met : advance pattern name with
    | finished accepts =>
      rw [met] at ih
      refine ⟨fun all => begun (ih.1 all), ?_⟩
      intro later suffix covers
      obtain ⟨rest, inside, covers⟩ := shorter suffix covers
      exact ih.2 rest inside covers
    | star pattern' name' =>
      rw [met] at ih
      refine ⟨fun more => begun (ih.1 more), ?_⟩
      intro later suffix covers
      obtain ⟨rest, inside, covers⟩ := shorter suffix covers
      exact ih.2 rest inside covers
    | stuck =>
      rw [met] at ih
      intro covers
      obtain ⟨_, _, _, covers, same⟩ := (covers_cons_of_ne_star notStar).1 covers
      cases same
      exact ih covers
  | case5 expected pattern actual name notStar differs =>
    have notStar : expected ≠ '*' := by simpa using notStar
    intro covers
    obtain ⟨_, _, fits, _, same⟩ := (covers_cons_of_ne_star notStar).1 covers
    cases same
    exact differs (by simpa using fits)

/-- The search behind a star finds out whether the star and the rest of the pattern cover the name. -/
theorem search_iff (pattern name : List Char) :
    search pattern name = true ↔ Covers ('*' :: pattern) name := by
  fun_induction search pattern name with
  | case1 pattern name accepts met =>
    have law := advance_spec pattern name
    rw [met] at law
    rw [covers_star_iff]
    constructor
    · intro all
      exact ⟨name, List.suffix_rfl, law.1 all⟩
    · rintro ⟨rest, suffix, covers⟩
      exact law.2 rest suffix covers
  | case2 pattern name pattern' name' met ih =>
    have law := advance_spec pattern name
    rw [met] at law
    rw [ih]
    constructor
    · intro covers
      exact covers_star_iff.2 ⟨name, List.suffix_rfl, law.1 covers⟩
    · intro covers
      obtain ⟨rest, suffix, covers⟩ := covers_star_iff.1 covers
      exact law.2 rest suffix covers
  | case3 pattern met =>
    have law := advance_spec pattern []
    rw [met] at law
    simp only [Bool.false_eq_true, covers_star_iff, List.suffix_nil, false_iff]
    rintro ⟨_, rfl, covers⟩
    exact law covers
  | case4 pattern actual rest met ih =>
    have law := advance_spec pattern (actual :: rest)
    rw [met] at law
    rw [ih, covers_star_iff, covers_star_iff]
    constructor
    · rintro ⟨later, suffix, covers⟩
      exact ⟨later, suffix.trans (List.suffix_cons actual rest), covers⟩
    · rintro ⟨later, suffix, covers⟩
      rcases List.suffix_cons_iff.1 suffix with rfl | inside
      · exact absurd covers law
      · exact ⟨later, inside, covers⟩

/-- Whole names are matched in the form in which they are compared. -/
theorem fits_iff_covers_fold (pattern name : String) (caseSensitive : Bool) :
    fits pattern name caseSensitive = true ↔
      Covers (fold caseSensitive pattern) (fold caseSensitive name) := by
  have law := advance_spec (fold caseSensitive pattern) (fold caseSensitive name)
  unfold fits
  cases met : advance (fold caseSensitive pattern) (fold caseSensitive name) with
  | finished accepts =>
    rw [met] at law
    exact ⟨law.1, law.2 _ List.suffix_rfl⟩
  | star pattern' name' =>
    rw [met] at law
    exact (search_iff pattern' name').trans ⟨law.1, law.2 _ List.suffix_rfl⟩
  | stuck =>
    rw [met] at law
    exact ⟨nofun, fun covers => absurd covers law⟩

theorem fold_true (text : String) : fold true text = text.toList := rfl

/-- Where the case of letters is ignored, those of ASCII are put into upper case. -/
theorem fold_false (text : String) : fold false text = text.toList.map Char.toUpper := rfl

/-- A name fits a pattern if and only if it can be cut into consecutive pieces, one for each character
of the pattern, where a star takes any piece, a question mark one character, and every other character
itself. Where the case of letters is ignored, this is so of both in upper case. -/
theorem fits_iff_covers (pattern name : String) :
    (fits pattern name true = true ↔ Covers pattern.toList name.toList) ∧
    (fits pattern name false = true ↔
      Covers (pattern.toList.map Char.toUpper) (name.toList.map Char.toUpper)) := by
  rw [fits_iff_covers_fold, fits_iff_covers_fold, fold_true, fold_true, fold_false, fold_false]
  exact ⟨.rfl, .rfl⟩

/-- A pattern in lower case, with a star between two letters, fits a name in upper case only where the
case of letters is ignored. -/
theorem fits_iff_covers_of_lower_case :
    fits "g*e" "GAME" true = false ∧ fits "g*e" "GAME" false = true ∧
      ¬ Covers ['g', '*', 'e'] ['G', 'A', 'M', 'E'] ∧
      Covers ['G', '*', 'E'] ['G', 'A', 'M', 'E'] := by
  obtain ⟨exact, folded⟩ := fits_iff_covers "g*e" "GAME"
  have refused : fits "g*e" "GAME" true = false := by decide +kernel
  have covers : Covers ['G', '*', 'E'] ['G', 'A', 'M', 'E'] :=
    ⟨[['G'], ['A', 'M'], ['E']],
      .cons (.itself (by decide) (by decide)) (.cons (.star _)
        (.cons (.itself (by decide) (by decide)) .nil)), rfl⟩
  refine ⟨refused, folded.2 covers, ?_, covers⟩
  intro covers
  cases refused.symm.trans (exact.2 covers)

/-- Read as a pattern, a text takes itself, whatever its characters stand for. -/
theorem covers_self (text : List Char) : Covers text text := by
  induction text with
  | nil => exact covers_nil_iff.2 rfl
  | cons char text ih =>
    refine covers_cons_iff.2 ⟨[char], text, ?_, ih, rfl⟩
    by_cases isStar : char = '*'
    · subst isStar
      exact .star ['*']
    · by_cases isOne : char = '?'
      · subst isOne
        exact .one '?'
      · exact .itself isStar isOne

/-- Names that are the same once the case of letters is ignored where it does not matter. -/
def SameName (caseSensitive : Bool) (name name' : String) : Prop :=
  fold caseSensitive name = fold caseSensitive name'

instance (caseSensitive : Bool) (name name' : String) : Decidable (SameName caseSensitive name name') :=
  inferInstanceAs (Decidable (_ = _))

/-- Names are the same if they are equal, and where the case of letters is ignored, if they are equal
character by character but for the case of ASCII letters. -/
theorem sameName_iff {caseSensitive : Bool} {name name' : String} :
    SameName caseSensitive name name' ↔
      if caseSensitive then name = name'
      else List.Forall₂ (fun char char' : Char => char.toUpper = char'.toUpper)
        name.toList name'.toList := by
  cases caseSensitive with
  | true => exact String.toList_inj
  | false =>
    rw [SameName, fold_false, fold_false, if_neg (by decide), ← List.forall₂_eq_eq_eq,
      List.forall₂_map_left_iff, List.forall₂_map_right_iff]

/-- A name fits whatever is the same name, read as a pattern. -/
theorem fits_of_sameName {caseSensitive : Bool} {pattern name : String}
    (same : SameName caseSensitive pattern name) : fits pattern name caseSensitive = true :=
  (fits_iff_covers_fold pattern name caseSensitive).2 (same ▸ covers_self _)

/-- A text stands for nothing but itself. -/
def Plain (pattern : String) : Prop := '*' ∉ pattern.toList ∧ '?' ∉ pattern.toList

theorem advance_of_plain {pattern : List Char} (star : '*' ∉ pattern) (question : '?' ∉ pattern)
    (name : List Char) :
    advance pattern name = .finished true ∧ pattern = name ∨
      (advance pattern name = .finished false ∨ advance pattern name = .stuck) ∧ pattern ≠ name := by
  induction pattern generalizing name with
  | nil =>
    cases name with
    | nil => exact .inl ⟨rfl, rfl⟩
    | cons actual name => exact .inr ⟨.inr rfl, nofun⟩
  | cons expected pattern ih =>
    rw [List.mem_cons, not_or] at star question
    have literal : (expected == '*') = false ∧ (expected == '?') = false :=
      ⟨beq_eq_false_iff_ne.2 (Ne.symm star.1), beq_eq_false_iff_ne.2 (Ne.symm question.1)⟩
    cases name with
    | nil =>
      refine .inr ⟨.inl ?_, nofun⟩
      rw [advance, List.all_cons, literal.1]
      rfl
    | cons actual name =>
      unfold advance
      rw [literal.1, literal.2, if_neg (by decide), Bool.false_or]
      by_cases same : expected = actual
      · rw [if_pos (beq_iff_eq.2 same), same, List.cons.injEq]
        simpa using ih star.2 question.2 name
      · rw [if_neg (by simpa using same)]
        exact .inr ⟨.inr rfl, fun equal => same (List.cons.inj equal).1⟩

/-- A star or a question mark comes from no other character when letters are put into upper case. -/
theorem eq_of_toUpper_eq {wild char : Char} (isWild : wild = '*' ∨ wild = '?')
    (raised : char.toUpper = wild) : char = wild := by
  unfold Char.toUpper at raised
  split at raised
  · rename_i lower
    have value := congrArg (fun char => char.val.toNat) raised
    have low := UInt32.le_iff_toNat_le.1 lower.1
    have high := UInt32.le_iff_toNat_le.1 lower.2
    rcases isWild with rfl | rfl <;> simp at value low high <;> omega
  · exact raised

theorem not_mem_fold {wild : Char} (isWild : wild = '*' ∨ wild = '?') {text : String}
    (plain : wild ∉ text.toList) (caseSensitive : Bool) : wild ∉ fold caseSensitive text := by
  cases caseSensitive with
  | true => exact plain
  | false =>
    intro member
    obtain ⟨char, inside, raised⟩ := List.mem_map.1 member
    exact plain (eq_of_toUpper_eq isWild raised ▸ inside)

/-- A text without wild characters fits nothing but the same name. -/
theorem fits_eq_of_plain {pattern : String} (plain : Plain pattern) (name : String)
    (caseSensitive : Bool) :
    fits pattern name caseSensitive = (fold caseSensitive pattern == fold caseSensitive name) := by
  unfold fits
  rcases advance_of_plain (not_mem_fold (.inl rfl) plain.1 caseSensitive)
      (not_mem_fold (.inr rfl) plain.2 caseSensitive) (fold caseSensitive name) with
    ⟨step, same⟩ | ⟨step | step, other⟩
  · rw [step, beq_iff_eq.2 same]
  · rw [step, beq_eq_false_iff_ne.2 other]
  · rw [step, beq_eq_false_iff_ne.2 other]

theorem fits_of_plain {pattern : String} (plain : Plain pattern) (name : String) :
    fits pattern name true = (pattern == name) := by
  rw [fits_eq_of_plain plain, Bool.eq_iff_iff, beq_iff_eq, beq_iff_eq]
  exact sameName_iff

end RetroMedia.Wildcard
