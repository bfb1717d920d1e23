import RetroMedia.Generated
import RetroMedia.Proofs.Checked.Basic

/-! Matrices as text, with checked accesses and read back. A block element shows four modules by the
quarters that it fills. Main statement: the text of any matrix shows its modules in place, with nothing
but light ones around them, and no module is looked for outside of the matrix. -/
namespace RetroMedia

namespace Qr

/-- Modules inside of a matrix stand row after row. -/
theorem Matrix.getElem?_modules {matrix : Matrix} {x y : Nat} (left : x < matrix.width)
    (above : y < matrix.width) :
    matrix.modules[y * matrix.width + x]? = some (matrix.isDark x y) := by
  rw [isDark, dif_pos ⟨left, above⟩]
  exact Array.getElem?_eq_getElem _

namespace Quadrants

variable {matrix : Matrix} {x y : Nat}

/-- Everything but the matrix itself is light. -/
theorem isDarkAt_of_outside
    (outside : x < margin ∨ y < margin ∨ matrix.width + margin ≤ x ∨ matrix.width + margin ≤ y) :
    isDarkAt matrix x y = false := by
  rw [isDarkAt, Bool.and_eq_false_iff, Bool.and_eq_false_iff, decide_eq_false_iff_not,
    decide_eq_false_iff_not, Matrix.isDark, dite_eq_right_iff]
  by_cases inside : x - margin < matrix.width ∧ y - margin < matrix.width
  · exact .inl (by omega)
  · exact .inr fun same => absurd same inside

theorem isDarkAt_of_inside (left : margin ≤ x) (above : margin ≤ y) :
    isDarkAt matrix x y = matrix.isDark (x - margin) (y - margin) := by
  rw [isDarkAt, decide_eq_true left, decide_eq_true above, Bool.true_and, Bool.true_and]

end Quadrants
end Qr

namespace Checked.Quadrants

open Qr (Matrix)
open Qr.Quadrants (margin glyphs extent)

/-- Is the module dark that stands in column `x` and row `y` when the margin counts as well? -/
def darkAt (matrix : Matrix) (x y : Nat) : Checked Bool := do
  if x < margin ∨ y < margin ∨ matrix.width + margin ≤ x ∨ matrix.width + margin ≤ y then
    return false
  else item matrix.modules.toList ((← sub y margin) * matrix.width + (← sub x margin))

/-- The character in column `column` and row `row` of the text. -/
def glyphAt (matrix : Matrix) (column row : Nat) : Checked Char := do
  let x := column * 2
  let y := row * 2
  let upperLeft ← darkAt matrix x y
  let upperRight ← darkAt matrix (x + 1) y
  let lowerLeft ← darkAt matrix x (y + 1)
  let lowerRight ← darkAt matrix (x + 1) (y + 1)
  item glyphs (upperLeft.toNat <<< 3 ||| upperRight.toNat <<< 2 ||| lowerLeft.toNat <<< 1
    ||| lowerRight.toNat)

/-- The text, with a newline after each row. -/
def render (matrix : Matrix) : Checked String := do
  let lines ← (List.range (extent matrix)).mapM fun row =>
    (List.range (extent matrix)).mapM fun column => glyphAt matrix column row
  return String.ofList (lines.flatMap fun line => line ++ ['\n'])

theorem darkAt_eq (matrix : Matrix) (x y : Nat) :
    darkAt matrix x y = .ok (Qr.Quadrants.isDarkAt matrix x y) := by
  unfold darkAt
  split
  · rename_i outside
    rw [Qr.Quadrants.isDarkAt_of_outside outside]
    rfl
  · rw [sub_eq (by omega), ok_bind, sub_eq (by omega), ok_bind,
      Qr.Quadrants.isDarkAt_of_inside (by omega) (by omega)]
    apply item_eq
    rw [Array.getElem?_toList]
    exact Matrix.getElem?_modules (by omega) (by omega)

theorem glyph_eq (upperLeft upperRight lowerLeft lowerRight : Bool) :
    item glyphs (upperLeft.toNat <<< 3 ||| upperRight.toNat <<< 2 ||| lowerLeft.toNat <<< 1
      ||| lowerRight.toNat)
      = .ok (Qr.Quadrants.glyph upperLeft upperRight lowerLeft lowerRight) := by
  apply item_eq
  revert upperLeft upperRight lowerLeft lowerRight
  decide

theorem glyphAt_eq (matrix : Matrix) (column row : Nat) :
    glyphAt matrix column row = .ok (Qr.Quadrants.glyphAt matrix column row) := by
  simp only [glyphAt, darkAt_eq, ok_bind, glyph_eq, Nat.mul_comm _ 2]
  rfl

/-- No module is looked for outside of the matrix, and no character outside of the table. -/
theorem render_eq (matrix : Matrix) : render matrix = .ok (Qr.Quadrants.render matrix) := by
  have lines : (List.range (extent matrix)).mapM (fun row =>
      (List.range (extent matrix)).mapM fun column => glyphAt matrix column row)
        = .ok (Qr.Quadrants.lines matrix) :=
    mapM_eq fun row _ => mapM_eq fun column _ => glyphAt_eq matrix column row
  rw [render, lines]
  rfl

end Checked.Quadrants

namespace Qr.Quadrants

/-- The quarters that a character fills, by its name in Unicode: upper left, upper right, lower left
and lower right. -/
def filled? (char : Char) : Option (Bool × Bool × Bool × Bool) :=
  match char.toNat with
  | 0x0020 => some (false, false, false, false) -- space
  | 0x2580 => some (true, true, false, false) -- upper half block
  | 0x2584 => some (false, false, true, true) -- lower half block
  | 0x2588 => some (true, true, true, true) -- full block
  | 0x258C => some (true, false, true, false) -- left half block
  | 0x2590 => some (false, true, false, true) -- right half block
  | 0x2596 => some (false, false, true, false) -- quadrant lower left
  | 0x2597 => some (false, false, false, true) -- quadrant lower right
  | 0x2598 => some (true, false, false, false) -- quadrant upper left
  | 0x2599 => some (true, false, true, true) -- quadrant upper left and lower left and lower right
  | 0x259A => some (true, false, false, true) -- quadrant upper left and lower right
  | 0x259B => some (true, true, true, false) -- quadrant upper left and upper right and lower left
  | 0x259C => some (true, true, false, true) -- quadrant upper left and upper right and lower right
  | 0x259D => some (false, true, false, false) -- quadrant upper right
  | 0x259E => some (false, true, true, false) -- quadrant upper right and lower left
  | 0x259F => some (false, true, true, true) -- quadrant upper right and lower left and lower right
  | _ => none

/-- The two rows of modules that a line shows. -/
def rowsOf? (line : List Char) : Option (List (List Bool)) := do
  let cells ← line.mapM filled?
  return [cells.flatMap fun (upperLeft, upperRight, _, _) => [upperLeft, upperRight],
    cells.flatMap fun (_, _, lowerLeft, lowerRight) => [lowerLeft, lowerRight]]

/-- The lines of a text, if each of them ends in a newline. -/
def linesOf? (text : String) : Option (List (List Char)) :=
  let pieces := text.toList.splitOn '\n'
  if pieces.getLast? = some [] then some pieces.dropLast else none

/-- The modules that some lines show, row after row. -/
def shownBy? (lines : List (List Char)) : Option (List (List Bool)) :=
  (lines.mapM rowsOf?).map List.flatten

/-- The module in column `x` and row `y`. -/
def moduleAt? (rows : List (List Bool)) (x y : Nat) : Option Bool := do
  let row ← rows[y]?
  row[x]?

section Lines

theorem splitOn_lines {lines : List (List Char)} (plain : ∀ line ∈ lines, '\n' ∉ line) :
    (lines.flatMap fun line => line ++ ['\n']).splitOn '\n' = lines ++ [[]] := by
  induction lines with
  | nil => rfl
  | cons line rest ih =>
    rw [List.flatMap_cons, List.append_assoc, List.singleton_append,
      List.splitOn_append_cons_self_of_not_mem (plain line List.mem_cons_self),
      ih fun other member => plain other (List.mem_cons_of_mem _ member), List.cons_append]

theorem glyph_ne_newline (upperLeft upperRight lowerLeft lowerRight : Bool) :
    glyph upperLeft upperRight lowerLeft lowerRight ≠ '\n' := by
  revert upperLeft upperRight lowerLeft lowerRight
  decide

theorem newline_notMem_lines {matrix : Matrix} {line : List Char} (member : line ∈ lines matrix) :
    '\n' ∉ line := by
  obtain ⟨row, -, rfl⟩ := List.mem_map.1 member
  intro inside
  obtain ⟨column, -, same⟩ := List.mem_map.1 inside
  exact glyph_ne_newline _ _ _ _ same

theorem linesOf?_render (matrix : Matrix) : linesOf? (render matrix) = some (lines matrix) := by
  have pieces : (render matrix).toList.splitOn '\n' = lines matrix ++ [[]] := by
    rw [render, String.toList_ofList]
    exact splitOn_lines fun _ => newline_notMem_lines
  unfold linesOf?
  dsimp only
  rw [pieces, List.getLast?_concat, List.dropLast_concat, if_pos rfl]

end Lines

section Modules

theorem filled?_glyph (upperLeft upperRight lowerLeft lowerRight : Bool) :
    filled? (glyph upperLeft upperRight lowerLeft lowerRight)
      = some (upperLeft, upperRight, lowerLeft, lowerRight) := by
  revert upperLeft upperRight lowerLeft lowerRight
  decide

/-- Pairs of neighbours make up the whole row. -/
theorem flatMap_pairs (f : Nat → α) (count : Nat) :
    ((List.range count).flatMap fun place => [f (2 * place), f (2 * place + 1)])
      = (List.range (2 * count)).map f := by
  induction count with
  | zero => rfl
  | succ count ih =>
    rw [List.range_succ, List.flatMap_append, ih, Nat.mul_succ, List.range_succ, List.range_succ]
    simp

/-- Row `y` of the matrix and its margin, as far as the text reaches. -/
def framedRow (matrix : Matrix) (y : Nat) : List Bool :=
  (List.range (2 * extent matrix)).map fun x => isDarkAt matrix x y

/-- The matrix and its margin, as far as the text reaches. -/
def framed (matrix : Matrix) : List (List Bool) :=
  (List.range (2 * extent matrix)).map (framedRow matrix)

theorem rowsOf?_line (matrix : Matrix) (row : Nat) :
    rowsOf? ((List.range (extent matrix)).map fun column => glyphAt matrix column row)
      = some [framedRow matrix (2 * row), framedRow matrix (2 * row + 1)] := by
  have cells : ((List.range (extent matrix)).map fun column => glyphAt matrix column row).mapM filled?
      = some ((List.range (extent matrix)).map fun column =>
          (isDarkAt matrix (2 * column) (2 * row), isDarkAt matrix (2 * column + 1) (2 * row),
            isDarkAt matrix (2 * column) (2 * row + 1),
            isDarkAt matrix (2 * column + 1) (2 * row + 1))) := by
    rw [List.mapM_map]
    simp only [Function.comp_def, glyphAt, filled?_glyph]
    exact List.mapM_pure
  rw [rowsOf?, cells]
  simp only [Option.bind_eq_bind, Option.bind_some, List.flatMap_map, framedRow, ← flatMap_pairs]
  rfl

theorem shownBy?_lines (matrix : Matrix) : shownBy? (lines matrix) = some (framed matrix) := by
  have rows : (lines matrix).mapM rowsOf? = some ((List.range (extent matrix)).map fun row =>
      [framedRow matrix (2 * row), framedRow matrix (2 * row + 1)]) := by
    rw [lines, List.mapM_map]
    simp only [Function.comp_def, rowsOf?_line]
    exact List.mapM_pure
  rw [shownBy?, rows, Option.map_some, ← List.flatMap_def, flatMap_pairs, framed]

theorem moduleAt?_framed {matrix : Matrix} {x y : Nat} (left : x < 2 * extent matrix)
    (above : y < 2 * extent matrix) : moduleAt? (framed matrix) x y = some (isDarkAt matrix x y) := by
  simp [moduleAt?, framed, framedRow, left, above]

theorem lt_of_moduleAt? {matrix : Matrix} {x y : Nat} {dark : Bool}
    (found : moduleAt? (framed matrix) x y = some dark) :
    x < 2 * extent matrix ∧ y < 2 * extent matrix := by
  obtain ⟨row, here, there⟩ := Option.bind_eq_some_iff.1 found
  obtain ⟨above, rfl⟩ := List.getElem?_eq_some_iff.1 here
  obtain ⟨left, -⟩ := List.getElem?_eq_some_iff.1 there
  simp only [framed, framedRow, List.getElem_map, List.length_map, List.length_range] at left above
  exact ⟨left, above⟩

end Modules

/-- Half of the columns of the matrix and its margin, rounded up. -/
theorem extent_eq (matrix : Matrix) : extent matrix = (matrix.width + 4 + 1) / 2 := rfl

/-- The text of any matrix is a square of block elements, half as many on a side as the matrix with two
modules around it has, rounded up, and nothing outside of the matrix is looked at for it. Read back by
the quarters that its characters fill, it shows the modules of the matrix in their places, two columns
and two rows from its left and upper edges. All around them, up to the right and lower edges at least
two columns and rows further on, it shows light modules only. -/
theorem render_carries_symbol (matrix : Matrix) :
    Checked.Quadrants.render matrix = .ok (render matrix) ∧
    (∀ message, symbol? message = some matrix →
      Generated.symbolText message = .ok (render matrix)) ∧
    ∃ lines shown, linesOf? (render matrix) = some lines ∧ shownBy? lines = some shown ∧
      lines.length = (matrix.width + 4 + 1) / 2 ∧
      (∀ line ∈ lines, line.length = (matrix.width + 4 + 1) / 2) ∧
      shown.length = 2 * ((matrix.width + 4 + 1) / 2) ∧
      (∀ row ∈ shown, row.length = 2 * ((matrix.width + 4 + 1) / 2)) ∧
      matrix.width + 4 ≤ 2 * ((matrix.width + 4 + 1) / 2) ∧
      (∀ x y, x < matrix.width → y < matrix.width →
        ∃ dark, matrix.modules[y * matrix.width + x]? = some dark ∧
          moduleAt? shown (x + 2) (y + 2) = some dark) ∧
      ∀ x y dark, moduleAt? shown x y = some dark →
        x < 2 ∨ y < 2 ∨ matrix.width + 2 ≤ x ∨ matrix.width + 2 ≤ y → dark = false := by
  rw [← extent_eq]
  have room : matrix.width + 4 ≤ 2 * extent matrix := by
    unfold extent margin
    omega
  refine ⟨Checked.Quadrants.render_eq matrix, ?_, lines matrix, framed matrix,
    linesOf?_render matrix, shownBy?_lines matrix, ?_, ?_, ?_, ?_, room, ?_, ?_⟩
  · intro message found
    rw [Generated.symbolText, found]
  · rw [lines, List.length_map, List.length_range]
  · intro line member
    obtain ⟨row, -, rfl⟩ := List.mem_map.1 member
    rw [List.length_map, List.length_range]
  · rw [framed, List.length_map, List.length_range]
  · intro line member
    obtain ⟨y, -, rfl⟩ := List.mem_map.1 member
    rw [framedRow, List.length_map, List.length_range]
  · intro x y left above
    refine ⟨_, Matrix.getElem?_modules left above, ?_⟩
    rw [moduleAt?_framed (by omega) (by omega)]
    exact congrArg some (isDarkAt_of_inside (Nat.le_add_left _ _) (Nat.le_add_left _ _))
  · intro x y dark found outside
    obtain ⟨left, above⟩ := lt_of_moduleAt? found
    rw [moduleAt?_framed left above, isDarkAt_of_outside outside] at found
    exact (Option.some.inj found).symm

/-- A single dark module stands in the middle of a text of three lines. -/
theorem render_carries_symbol_of_single :
    let single := Matrix.ofFn 1 fun _ _ => true
    ∃ lines shown, linesOf? (render single) = some lines ∧ shownBy? lines = some shown ∧
      lines.length = 3 ∧ moduleAt? shown 2 2 = some true ∧
      ∀ dark, moduleAt? shown 3 2 = some dark → dark = false := by
  intro single
  obtain ⟨_, _, lines, shown, cut, read, count, _, _, _, _, carried, light⟩ :=
    render_carries_symbol single
  obtain ⟨dark, stored, seen⟩ := carried 0 0 (by decide) (by decide)
  cases stored
  exact ⟨lines, shown, cut, read, count.trans (by decide), seen,
    fun dark found => light 3 2 dark found (by decide)⟩

end Qr.Quadrants
end RetroMedia
