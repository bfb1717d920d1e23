import RetroMedia.Qr.Matrix

/-! Matrices as text. A character stands for a square of four modules, and a margin of two light
modules surrounds the matrix. -/
namespace RetroMedia.Qr.Quadrants

/-- Light modules on each side of the matrix. -/
def margin : Nat := 2

/-- The characters by the quarters they fill: upper left counts eight, upper right four, lower left
two and lower right one. -/
def glyphs : List Char :=
  [0x20, 0x2597, 0x2596, 0x2584, 0x259D, 0x2590, 0x259E, 0x259F, 0x2598, 0x259A, 0x258C, 0x2599,
    0x2580, 0x259C, 0x259B, 0x2588].map Char.ofNat

/-- The character of four modules. -/
def glyph (upperLeft upperRight lowerLeft lowerRight : Bool) : Char :=
  glyphs.getD (8 * upperLeft.toNat + 4 * upperRight.toNat + 2 * lowerLeft.toNat + lowerRight.toNat)
    ' '

/-- Is the module dark that stands in column `x` and row `y` when the margin counts as well? -/
def isDarkAt (matrix : Matrix) (x y : Nat) : Bool :=
  margin ≤ x && margin ≤ y && matrix.isDark (x - margin) (y - margin)

/-- The character in column `column` and row `row` of the text. -/
def glyphAt (matrix : Matrix) (column row : Nat) : Char :=
  glyph (isDarkAt matrix (2 * column) (2 * row)) (isDarkAt matrix (2 * column + 1) (2 * row))
    (isDarkAt matrix (2 * column) (2 * row + 1)) (isDarkAt matrix (2 * column + 1) (2 * row + 1))

/-- Characters along each side of the text. -/
def extent (matrix : Matrix) : Nat := (matrix.width + 2 * margin + 1) / 2

/-- The rows of the text. -/
def lines (matrix : Matrix) : List (List Char) :=
  (List.range (extent matrix)).map fun row =>
    (List.range (extent matrix)).map fun column => glyphAt matrix column row

/-- The text, with a newline after each row. -/
def render (matrix : Matrix) : String :=
  String.ofList ((lines matrix).flatMap fun line => line ++ ['\n'])

end RetroMedia.Qr.Quadrants
