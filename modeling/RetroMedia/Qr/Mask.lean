import RetroMedia.Qr.Matrix

/-! Masks. Codewords are inverted in a regular pattern, and of eight such patterns the one is chosen
that leaves the fewest features by which a reader could be misled. -/
namespace RetroMedia.Qr

/-- How many masks there are. -/
def maskCount : Nat := 8

/-- Does a mask invert the module in column `x` and row `y`? -/
def inverts (mask x y : Nat) : Bool :=
  match mask with
  | 0 => (x + y) % 2 == 0
  | 1 => y % 2 == 0
  | 2 => x % 3 == 0
  | 3 => (x + y) % 3 == 0
  | 4 => (y / 2 + x / 3) % 2 == 0
  | 5 => x * y % 2 + x * y % 3 == 0
  | 6 => (x * y % 2 + x * y % 3) % 2 == 0
  | _ => ((x + y) % 2 + x * y % 3) % 2 == 0

namespace Penalty

/-- The cost of a run of equal modules. -/
def runCost (length : Nat) : Nat := if 5 ≤ length then length - 2 else 0

/-- The cost of the runs of a line, of which the current one has `length` modules so far. -/
def runsFrom (color : Bool) (length : Nat) : List Bool → Nat
  | [] => runCost length
  | next :: rest =>
    if next == color then runsFrom color (length + 1) rest
    else runCost length + runsFrom next 1 rest

/-- The cost of the runs of a line. -/
def runs : List Bool → Nat
  | [] => 0
  | color :: rest => runsFrom color 1 rest

/-- A line across the middle of a corner mark. -/
def finderLine : List Bool := [true, false, true, true, true, false, true]

/-- The cost of everything that looks like a corner mark: such a line with four light modules on
either side of it. -/
def finders (newestFirst : List Bool) : List Bool → Nat
  | [] => 0
  | color :: rest =>
    let line := color :: rest
    let here := finderLine.isPrefixOf line
      && ((newestFirst.take 4).all (!·) || ((line.drop 7).take 4).all (!·))
    (if here then 40 else 0) + finders (color :: newestFirst) rest

/-- The cost of the squares of four equal modules in two neighbouring rows. -/
def squares : List Bool → List Bool → Nat
  | a :: b :: upper, c :: d :: lower =>
    (if a == b && a == c && a == d then 3 else 0) + squares (b :: upper) (d :: lower)
  | _, _ => 0

/-- The cost of one color being more frequent than the other. -/
def balance (dark total : Nat) : Nat :=
  let ratio := dark * 200 / total
  if ratio < 100 then 100 - ratio else ratio - 100

/-- The costs of some items together. -/
def sumOf (cost : α → Nat) (items : List α) : Nat := items.foldl (fun sum item => sum + cost item) 0

/-- The cost of a whole symbol. The three corner marks are free. -/
def total (matrix : Matrix) : Nat :=
  let rows := matrix.rows
  let lines := rows ++ matrix.columns
  let dark := sumOf (·.count true) rows
  sumOf runs lines + (sumOf (finders []) lines - 720)
    + sumOf (fun (upper, lower) => squares upper lower) (rows.zip (rows.drop 1))
    + balance dark (matrix.width * matrix.width)

end Penalty
end RetroMedia.Qr
