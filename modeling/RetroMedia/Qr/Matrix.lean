/-! Square matrices of dark and light modules. -/
namespace RetroMedia.Qr

/-- The modules of a symbol, row after row. -/
structure Matrix where
  width : Nat
  modules : Array Bool
  size_eq : modules.size = width * width

namespace Matrix

/-- The matrix whose module in column `x` and row `y` is `color x y`. -/
def ofFn (width : Nat) (color : Nat → Nat → Bool) : Matrix where
  width
  modules := Array.ofFn fun index : Fin (width * width) => color (index % width) (index / width)
  size_eq := by simp

/-- Is the module in column `x` and row `y` dark? Nothing is dark outside. -/
def isDark (matrix : Matrix) (x y : Nat) : Bool :=
  if inside : x < matrix.width ∧ y < matrix.width then
    have : y * matrix.width + x < matrix.modules.size := by
      rw [matrix.size_eq]
      have : (y + 1) * matrix.width ≤ matrix.width * matrix.width :=
        Nat.mul_le_mul_right _ inside.2
      rw [Nat.add_mul] at this
      omega
    matrix.modules[y * matrix.width + x]
  else false

def rows (matrix : Matrix) : List (List Bool) :=
  (List.range matrix.width).map fun y => (List.range matrix.width).map fun x => matrix.isDark x y

def columns (matrix : Matrix) : List (List Bool) :=
  (List.range matrix.width).map fun x => (List.range matrix.width).map fun y => matrix.isDark x y

end Matrix
end RetroMedia.Qr
