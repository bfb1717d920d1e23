import RetroMedia.Qr.Codewords

/-! Where everything stands in a symbol: marks by which it is found and aligned, a description of
its format and version, and in all other places the codewords. -/
namespace RetroMedia.Qr

/-- The distance of two coordinates. -/
def distance (a b : Nat) : Nat := max a b - min a b

/-- The distance of two places, along the longer side. -/
def ringOf (x y centerX centerY : Nat) : Nat := max (distance x centerX) (distance y centerY)

/-- The remainder of a division of polynomials over bits: of `value`, followed by as many zeros as
the divisor's degree, by the divisor. -/
def polynomialRemainder (divisor degree : Nat) (value : Nat) : Nat → Nat
  | 0 => value
  | bits + 1 =>
    let place := degree + bits
    polynomialRemainder divisor degree
      (if value.testBit place then value ^^^ divisor <<< bits else value) bits

/-- The description of the error correction and the mask, as fifteen bits. -/
def formatBits (mask : Nat) : Nat :=
  (mask <<< 10 ||| polynomialRemainder 0x537 10 (mask <<< 10) 5) ^^^ 0x5412

/-- The description of the version, as eighteen bits. -/
def versionBits (version : Nat) : Nat :=
  version <<< 12 ||| polynomialRemainder 0x1F25 12 (version <<< 12) 6

/-- What a module is for. -/
inductive Role where
  | fixed (dark : Bool)
  /-- A bit of the description of the format. -/
  | format (bit : Nat)
  | data
  deriving DecidableEq, Repr

/-- The marks in three corners, each with a light edge. -/
def finderRole? (width x y : Nat) : Option Role :=
  [(3, 3), (width - 4, 3), (3, width - 4)].findSome? fun (centerX, centerY) =>
    let ring := ringOf x y centerX centerY
    if ring ≤ 4 then some (.fixed (ring != 2 && ring != 4)) else none

/-- The smaller marks, except where a corner mark stands. -/
def alignmentRole? (version x y : Nat) : Option Role :=
  let centers := Version.alignmentCenters version
  let far := Version.width version - 7
  (centers.find? (distance x · ≤ 2)).bind fun centerX =>
    (centers.find? (distance y · ≤ 2)).bind fun centerY =>
      if [(6, 6), (6, far), (far, 6)].contains (centerX, centerY) then none
      else some (.fixed (ringOf x y centerX centerY != 1))

/-- The line of alternating modules in row and column six. -/
def timingRole? (x y : Nat) : Option Role :=
  if x == 6 then some (.fixed (y % 2 == 0))
  else if y == 6 then some (.fixed (x % 2 == 0))
  else none

/-- The two copies of the description of the format, and the module that is always dark. -/
def formatRole? (width x y : Nat) : Option Role :=
  if x == 8 && y ≤ 5 then some (.format y)
  else if x == 8 && (y == 7 || y == 8) then some (.format (y - 1))
  else if y == 8 && x == 7 then some (.format 8)
  else if y == 8 && x ≤ 5 then some (.format (14 - x))
  else if y == 8 && x < width && width ≤ x + 8 then some (.format (width - 1 - x))
  else if x == 8 && y + 8 == width then some (.fixed true)
  else if x == 8 && y < width && width ≤ y + 7 then some (.format (y + 15 - width))
  else none

/-- The two copies of the description of the version, in larger symbols. -/
def versionRole? (version x y : Nat) : Option Role :=
  let edge := Version.width version - 11
  let bit (across along : Nat) : Option Role :=
    if edge ≤ across && across < edge + 3 && along ≤ 5 then
      some (.fixed ((versionBits version).testBit (3 * along + (across - edge))))
    else none
  if version ≤ 6 then none else (bit x y).or (bit y x)

/-- What the module in column `x` and row `y` is for. -/
def roleAt (version x y : Nat) : Role :=
  let width := Version.width version
  ((finderRole? width x y).or <| (formatRole? width x y).or <| (versionRole? version x y).or <|
    (timingRole? x y).or <| alignmentRole? version x y).getD .data

/-- The columns in pairs from the right, without the column of alternating modules. -/
def columnPairs (width : Nat) : List Nat :=
  (List.range ((width - 1) / 2)).map fun index =>
    let right := width - 1 - 2 * index
    if right ≤ 6 then right - 1 else right

/-- The places of a symbol in the order in which codewords fill them: up and down in pairs of
columns, right before left. -/
def zigzag (width : Nat) : List (Nat × Nat) :=
  ((columnPairs width).mapIdx fun index right =>
    let rows := List.range width
    (if index % 2 == 0 then rows.reverse else rows).flatMap fun y =>
      [(right, y), (right - 1, y)]).flatten

end RetroMedia.Qr
