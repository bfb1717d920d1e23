import RetroMedia.Bytes

/-! Sync marks: ten one-bits in a row, which coded data never holds. A mark is seen at a byte whose
two low bits are set and that is followed by a byte of ones; it ends with its run of such bytes. -/
namespace RetroMedia.Gcr

/-- Does a mark begin in `first`, when `second` follows it? -/
def beginsSync (first second : UInt8) : Bool := first &&& 0x03 == 0x03 && second == 0xFF

/-- The first byte after a run of ones, with its position. -/
def skipOnes : Bytes → Nat → Option (Nat × Bytes)
  | [], _ => none
  | byte :: rest, position =>
    if byte == 0xFF then skipOnes rest (position + 1) else some (position, byte :: rest)

/-- The bytes after the next sync mark, with their position, where the given bytes stand at
`position`. A mark that runs into the end of the track counts for none. -/
def nextSync : Bytes → Nat → Option (Nat × Bytes)
  | first :: second :: rest, position =>
    if beginsSync first second then skipOnes (second :: rest) (position + 1)
    else nextSync (second :: rest) (position + 1)
  | _, _ => none

/-- The position after the next sync mark at or after `start`. -/
def findSync (track : Bytes) (start : Nat) : Option Nat :=
  (nextSync (track.drop start) start).map (·.1)

theorem skipOnes_length_le {bytes rest : Bytes} {position after : Nat}
    (found : skipOnes bytes position = some (after, rest)) : rest.length ≤ bytes.length := by
  fun_induction skipOnes bytes position with
  | case1 => simp at found
  | case2 position byte tail ones ih =>
    have := ih found
    simp only [List.length_cons]
    omega
  | case3 position byte tail notOnes =>
    simp only [Option.some.injEq, Prod.mk.injEq] at found
    exact Nat.le_of_eq (congrArg List.length found.2.symm)

/-- A scan always leaves less behind than it was given. -/
theorem nextSync_length_lt {bytes rest : Bytes} {position after : Nat}
    (found : nextSync bytes position = some (after, rest)) : rest.length < bytes.length := by
  fun_induction nextSync bytes position with
  | case1 position first second tail begins =>
    have := skipOnes_length_le found
    simp only [List.length_cons] at *
    omega
  | case2 position first second tail begins ih =>
    have := ih found
    simp only [List.length_cons] at *
    omega
  | case3 => simp at found

end RetroMedia.Gcr
