import RetroMedia.Bytes
import RetroMedia.Json.Value

/-! Numbers of a document. Digits are collected into a 64-bit significand for as long as they fit;
digits beyond that only shift the decimal exponent. A fraction or an exponent makes a double: the
significand, scaled by powers of ten that are doubles themselves. -/
namespace RetroMedia.JsonNumber

def isDigit (byte : UInt8) : Bool := 0x30 ≤ byte && byte ≤ 0x39

/-- The digits at the beginning of some bytes, as numbers, and the bytes after them. -/
def spanDigits : Bytes → List Nat × Bytes
  | [] => ([], [])
  | byte :: rest =>
    if isDigit byte then
      let (digits, after) := spanDigits rest
      ((byte.toNat - 0x30) :: digits, after)
    else ([], byte :: rest)

/-- Append digits to a significand while it stays below `limit`; the digits left over follow. -/
def absorb (limit : Nat) : Nat → List Nat → Nat × List Nat
  | value, [] => (value, [])
  | value, digit :: rest =>
    if 10 * value + digit < limit then absorb limit (10 * value + digit) rest
    else (value, digit :: rest)

/-- Significands are 64-bit words. -/
def significandLimit : Nat := UInt64.size

/-- Negative integers are signed 64-bit words. -/
def negatedLimit : Nat := 9223372036854775808

/-- Exponents are signed 32-bit words. -/
def exponentLimit : Nat := 2147483648

/-- The greatest power of ten that is a double. -/
def maxPower : Nat := 308

/-- A power of ten as a double. -/
def powerOfTen? (exponent : Nat) : Option Binary64 := Binary64.ofNat? (Nat.pow 10 exponent)

/-- Divide a double by `10 ^ magnitude`, by the greatest power for as long as the magnitude exceeds
it. `steps` bounds the divisions. -/
def shrink : Nat → Binary64 → Nat → Option Binary64
  | 0, value, _ => some value
  | steps + 1, value, magnitude =>
    if magnitude ≤ maxPower then (powerOfTen? magnitude).bind value.div?
    else if value.isZero then some value
    else ((powerOfTen? maxPower).bind value.div?).bind (shrink steps · (magnitude - maxPower))

/-- Scale a double by a power of ten. A result that is not finite is no number. -/
def scale (value : Binary64) (exponent : Int) : Option Binary64 :=
  if exponent < 0 then shrink ((-exponent).toNat / maxPower + 1) value (-exponent).toNat
  else if exponent.toNat ≤ maxPower then (powerOfTen? exponent.toNat).bind value.mul?
  else if value.isZero then some value
  else none

/-- The double `significand * 10 ^ exponent`, or nothing if it is not finite. -/
def float? (negative : Bool) (significand : Nat) (exponent : Int) : Option JsonNumber := do
  let value ← (← Binary64.ofNat? significand) |> (scale · exponent)
  return .float (if negative then value.negate else value)

/-- A number without fraction and exponent. Zero with a minus sign is a double, and so is a
negative number that does not fit 64 bits. -/
def integer? (negative : Bool) (value : Nat) : Option JsonNumber :=
  if !negative then some (.natural value)
  else if value = 0 ∨ negatedLimit < value then float? true value 0
  else some (.negated value)

/-- The exponent part, if there is one: its sign, its digits and the bytes after it. An exponent
without digits is malformed. -/
def exponentPart? (bytes : Bytes) : Option (Option (Bool × List Nat) × Bytes) :=
  match bytes with
  | mark :: rest =>
    if mark == 0x65 || mark == 0x45 then
      let (shrinks, rest) := match rest with
        | 0x2B :: rest => (false, rest)
        | 0x2D :: rest => (true, rest)
        | rest => (false, rest)
      match spanDigits rest with
      | ([], _) => none
      | (digits, after) => some (some (shrinks, digits), after)
    else some (none, mark :: rest)
  | [] => some (none, [])

/-- The fraction part, if there is one. A point without digits is malformed. -/
def fractionPart? (bytes : Bytes) : Option (Option (List Nat) × Bytes) :=
  match bytes with
  | 0x2E :: rest =>
    match spanDigits rest with
    | ([], _) => none
    | (digits, after) => some (some digits, after)
  | rest => some (none, rest)

/-- The value of a number's parts. -/
def ofParts? (negative : Bool) (whole : List Nat) (fraction : Option (List Nat))
    (exponent : Option (Bool × List Nat)) : Option JsonNumber :=
  let (significand, beyond) := absorb significandLimit 0 whole
  let (significand, shift) := match fraction with
    | none => (significand, (beyond.length : Int))
    | some digits =>
      let (longer, unused) := absorb significandLimit significand digits
      (longer, (beyond.length : Int) - (digits.length - unused.length : Nat))
  match exponent with
  | none =>
    if fraction.isNone && beyond.isEmpty then integer? negative significand
    else float? negative significand shift
  | some (shrinks, digits) =>
    match absorb exponentLimit 0 digits with
    | (power, []) =>
      float? negative significand (if shrinks then shift - power else shift + power)
    | (_, _ :: _) => if significand != 0 && !shrinks then none else float? negative 0 0

/-- A number at the beginning of some bytes, and the bytes after it. No digit may follow a leading
zero. -/
def read? (bytes : Bytes) : Option (JsonNumber × Bytes) := do
  let (negative, unsigned) := match bytes with
    | 0x2D :: rest => (true, rest)
    | rest => (false, rest)
  let (whole, rest) := spanDigits unsigned
  match whole with
  | [] => none
  | 0 :: _ :: _ => none
  | _ =>
    let (fraction, rest) ← fractionPart? rest
    let (exponent, rest) ← exponentPart? rest
    let number ← ofParts? negative whole fraction exponent
    return (number, rest)

theorem spanDigits_length (bytes : Bytes) :
    (spanDigits bytes).1.length + (spanDigits bytes).2.length = bytes.length := by
  induction bytes with
  | nil => rfl
  | cons byte rest ih =>
    unfold spanDigits
    split
    · simp only [List.length_cons]
      omega
    · simp

theorem fractionPart?_length_le {bytes rest : Bytes} {digits : Option (List Nat)}
    (found : fractionPart? bytes = some (digits, rest)) : rest.length ≤ bytes.length := by
  unfold fractionPart? at found
  split at found
  · rename_i tail
    have size := spanDigits_length tail
    split at found
    · simp at found
    · rename_i spanned
      simp only [Option.some.injEq, Prod.mk.injEq] at found
      simp only [spanned, found.2] at size
      simp only [List.length_cons]
      omega
  · simp only [Option.some.injEq, Prod.mk.injEq] at found
    exact Nat.le_of_eq (congrArg List.length found.2.symm)

theorem exponentPart?_length_le {bytes rest : Bytes} {digits : Option (Bool × List Nat)}
    (found : exponentPart? bytes = some (digits, rest)) : rest.length ≤ bytes.length := by
  unfold exponentPart? at found
  split at found
  · rename_i mark tail
    split at found
    · dsimp only at found
      split at found
      · simp at found
      · rename_i spanned
        simp only [Option.some.injEq, Prod.mk.injEq] at found
        have size := spanDigits_length (match tail with
          | 0x2B :: rest => (false, rest)
          | 0x2D :: rest => (true, rest)
          | rest => (false, rest)).2
        simp only [spanned, found.2] at size
        simp only [List.length_cons]
        split at size <;> simp only [List.length_cons] at * <;> omega
    · simp only [Option.some.injEq, Prod.mk.injEq] at found
      exact Nat.le_of_eq (congrArg List.length found.2.symm)
  · simp only [Option.some.injEq, Prod.mk.injEq] at found
    exact Nat.le_of_eq (congrArg List.length found.2.symm)

theorem read?_length_lt {bytes rest : Bytes} {number : JsonNumber}
    (found : read? bytes = some (number, rest)) : rest.length < bytes.length := by
  unfold read? at found
  dsimp only at found
  have unsigned : (match bytes with
    | 0x2D :: rest => (true, rest)
    | rest => (false, rest)).2.length ≤ bytes.length := by
    split <;> simp
  have size := spanDigits_length (match bytes with
    | 0x2D :: rest => (true, rest)
    | rest => (false, rest)).2
  split at found
  · simp at found
  · simp at found
  · rename_i nonempty _
    simp only [Option.bind_eq_bind, Option.bind_eq_some_iff] at found
    obtain ⟨⟨fraction, afterFraction⟩, first, ⟨exponent, afterExponent⟩, second, value, _, same⟩ :=
      found
    simp only [Option.pure_def, Option.some.injEq, Prod.mk.injEq] at same
    have one := fractionPart?_length_le first
    have two : afterExponent.length ≤ afterFraction.length := exponentPart?_length_le second
    have some := List.length_pos_iff.2 nonempty
    rw [← same.2]
    omega

end RetroMedia.JsonNumber
