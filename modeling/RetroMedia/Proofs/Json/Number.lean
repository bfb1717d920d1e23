import RetroMedia.Json.Number
import RetroMedia.Json.Printer
import RetroMedia.Proofs.Text.Decimal
import RetroMedia.Proofs.Text.Utf8

/-! Numbers of a document, written and read back. A number without fraction and exponent is read back
from its digits, whatever follows them, as long as that cannot be part of a number. -/
namespace RetroMedia.JsonNumber

/-- The number is of the kind that the digits of a document can make up. -/
def Fits : JsonNumber → Prop
  | natural value => value < significandLimit
  | negated magnitude => 0 < magnitude ∧ magnitude ≤ negatedLimit
  | float _ => True

def isFloat : JsonNumber → Bool
  | float _ => true
  | _ => false

/-- Nothing at the beginning of some bytes goes on with a number. -/
def Stops (bytes : Bytes) : Prop :=
  ∀ byte ∈ bytes.head?, isDigit byte = false ∧ byte ≠ 0x2E ∧ byte ≠ 0x65 ∧ byte ≠ 0x45

variable {rest : Bytes} {value : Nat}

theorem fractionPart?_of_stops (stops : Stops rest) : fractionPart? rest = some (none, rest) := by
  unfold fractionPart?
  split
  · exact absurd rfl (stops 0x2E rfl).2.1
  · rfl

theorem exponentPart?_of_stops (stops : Stops rest) : exponentPart? rest = some (none, rest) := by
  unfold exponentPart?
  cases rest with
  | nil => rfl
  | cons byte after =>
    obtain ⟨_, _, small, large⟩ := stops byte rfl
    simp [small, large]

/-- The digits of a number, as numbers. -/
def digitsOf (value : Nat) : List Nat := (Nat.toDigits 10 value).map fun char => char.toNat - 0x30

theorem isDigit_toUInt8 {char : Char} (digit : char.isDigit = true) :
    isDigit char.toUInt8 = true := by
  have range := Char.isDigit_iff_toNat.1 digit
  simp only [Char.reduceToNat] at range
  simp [isDigit, UInt8.le_iff_toNat_le, Text.toNat_toUInt8_of_isDigit digit, range]

theorem spanDigits_of_digits {chars : List Char} (digits : ∀ char ∈ chars, char.isDigit = true)
    (stops : Stops rest) :
    spanDigits (chars.map Char.toUInt8 ++ rest) = (chars.map fun char => char.toNat - 0x30, rest) := by
  induction chars with
  | nil =>
    cases rest with
    | nil => rfl
    | cons byte after => simp [spanDigits, (stops byte rfl).1]
  | cons char chars ih =>
    have digit := digits char List.mem_cons_self
    rw [List.map_cons, List.cons_append, spanDigits, isDigit_toUInt8 digit, if_pos rfl,
      ih fun other member => digits other (List.mem_cons_of_mem _ member),
      Text.toNat_toUInt8_of_isDigit digit]
    rfl

theorem isDigit_of_mem {char : Char} (member : char ∈ Nat.toDigits 10 value) :
    char.isDigit = true :=
  Nat.isDigit_of_mem_toDigits (by decide) (by decide) member

theorem spanDigits_decimal (stops : Stops rest) (value : Nat) :
    spanDigits (Text.decimal value ++ rest) = (digitsOf value, rest) :=
  spanDigits_of_digits (fun _ => isDigit_of_mem) stops

/-- The number that digits make up behind another one. -/
def joined (value : Nat) (digits : List Nat) : Nat :=
  digits.foldl (fun sofar digit => 10 * sofar + digit) value

theorem le_joined (value : Nat) (digits : List Nat) : value ≤ joined value digits := by
  induction digits generalizing value with
  | nil => exact Nat.le_refl _
  | cons digit digits ih =>
    have more := ih (10 * value + digit)
    change value ≤ joined (10 * value + digit) digits
    omega

/-- Digits are collected for as long as the number that they make up is small enough. -/
theorem absorb_of_lt {limit : Nat} {digits : List Nat} (small : joined value digits < limit) :
    absorb limit value digits = (joined value digits, []) := by
  induction digits generalizing value with
  | nil => rfl
  | cons digit digits ih =>
    change joined (10 * value + digit) digits < limit at small
    have first := le_joined (10 * value + digit) digits
    rw [absorb, if_pos (by omega), ih small]
    rfl

theorem joined_digitsOf (value : Nat) : joined 0 (digitsOf value) = value := by
  have whole := @Nat.ofDigitChars_ten_toDigits value
  rw [Nat.ofDigitChars_eq_foldl] at whole
  rw [joined, digitsOf, List.foldl_map]
  exact whole

theorem head?_toDigits_ne (positive : 0 < value) : (Nat.toDigits 10 value).head? ≠ some '0' := by
  induction value using Nat.strongRecOn with
  | ind value ih =>
    by_cases small : value < 10
    · have table : ∀ digit < 9, Nat.digitChar (digit + 1) ≠ '0' := by decide
      obtain ⟨digit, rfl⟩ := Nat.exists_eq_add_of_le' positive
      rw [Nat.toDigits_of_lt_base small]
      exact fun same => table digit (by omega) (Option.some.inj same)
    · have before := ih (value / 10) (by omega) (by omega)
      obtain ⟨first, rest, split⟩ :=
        List.exists_cons_of_ne_nil (@Nat.toDigits_ne_nil (value / 10) 10)
      rw [Nat.toDigits_of_base_le (by decide) (by omega), split]
      rw [split] at before
      exact before

/-- Only zero is written with a zero in front. -/
theorem digitsOf_ne_zero_cons (value digit : Nat) (digits : List Nat) :
    digitsOf value ≠ 0 :: digit :: digits := by
  intro same
  rcases Nat.eq_zero_or_pos value with rfl | positive
  · cases same
  · have head := head?_toDigits_ne positive
    obtain ⟨char, chars, split, zero, _⟩ := List.map_eq_cons_iff.1 same
    have range := Char.isDigit_iff_toNat.1 (isDigit_of_mem (split ▸ List.mem_cons_self))
    simp only [Char.reduceToNat] at range
    rw [split] at head
    apply head
    rw [List.head?_cons, Option.some.injEq]
    apply Char.toNat_inj.1
    simp only [Char.reduceToNat]
    omega

theorem digitsOf_ne_nil (value : Nat) : digitsOf value ≠ [] := by
  simp [digitsOf, Nat.toDigits_ne_nil]

/-- Digits without a fraction and an exponent are an integer. -/
theorem ofParts?_digitsOf (negative : Bool) (small : value < significandLimit) :
    ofParts? negative (digitsOf value) none none = integer? negative value := by
  have whole := joined_digitsOf value
  unfold ofParts?
  rw [absorb_of_lt (by rw [whole]; exact small), whole]
  rfl

/-- A number behind its sign. -/
def readUnsigned? (negative : Bool) (unsigned : Bytes) : Option (JsonNumber × Bytes) := do
  let (whole, rest) := spanDigits unsigned
  match whole with
  | [] => none
  | 0 :: _ :: _ => none
  | _ =>
    let (fraction, rest) ← fractionPart? rest
    let (exponent, rest) ← exponentPart? rest
    let number ← ofParts? negative whole fraction exponent
    return (number, rest)

theorem read?_of_minus (unsigned : Bytes) : read? (0x2D :: unsigned) = readUnsigned? true unsigned := rfl

theorem read?_of_no_minus {bytes : Bytes} (unsigned : bytes.head? ≠ some 0x2D) :
    read? bytes = readUnsigned? false bytes := by
  cases bytes with
  | nil => rfl
  | cons byte rest =>
    have other : byte ≠ 0x2D := fun same => unsigned (congrArg some same)
    simp only [read?, List.cons.injEq, other, false_and, imp_false, not_false_eq_true, implies_true]
    rfl

/-- Digits are read back as the number that they were written for. -/
theorem readUnsigned?_decimal {number : JsonNumber} {negative : Bool}
    (small : value < significandLimit) (found : integer? negative value = some number)
    (stops : Stops rest) :
    readUnsigned? negative (Text.decimal value ++ rest) = some (number, rest) := by
  unfold readUnsigned?
  rw [spanDigits_decimal stops]
  dsimp only
  split
  · rename_i none
    exact absurd none (digitsOf_ne_nil value)
  · rename_i digit digits twice
    exact absurd twice (digitsOf_ne_zero_cons value digit digits)
  · rw [fractionPart?_of_stops stops]
    dsimp only [bind, Option.bind]
    rw [exponentPart?_of_stops stops]
    dsimp only
    rw [ofParts?_digitsOf negative small, found]
    rfl

theorem flatMap_toString (value : Nat) :
    (toString value).toList.flatMap String.utf8EncodeChar = Text.decimal value := by
  rw [Nat.toString_eq_ofList_toDigits, String.toList_ofList, Text.decimal]
  apply Utf8.flatMap_of_ascii
  intro char member
  have range := Char.isDigit_iff_toNat.1 (isDigit_of_mem member)
  simp only [Char.reduceToNat] at range
  omega

theorem head?_decimal_ne (value : Nat) (rest : Bytes) :
    (Text.decimal value ++ rest).head? ≠ some 0x2D := by
  have digits := @isDigit_of_mem value
  obtain ⟨first, others, split⟩ := List.exists_cons_of_ne_nil (@Nat.toDigits_ne_nil value 10)
  rw [split] at digits
  rw [Text.decimal, split, List.map_cons, List.cons_append, List.head?_cons, ne_eq,
    Option.some.injEq]
  intro minus
  have digit := isDigit_toUInt8 (digits List.mem_cons_self)
  rw [minus] at digit
  cases digit

/-- An integer is read back as it was written. -/
theorem read?_toText {number : JsonNumber} (fits : number.Fits) (exact : number.isFloat = false)
    (stops : Stops rest) :
    read? (number.toText.toList.flatMap String.utf8EncodeChar ++ rest) = some (number, rest) := by
  cases number with
  | natural value =>
    rw [toText, flatMap_toString, read?_of_no_minus (head?_decimal_ne value rest)]
    exact readUnsigned?_decimal fits rfl stops
  | negated magnitude =>
    obtain ⟨positive, small⟩ := fits
    have minus : ("-" ++ toString magnitude).toList.flatMap String.utf8EncodeChar
        = 0x2D :: Text.decimal magnitude := by
      rw [String.toList_append, List.flatMap_append, flatMap_toString]
      rfl
    have found : integer? true magnitude = some (.negated magnitude) := by
      simp [integer?, Nat.pos_iff_ne_zero.1 positive, Nat.not_lt.2 small]
    have fits : magnitude < significandLimit := Nat.lt_of_le_of_lt small (by decide)
    rw [toText, minus, List.cons_append, read?_of_minus]
    exact readUnsigned?_decimal fits found stops
  | float value => cases exact

section Fitting

theorem absorb_lt {limit : Nat} (small : value < limit) (digits : List Nat) :
    (absorb limit value digits).1 < limit := by
  induction digits generalizing value with
  | nil => exact small
  | cons digit digits ih =>
    unfold absorb
    split
    · rename_i fits
      exact ih fits
    · exact small

variable {negative : Bool} {number : JsonNumber}

theorem fits_of_float? {significand : Nat} {exponent : Int}
    (found : float? negative significand exponent = some number) : number.Fits := by
  simp only [float?, Option.bind_eq_bind, Option.bind_eq_some_iff, Option.pure_def,
    Option.some.injEq] at found
  obtain ⟨_, _, _, _, rfl⟩ := found
  trivial

theorem fits_of_integer? (small : value < significandLimit)
    (found : integer? negative value = some number) : number.Fits := by
  unfold integer? at found
  split at found
  · cases found
    exact small
  · split at found
    · exact fits_of_float? found
    · rename_i outside
      rw [not_or, Nat.not_lt] at outside
      cases found
      exact ⟨Nat.pos_of_ne_zero outside.1, outside.2⟩

theorem fits_of_ofParts? {whole : List Nat} {fraction : Option (List Nat)}
    {exponent : Option (Bool × List Nat)}
    (found : ofParts? negative whole fraction exponent = some number) : number.Fits := by
  have small := absorb_lt (show 0 < significandLimit by decide) whole
  unfold ofParts? at found
  cases exponent with
  | none =>
    cases fraction with
    | none =>
      dsimp only at found
      split at found
      · exact fits_of_integer? small found
      · exact fits_of_float? found
    | some digits => exact fits_of_float? found
  | some exponent =>
    cases fraction <;>
    · dsimp only at found
      split at found
      · exact fits_of_float? found
      · split at found
        · cases found
        · exact fits_of_float? found

/-- Whatever is read is of the kind that digits make up. -/
theorem fits_of_read? {bytes : Bytes} (found : read? bytes = some (number, rest)) : number.Fits := by
  have unsigned : ∃ negative unsigned, read? bytes = readUnsigned? negative unsigned := ⟨_, _, rfl⟩
  obtain ⟨negative, unsigned, same⟩ := unsigned
  rw [same, readUnsigned?] at found
  dsimp only at found
  split at found
  · cases found
  · cases found
  · simp only [Option.bind_eq_bind, Option.bind_eq_some_iff, Option.pure_def, Option.some.injEq,
      Prod.mk.injEq] at found
    obtain ⟨_, _, _, _, value, parts, rfl, _⟩ := found
    exact fits_of_ofParts? parts

end Fitting
end RetroMedia.JsonNumber
