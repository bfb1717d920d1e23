import RetroMedia.Bytes
import RetroMedia.Text.Blank

/-! Text without blanks at its ends, and numbers in decimal as they are written and read. -/
namespace RetroMedia.Text

private theorem dropWhile_of_head {keep : Char → Bool} {chars : List Char}
    (first : ∀ char, chars.head? = some char → keep char = false) :
    chars.dropWhile keep = chars := by
  cases chars with
  | nil => rfl
  | cons char rest => rw [List.dropWhile_cons, first char rfl]; rfl

/-- There is nothing to trim where both ends show. -/
theorem trim_eq_self {chars : List Char}
    (first : ∀ char, chars.head? = some char → isBlank char = false)
    (last : ∀ char, chars.getLast? = some char → isBlank char = false) :
    trim (String.ofList chars) = String.ofList chars := by
  have behind : ∀ char, chars.reverse.head? = some char → isBlank char = false := by
    intro char here
    exact last char (by rwa [List.head?_reverse] at here)
  rw [trim, String.toList_ofList, dropWhile_of_head first, dropWhile_of_head behind,
    List.reverse_reverse]

/-- A number as it is written. -/
def decimal (value : Nat) : Bytes := (Nat.toDigits 10 value).map Char.toUInt8

example : decimal 254 = [0x32, 0x35, 0x34] := by decide

theorem isBlank_of_isDigit {char : Char} (digit : char.isDigit = true) : isBlank char = false := by
  have range := Char.isDigit_iff_toNat.1 digit
  simp only [Char.reduceToNat] at range
  simp only [isBlank, Bool.or_eq_false_iff, Bool.and_eq_false_iff, decide_eq_false_iff_not,
    beq_eq_false_iff_ne]
  omega

theorem toNat_toUInt8_of_isDigit {char : Char} (digit : char.isDigit = true) :
    char.toUInt8.toNat = char.toNat := by
  have range := Char.isDigit_iff_toNat.1 digit
  simp only [Char.reduceToNat] at range
  change char.toNat % 256 = char.toNat
  omega

theorem ofUInt8_toUInt8_of_isDigit {char : Char} (digit : char.isDigit = true) :
    Char.ofUInt8 char.toUInt8 = char := by
  apply Char.toNat_inj.1
  exact toNat_toUInt8_of_isDigit digit

theorem digits_of_decimal (value : Nat) :
    (decimal value).map Char.ofUInt8 = Nat.toDigits 10 value := by
  rw [decimal, List.map_map]
  apply (List.map_congr_left fun char member => ?_).trans (List.map_id _)
  exact ofUInt8_toUInt8_of_isDigit (Nat.isDigit_of_mem_toDigits (by decide) (by decide) member)

theorem digitsValue?_toDigits (value : Nat) : digitsValue? (Nat.toDigits 10 value) = some value := by
  have digits : (Nat.toDigits 10 value).all Char.isDigit = true := by
    rw [List.all_eq_true]
    intro char member
    exact Nat.isDigit_of_mem_toDigits (by decide) (by decide) member
  have whole := Nat.ofDigitChars_ten_toDigits (n := value)
  rw [Nat.ofDigitChars_eq_foldl] at whole
  have some' := Nat.toDigits_ne_nil (b := 10) (n := value)
  generalize Nat.toDigits 10 value = chars at digits whole some'
  cases chars with
  | nil => exact absurd rfl some'
  | cons char rest =>
    rw [digitsValue?, if_pos digits, whole]
    exact nofun

theorem toString_inj {first second : Nat} (same : toString first = toString second) :
    first = second := by
  rw [Nat.toString_eq_ofList_toDigits, Nat.toString_eq_ofList_toDigits, String.ofList_inj] at same
  have read := congrArg digitsValue? same
  simpa [digitsValue?_toDigits] using read

/-- A number is read as it was written. -/
theorem parseWord?_toDigits {value : Nat} (fits : value < UInt64.size) :
    parseWord? (String.ofList (Nat.toDigits 10 value)) = some value := by
  rw [parseWord?, String.toList_ofList]
  split
  · rename_i digits signed
    have digit := Nat.isDigit_of_mem_toDigits (b := 10) (n := value) (c := '+') (by decide)
      (by decide) (by rw [signed]; exact List.mem_cons_self)
    cases digit
  · rw [digitsValue?_toDigits]
    exact if_pos fits

end RetroMedia.Text
