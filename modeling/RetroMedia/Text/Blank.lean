/-! White space and unsigned decimal numbers, as they appear in text headers. -/
namespace RetroMedia.Text

/-- The characters with the property White_Space. -/
def isBlank (char : Char) : Bool :=
  let code := char.toNat
  (0x09 ≤ code && code ≤ 0x0D) || code == 0x20 || code == 0x85 || code == 0xA0 || code == 0x1680
    || (0x2000 ≤ code && code ≤ 0x200A) || code == 0x2028 || code == 0x2029 || code == 0x202F
    || code == 0x205F || code == 0x3000

/-- The text without the white space at its ends. -/
def trim (text : String) : String :=
  String.ofList ((text.toList.dropWhile isBlank).reverse.dropWhile isBlank).reverse

/-- The value of a nonempty run of decimal digits. -/
def digitsValue? : List Char → Option Nat
  | [] => none
  | digits => if digits.all Char.isDigit then
      some (digits.foldl (fun value digit => 10 * value + (digit.toNat - '0'.toNat)) 0)
    else none

/-- A 64-bit number: decimal digits, which one plus sign may precede. -/
def parseWord? (text : String) : Option Nat := do
  let value ← digitsValue? (match text.toList with
    | '+' :: digits => digits
    | digits => digits)
  if value < UInt64.size then some value else none

end RetroMedia.Text
