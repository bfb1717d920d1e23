import RetroMedia.Decimal.Shortest
import RetroMedia.Json.Value

/-! Compact text of documents, without blanks. Quotes, backslashes and control characters are
escaped, and nothing else. -/
namespace RetroMedia

namespace JsonNumber

/-- Doubles are written in the plain style, integers with their digits. -/
def toText : JsonNumber → String
  | natural value => toString value
  | negated magnitude => "-" ++ toString magnitude
  | float value => Decimal.text Decimal.plain value

end JsonNumber

namespace Json

/-- A control character as an escape with four digits. -/
def unitEscape (code : Nat) : List Char :=
  let digits := Nat.toDigits 16 code
  '\\' :: 'u' :: (List.replicate (4 - digits.length) '0' ++ digits)

/-- A character inside quotes. -/
def escape (char : Char) : List Char :=
  if char == '"' then ['\\', '"']
  else if char == '\\' then ['\\', '\\']
  else if char.toNat == 0x08 then ['\\', 'b']
  else if char.toNat == 0x0C then ['\\', 'f']
  else if char.toNat == 0x0A then ['\\', 'n']
  else if char.toNat == 0x0D then ['\\', 'r']
  else if char.toNat == 0x09 then ['\\', 't']
  else if char.toNat < 0x20 then unitEscape char.toNat
  else [char]

def quote (text : String) : List Char := '"' :: text.toList.flatMap escape ++ ['"']

mutual

/-- The compact text of a value. -/
def print : Json → List Char
  | null => "null".toList
  | bool true => "true".toList
  | bool false => "false".toList
  | number value => value.toText.toList
  | string text => quote text
  | array items => '[' :: printItems items ++ [']']
  | object members => '{' :: printMembers members ++ ['}']

/-- Values between commas. -/
def printItems : List Json → List Char
  | [] => []
  | [item] => print item
  | item :: rest => print item ++ ',' :: printItems rest

/-- Members between commas. -/
def printMembers : List (String × Json) → List Char
  | [] => []
  | [(key, value)] => quote key ++ ':' :: print value
  | (key, value) :: rest => quote key ++ ':' :: (print value ++ ',' :: printMembers rest)

end

def compact (value : Json) : String := String.ofList (print value)

/-- What a value reads as: a string as its text, anything else as its compact form. -/
def content : Json → String
  | string text => text
  | value => value.compact

theorem content_eq_compact {value : Json} (other : ∀ text, value ≠ .string text) :
    value.content = value.compact := by
  cases value with
  | string text => exact absurd rfl (other text)
  | _ => rfl

end Json
end RetroMedia
