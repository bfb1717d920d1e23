import RetroMedia.Text.CodeRanges

/-! Text in quotes for log output. Characters that would not show, or that would attach to the
quote, are written as escapes. -/
namespace RetroMedia.Quoted

/-- Is a character written as itself? -/
def isPlain (char : Char) : Bool :=
  !Text.isHidden char && !Text.isAttaching char

/-- A character inside quotes. -/
def escape (char : Char) : List Char :=
  if char == '"' then ['\\', '"']
  else if char == '\\' then ['\\', '\\']
  else if char.toNat == 0x00 then ['\\', '0']
  else if char.toNat == 0x09 then ['\\', 't']
  else if char.toNat == 0x0A then ['\\', 'n']
  else if char.toNat == 0x0D then ['\\', 'r']
  else if isPlain char then [char]
  else ['\\', 'u', '{'] ++ Nat.toDigits 16 char.toNat ++ ['}']

def quote (text : String) : String :=
  String.ofList ('"' :: text.toList.flatMap escape ++ ['"'])

/-- A record in log output: its name and its fields. -/
def record (name : String) (fields : List (String × String)) : String :=
  let shown := fields.map fun (field, value) => field ++ ": " ++ value
  name ++ " \x7b " ++ String.intercalate ", " shown ++ " \x7d"

end RetroMedia.Quoted
