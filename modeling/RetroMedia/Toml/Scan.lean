import RetroMedia.Toml.Value

/-! Scanning settings documents from front to back: blanks, comments, strings and keys. -/
namespace RetroMedia

/-- A scan of a part of the document: what it means and the rest, or nothing if it is malformed. -/
abbrev TomlScan := StateT (List Char) Option

namespace TomlScan

/-- The characters that may stand in a comment. -/
def isPlain (char : Char) : Bool :=
  char == '\t' || (0x20 ≤ char.toNat && char.toNat != 0x7F)

def isBlank (char : Char) : Bool := char == ' ' || char == '\t'

/-- The characters of keys without quotes. -/
def isBare (char : Char) : Bool := char.isAlphanum || char == '_' || char == '-'

/-- The characters as far as all of them fit. -/
def span (fits : Char → Bool) : TomlScan (List Char) := fun input =>
  some (input.takeWhile fits, input.dropWhile fits)

def span1 (fits : Char → Bool) : TomlScan (List Char) := do
  let chars ← span fits
  if chars.isEmpty then failure else return chars

/-- A fixed text. -/
def expect (text : String) : TomlScan Unit := fun input =>
  if text.toList.isPrefixOf input then some ((), input.drop text.length) else none

/-- Is this text next? Then go past it. -/
def skip? (text : String) : TomlScan Bool := fun input =>
  if text.toList.isPrefixOf input then some (true, input.drop text.length)
  else some (false, input)

/-- The next character, which stays. -/
def peek? : TomlScan (Option Char) := fun input => some (input.head?, input)

/-- The next character. -/
def next : TomlScan Char
  | [] => none
  | char :: rest => some (char, rest)

/-- Put pieces together up to the one that is marked as the last. -/
def assemble (piece : TomlScan (List α × Bool)) : Nat → TomlScan (List α)
  | 0 => failure
  | fuel + 1 => do
    match ← piece with
    | (items, true) => return items
    | (items, false) => return items ++ (← assemble piece fuel)

/-- Put pieces together; each of them but the last takes up some of the input. -/
def pieces (piece : TomlScan (List α × Bool)) : TomlScan (List α) := fun input =>
  assemble piece (input.length + 1) input

def blanks : TomlScan Unit := discard (span isBlank)

/-- The end of a line, in either of its forms. -/
def newline : TomlScan Unit := expect "\n" <|> expect "\r\n"

def comment : TomlScan Unit := do
  expect "#"
  discard (span isPlain)

/-- What may follow a value or a header on its line. -/
def lineEnd : TomlScan Unit := do
  blanks
  if (← peek?) == some '#' then comment
  if (← peek?).isSome then newline

/-- Blanks and line ends in any order, and comments between them if these may stand there. -/
def gap (comments : Bool) : TomlScan Unit :=
  discard <| pieces (α := Unit) do
    match ← peek? with
    | some ' ' | some '\t' => do
      blanks
      return ([], false)
    | some '#' => do
      if comments then comment
      return ([], !comments)
    | some '\n' | some '\r' => do
      newline
      return ([], false)
    | _ => return ([], true)

/-! ## Strings -/

def hexValue? (char : Char) : Option Nat :=
  if char.isDigit then some (char.toNat - 48)
  else if 'a' ≤ char && char ≤ 'f' then some (char.toNat - 87)
  else if 'A' ≤ char && char ≤ 'F' then some (char.toNat - 55)
  else none

/-- The character with a code of so many hexadecimal digits. -/
def codedChar (digits : Nat) : TomlScan Char := fun input => do
  let values ← (input.take digits).mapM hexValue?
  let code := values.foldl (fun code digit => 16 * code + digit) 0
  if values.length = digits ∧ code.isValidChar then some (Char.ofNat code, input.drop digits)
  else none

/-- What follows a backslash. -/
def escape : TomlScan Char := do
  match ← next with
  | 'b' => return Char.ofNat 0x08
  | 't' => return '\t'
  | 'n' => return '\n'
  | 'f' => return Char.ofNat 0x0C
  | 'r' => return '\r'
  | '"' => return '"'
  | '\\' => return '\\'
  | 'u' => codedChar 4
  | 'U' => codedChar 8
  | _ => failure

/-- A backslash at the end of a line joins the line to the text after it. -/
def joinedLine : TomlScan Unit := do
  blanks
  newline
  gap false

/-- The rest of a string on one line that knows escapes. -/
def quoted : TomlScan (List Char) := pieces do
  match ← peek? with
  | some '"' => do
    expect "\""
    return ([], true)
  | some '\\' => do
    expect "\\"
    return ([← escape], false)
  | _ => return (← span1 fun char => isPlain char && char != '"' && char != '\\', false)

/-- The rest of a string on one line that knows no escapes. -/
def literal : TomlScan (List Char) := do
  let chars ← span fun char => isPlain char && char != '\''
  expect "'"
  return chars

/-- The quotes inside or at the end of a string between triple quotes: one or two of them are text,
and the last three of up to five end the string. -/
def quotes (quote : Char) : TomlScan (List Char × Bool) := fun input =>
  let count := (input.takeWhile (· == quote)).length
  if count < 3 then some ((List.replicate count quote, false), input.drop count)
  else
    let kept := min (count - 3) 2
    some ((List.replicate kept quote, true), input.drop (kept + 3))

/-- The rest of a string between triple quotes. -/
def longString (quote : Char) (escapes : Bool) : TomlScan (List Char) := do
  discard newline <|> pure ()
  pieces do
    match ← peek? with
    | some '\n' | some '\r' => do
      newline
      return (['\n'], false)
    | some char =>
      if char == quote then quotes quote
      else if escapes && char == '\\' then do
        expect "\\"
        (do
          joinedLine
          return ([], false)) <|> return ([← escape], false)
      else return (← span1 fun char =>
        isPlain char && char != quote && !(escapes && char == '\\'), false)
    | none => failure

/-- A string of any kind. -/
def string : TomlScan String := do
  let chars ← do
    if ← skip? "\"\"\"" then longString '"' true
    else if ← skip? "\"" then quoted
    else if ← skip? "'''" then longString '\'' false
    else do
      expect "'"
      literal
  return String.ofList chars

/-! ## Keys -/

/-- How deep values, and the parts of a key, may be nested. -/
def maxDepth : Nat := 80

/-- One part of a key. -/
def keyPart : TomlScan String := do
  if ← skip? "\"" then return String.ofList (← quoted)
  else if ← skip? "'" then return String.ofList (← literal)
  else return String.ofList (← span1 isBare)

/-- The parts of a key, which points separate: the path to the last one, and that one. -/
def key : TomlScan (List String × String) := do
  let parts ← pieces do
    blanks
    let part ← keyPart
    blanks
    return ([part], !(← skip? "."))
  match parts.getLast? with
  | some name => if parts.length < maxDepth then return (parts.dropLast, name) else failure
  | none => failure

end TomlScan
end RetroMedia
