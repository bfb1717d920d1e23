import RetroMedia.Toml.Number

/-! Whole settings documents: lines that set keys, and headers that open tables. -/
namespace RetroMedia

namespace TomlScan

/-- A value that holds no others. -/
def scalar : TomlScan Toml := do
  match ← peek? with
  | some '"' | some '\'' => return .string (← string)
  | some 't' => do
    expect "true"
    return .bool true
  | some 'f' => do
    expect "false"
    return .bool false
  | some 'i' | some 'n' => number
  | some char => if char.isDigit || char == '+' || char == '-' then numberOrMoment else failure
  | none => failure

/-- The rest of an array. Line ends and comments may stand between its items, and a comma after the
last one. -/
def arrayItems (item : TomlScan Toml) : TomlScan (List Toml) := pieces do
  gap true
  if ← skip? "]" then return ([], true)
  else
    let value ← item
    gap true
    if ← skip? "," then return ([value], false)
    else
      expect "]"
      return ([value], true)

/-- A key and its value. -/
def assignment (item : TomlScan Toml) : TomlScan ((List String × String) × Toml) := do
  let key ← key
  expect "="
  blanks
  return (key, ← item)

/-- The rest of a table between braces, which stays on one line. -/
def bracedMembers (item : TomlScan Toml) : TomlScan Toml.Members := do
  blanks
  if ← skip? "\x7d" then return []
  else
    let assignments ← pieces do
      let set ← assignment item
      blanks
      if ← skip? "," then return ([set], false)
      else
        expect "\x7d"
        return ([set], true)
    assignments.foldlM (fun members ((path, name), value) =>
      StateT.lift (Toml.insert? name value path members)) []

/-- A value in which others may be nested so many levels deep. -/
def value : Nat → TomlScan Toml
  | 0 => scalar
  | room + 1 => do
    if ← skip? "[" then return .array (← arrayItems (value room))
    else if ← skip? "\x7b" then return .table .braced (← bracedMembers (value room))
    else scalar

/-- A header: the table it opens, and whether it opens one of several. -/
def header : TomlScan ((List String × String) × Bool) := do
  expect "["
  let several ← skip? "["
  let key ← key
  expect (if several then "]]" else "]")
  lineEnd
  return (key, several)

end TomlScan

/-- What has been read of a document, and the table that is open. -/
structure TomlReading where
  root : Toml.Members := []
  openPath : List String := []

namespace TomlReading

/-- Open the table of a header. -/
def enter? (reading : TomlReading) (path : List String) (name : String) (several : Bool) :
    Option TomlReading := do
  let change := if several then Toml.openRow? name else Toml.openTable? name
  return { root := ← Toml.changeAt? change path reading.root, openPath := path ++ [name] }

/-- Set a key in the open table. -/
def set? (reading : TomlReading) (path : List String) (name : String) (value : Toml) :
    Option TomlReading := do
  let root ← Toml.changeAt? (Toml.insert? name value path) reading.openPath reading.root
  return { reading with root }

/-- The next line that is not empty. -/
def line (reading : TomlReading) : TomlScan TomlReading := do
  TomlScan.blanks
  match ← TomlScan.peek? with
  | none => return reading
  | some '#' | some '\n' | some '\r' => do
    TomlScan.lineEnd
    return reading
  | some '[' => do
    let ((path, name), several) ← TomlScan.header
    StateT.lift (reading.enter? path name several)
  | some _ => do
    let ((path, name), value) ← TomlScan.assignment (TomlScan.value (TomlScan.maxDepth - 1))
    TomlScan.lineEnd
    StateT.lift (reading.set? path name value)

/-- All lines; each of them takes up some of the input. -/
def lines : Nat → TomlReading → TomlScan TomlReading
  | 0, _ => failure
  | fuel + 1, reading => do
    if (← TomlScan.peek?).isNone then return reading
    else lines fuel (← reading.line)

end TomlReading

/-- The tables of a document, unless it is malformed. A mark of the byte order may precede it. -/
def Toml.parse? (text : String) : Option Toml.Members := do
  let chars := match text.toList with
    | first :: rest => if first.toNat == 0xFEFF then rest else first :: rest
    | [] => []
  let (reading, _) ← TomlReading.lines (chars.length + 1) {} chars
  return reading.root

end RetroMedia
