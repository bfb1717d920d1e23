/-! Settings documents as trees: tables of values under names. Tables are written in several ways,
and how one was written decides whether later lines may add to it. -/
namespace RetroMedia

/-- How a table came to be. -/
inductive TomlOrigin where
  /-- It has a header of its own. -/
  | header
  /-- Only the header of a table inside it was met so far. -/
  | implied
  /-- It is part of a dotted key. -/
  | dotted
  /-- It is written between braces, and complete. -/
  | braced
  deriving DecidableEq, Repr

/-- A value of a document. -/
inductive Toml where
  | integer (value : Int)
  /-- A number with a fraction or an exponent, or none at all, as it is written. -/
  | float (text : String)
  | bool (value : Bool)
  | string (text : String)
  /-- A date, a time, or both, as written. -/
  | moment (text : String)
  | array (items : List Toml)
  | table (origin : TomlOrigin) (members : List (String × Toml))
  /-- Tables that share a header. -/
  | rows (tables : List (List (String × Toml)))

namespace Toml

/-- Values under names, each name at most once. -/
abbrev Members := List (String × Toml)

def lookup? (members : Members) (name : String) : Option Toml :=
  (members.find? (·.1 == name)).map (·.2)

/-- Set the value under a name that is there already. -/
def replace (members : Members) (name : String) (value : Toml) : Members :=
  members.map fun member => if member.1 == name then (name, value) else member

/-- Change the last of some tables. -/
def changeLast? (change : Members → Option Members) (tables : List Members) :
    Option (List Members) := do
  let last ← tables.getLast?
  return tables.dropLast ++ [← change last]

/-- Set the value of a dotted key, which must be new. A path leads through tables without a header,
and the last of them must itself stem from dotted keys. -/
def insert? (name : String) (value : Toml) : List String → Members → Option Members
  | [], members => if (lookup? members name).isSome then none else some (members ++ [(name, value)])
  | step :: path, members =>
    match lookup? members step with
    | none => do
      let inner ← insert? name value path []
      return members ++ [(step, table .dotted inner)]
    | some (table .dotted inner) => do
      return replace members step (table .dotted (← insert? name value path inner))
    | some (table .implied inner) => do
      if path.isEmpty then none
      else return replace members step (table .implied (← insert? name value path inner))
    | some (rows tables) => do
      if path.isEmpty then none
      else return replace members step (rows (← changeLast? (insert? name value path) tables))
    | some _ => none

/-- Change the table to which the path of a header leads. Tables on the way need no header. -/
def changeAt? (change : Members → Option Members) : List String → Members → Option Members
  | [], members => change members
  | step :: path, members =>
    match lookup? members step with
    | none => do
      let inner ← changeAt? change path []
      return members ++ [(step, table .implied inner)]
    | some (table .braced _) => none
    | some (table origin inner) => do
      return replace members step (table origin (← changeAt? change path inner))
    | some (rows tables) => do
      return replace members step (rows (← changeLast? (changeAt? change path) tables))
    | some _ => none

/-- Give a table its header, which it may get only once. -/
def openTable? (name : String) (members : Members) : Option Members :=
  match lookup? members name with
  | none => some (members ++ [(name, table .header [])])
  | some (table .implied inner) => some (replace members name (table .header inner))
  | some _ => none

/-- Begin another of the tables that share a header. -/
def openRow? (name : String) (members : Members) : Option Members :=
  match lookup? members name with
  | none => some (members ++ [(name, rows [[]])])
  | some (rows tables) => some (replace members name (rows (tables ++ [[]])))
  | some _ => none

end Toml
end RetroMedia
