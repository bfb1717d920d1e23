import RetroMedia.Decimal.Binary64

/-! Documents of values, lists and records. Members keep the order of their first appearance. -/
namespace RetroMedia

/-- A number of a document: exact where it is a 64-bit integer, else the nearest double. -/
inductive JsonNumber where
  | natural (value : Nat)
  /-- The negative of a positive number. -/
  | negated (magnitude : Nat)
  | float (value : Binary64)
  deriving DecidableEq, Repr

/-- A value of a document. -/
inductive Json where
  | null
  | bool (value : Bool)
  | number (value : JsonNumber)
  | string (text : String)
  | array (items : List Json)
  | object (members : List (String × Json))

namespace Json

/-- Set a member. A key that is there already keeps its place and takes the new value. -/
def putMember (members : List (String × Json)) (key : String) (value : Json) :
    List (String × Json) :=
  if members.any (·.1 == key) then
    members.map fun member => if member.1 == key then (key, value) else member
  else members ++ [(key, value)]

/-- Does a value hold others? -/
def isStructured : Json → Bool
  | array _ | object _ => true
  | _ => false

/-- A short name of the kind of a value. -/
def typeName : Json → String
  | object _ => "OBJ"
  | array _ => "ARR"
  | string _ => "STR"
  | number _ => "NUM"
  | bool _ => "BOOL"
  | null => "NULL"

end Json
end RetroMedia
