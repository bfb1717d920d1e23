import RetroMedia.Entry
import RetroMedia.Json.Document
import RetroMedia.Json.Printer
import RetroMedia.Stream.Reader

/-! Documents as directories: the members of a record, or the items of a list under their numbers,
are the entries. -/
namespace RetroMedia

/-- A document that is a record or a list. -/
structure Document where
  container : Container
  members : List (String × Json)

namespace Document

/-- The format hint of an entry that is a document itself. -/
def hint : String := "json"

/-- The members of a structured value, in order. -/
def membersOf? : Json → Option (List (String × Json))
  | .object members => some members
  | .array items => some (items.mapIdx fun index item => (toString index, item))
  | _ => none

def «open» (container : Container) : Except MediaError Document :=
  match Json.parse? container.toBytes with
  | none => .error .invalidHeader
  | some value =>
    match membersOf? value with
    | none => .error .notADirectory
    | some members => .ok { container, members }

/-- The bytes that a member reads as. -/
def contentBytes (value : Json) : Bytes := Utf8.encode value.content

/-- The entry of the member at `position`, which counts from zero. -/
def entryOf (position : Nat) (member : String × Json) : Entry where
  index := position + 1
  name := member.1
  rawName := Utf8.encode member.1
  size := (contentBytes member.2).length
  kind := if member.2.isStructured then .directory else .file
  offset := position
  formatHint := if member.2.isStructured then some hint else none

/-- The entries of some members, the first of which stands at `position`. -/
def listMembers : Nat → List (String × Json) → Walk (List Entry)
  | _, [] => return []
  | position, member :: rest => do
    Progress.tick
    let more ← listMembers (position + 1) rest
    return entryOf position member :: more

def entries (document : Document) : Walk (List Entry) := listMembers 0 document.members

/-- The value behind an entry, which its offset numbers. -/
def value? (document : Document) (entry : Entry) : Option Json :=
  document.members[entry.offset]?.map (·.2)

def openEntry (document : Document) (entry : Entry) : Except MediaError Reader :=
  match document.value? entry with
  | some value => .ok (.memory (contentBytes value))
  | none => .error .notFound

def decodeType (document : Document) (entry : Entry) : String :=
  match document.value? entry with
  | some value => value.typeName
  | none => "???"

end Document
end RetroMedia
