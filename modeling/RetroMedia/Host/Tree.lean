import RetroMedia.Error
import RetroMedia.Host.Path
import RetroMedia.Stream.Container

/-! The files of the host as a tree that does not change while it is looked at. -/
namespace RetroMedia

/-- What the host reports when a path cannot be used. -/
inductive HostError where
  | missing
  | notDirectory
  | isDirectory
  | nameTooLong
  | notMappable
  | nulInName
  | notText
  deriving DecidableEq, Repr

def HostError.toFailure : HostError → Failure
  | missing => .external .notFound "No such file or directory (os error 2)"
  | notDirectory => .external .notADirectory "Not a directory (os error 20)"
  | isDirectory => .external .isADirectory "Is a directory (os error 21)"
  | nameTooLong => .external .invalidFilename "File name too long (os error 36)"
  | notMappable => .external .uncategorized "No such device (os error 19)"
  | nulInName => .external .invalidInput "file name contained an unexpected NUL byte"
  | notText => .external .invalidData "stream did not contain valid UTF-8"

/-- A file, or a directory with its members in no particular order. -/
inductive HostNode where
  | file (content : Container)
  | directory (members : List (String × HostNode))

namespace HostNode

def empty : HostNode := directory []

def isDirectory : HostNode → Bool
  | directory _ => true
  | file _ => false

def member? (name : String) : HostNode → Option HostNode
  | directory members => (members.find? (·.1 == name)).map (·.2)
  | file _ => none

/-- Change what is at a place below a node; directories on the way are made as needed. -/
def alter (change : Option HostNode → HostNode) : List String → Option HostNode → HostNode
  | [], node => change node
  | name :: rest, node =>
    let members := match node with
      | some (directory members) => members
      | _ => []
    let inner := alter change rest ((directory members).member? name)
    directory (members.filter (·.1 != name) ++ [(name, inner)])

/-- A directory stays what it is. -/
def asDirectory : Option HostNode → HostNode
  | some (directory members) => directory members
  | _ => empty

end HostNode

/-- The tree of the host, and the directory from which relative paths start. -/
structure Host where
  root : HostNode := .empty
  workingDirectory : List String := []

/-- The nodes that a path went through, with their names, the last one first. -/
abbrev HostTrail := List (String × HostNode)

namespace Host

/-- The tree with a file at the place that some names lead to. -/
def withFile (host : Host) (names : List String) (content : Container) : Host :=
  { host with root := HostNode.alter (fun _ => .file content) names (some host.root) }

/-- The tree with a directory at the place that some names lead to. -/
def withDirectory (host : Host) (names : List String) : Host :=
  { host with root := HostNode.alter HostNode.asDirectory names (some host.root) }

/-- Bytes that a path may not reach, and the most that a name may have. -/
def pathLimit : Nat := 4096

def nameLimit : Nat := 255

/-- Take one step. The root is above itself. -/
def step (trail : HostTrail) (name : String) : Except HostError HostTrail :=
  match trail with
  | [] => .error .missing
  | (_, .file _) :: _ => .error .notDirectory
  | (own, .directory members) :: above =>
    if HostPath.isIdle name then .ok trail
    else if name == ".." then .ok (if above.isEmpty then trail else above)
    else
      match HostNode.member? name (.directory members) with
      | some node => .ok ((name, node) :: (own, .directory members) :: above)
      | none => .error (if nameLimit < name.utf8ByteSize then .nameTooLong else .missing)

/-- Where a path starts. -/
def start (host : Host) (absolute : Bool) : Except HostError HostTrail :=
  let root : HostTrail := [("", host.root)]
  if absolute then .ok root else host.workingDirectory.foldlM step root

/-- Follow the first `count` steps of a path. -/
def follow (host : Host) (path : HostPath) (count : Nat) : Except HostError HostTrail := do
  if pathLimit ≤ path.toText.utf8ByteSize then throw .nameTooLong
  if path.toText.isEmpty then throw .missing
  (path.steps.take count).foldlM step (← host.start path.absolute)

/-- What a path leads to. -/
def find (host : Host) (path : HostPath) : Except HostError HostNode := do
  match ← host.follow path path.steps.length with
  | (_, node) :: _ => return node
  | [] => throw .missing

def find? (host : Host) (path : HostPath) : Option HostNode := (host.find path).toOption

/-- Does a path lead anywhere? -/
def «exists» (host : Host) (path : HostPath) : Bool := (host.find? path).isSome

def isDirectory (host : Host) (path : HostPath) : Bool :=
  ((host.find? path).map (·.isDirectory)).getD false

/-- The names in a directory, sorted. -/
def names (host : Host) (path : HostPath) : List String :=
  match host.find? path with
  | some (.directory members) => (members.map (·.1)).mergeSort (fun a b => !(b < a))
  | _ => []

/-- The bytes of a file, as they are mapped into memory. -/
def mapFile (host : Host) (path : HostPath) : Except HostError Container := do
  match ← host.find path with
  | .file content => return content
  | .directory _ => throw .notMappable

/-- The bytes of a file, as they are read. -/
def readFile (host : Host) (path : HostPath) : Except HostError Bytes := do
  match ← host.find path with
  | .file content => return content.toBytes
  | .directory _ => throw .isDirectory

/-- The place at which a file is created or replaced: the names that lead there from the root. -/
def placeFor (host : Host) (path : HostPath) : Except HostError (List String) := do
  if path.toText.toList.contains (Char.ofNat 0) then throw .nulInName
  let named := (path.steps.reverse.dropWhile (·.isEmpty)).reverse
  let trail ← host.follow path (named.length - 1)
  match named.getLast? with
  | none => throw .isDirectory
  | some name =>
    match step trail name with
    | .error .missing =>
      if named.length < path.steps.length then throw .isDirectory
      else return (trail.map (·.1)).reverse.drop 1 ++ [name]
    | .error error => throw error
    | .ok ((own, .file _) :: above) =>
      if named.length < path.steps.length then throw .isDirectory
      else return (((own, .empty) :: above).map (·.1)).reverse.drop 1
    | .ok _ => throw .isDirectory

end Host
end RetroMedia
