import RetroMedia.CommandLine.Arguments
import RetroMedia.CommandLine.Dump
import RetroMedia.Config.Reader
import RetroMedia.Vfs.Resolve

/-! What the program does with a file. A command is a function of the arguments and of the host's
files, and its outcome says what it prints, what it writes, and how it ends. -/
namespace RetroMedia.CommandLine

/-- How a run of the program ends. -/
inductive Ending where
  | done
  /-- The arguments make no sense. -/
  | refused
  | failed (message : String)
  deriving DecidableEq, Repr

/-- What a run of the program did. -/
structure Outcome where
  printed : Bytes := []
  /-- The names that lead to a file from the root of the host, and what was written there. -/
  written : Option (List String × Bytes) := none
  ending : Ending := .done
  deriving Repr

namespace Ending

/-- How a command ends that met a failure, or none. -/
def ofFailure : Option Failure → Ending
  | none => done
  | some failure => failed failure.message

/-- The number by which a caller learns whether all went well. -/
def exitCode : Ending → Nat
  | done => 0
  | refused | failed _ => 1

/-- What the user is told about a failure. -/
def complaint? : Ending → Option String
  | failed message => some ("Error: " ++ message)
  | done | refused => none

end Ending

/-- Lines were printed, and then maybe something failed. -/
def Outcome.ofLines (lines : List String) (failure : Option Failure) : Outcome where
  printed := Utf8.encode (String.join (lines.map (· ++ "\n")))
  ending := .ofFailure failure

/-- A text filled up with blanks on its right. -/
def leftAligned (width : Nat) (text : String) : String :=
  text ++ String.ofList (List.replicate (width - text.length) ' ')

/-- The image of a file, if it is a container that can be read. -/
def imageOf? (file : File) : Access (Option HeldImage) :=
  tryCatch (some <$> file.image) fun _ => return none

/-! ## Listing a directory -/

/-- What a listing says about the image that is listed. -/
def headline (held : HeldImage) : String :=
  held.image.format.name ++ " \"" ++ held.image.handler.label ++ "\""

/-- What a listing says about one file. -/
def listingLine (host : Host) (file : File) : String :=
  leftAligned 8 (toString (file.size host)) ++ " " ++ leftAligned 6 (file.typeName host) ++ " \""
    ++ file.name ++ "\"" ++ (if file.isDirectory host then "/" else "")

/-- List the files of a directory and count them. A listing that fails is not counted. -/
def listDirectory (file : File) : Access Outcome := do
  let host := (← read).host
  let headlines := ((← imageOf? file).map headline).toList
  let ((files, failure), _) ← file.list
  let count := if failure.isNone then [toString files.length ++ " entries"] else []
  return .ofLines (headlines ++ files.map (listingLine host) ++ count) failure

/-! ## Copying bytes out -/

/-- The destination that stands for the program's own output. -/
def standardOutput : String := "-"

/-- The names that lead to a destination, unless it is the program's own output. -/
def placeOf (host : Host) (destination : String) : Except Failure (Option (List String)) :=
  if destination == standardOutput then .ok none
  else
    match host.placeFor (HostPath.ofText destination) with
    | .ok names => .ok (some names)
    | .error error => .error error.toFailure

/-- Copy the bytes of a file to a destination, or to a file of its own name. What was read before a
failure is copied. -/
def copyOut (file : File) (destination : Option String) : Access Outcome := do
  let host := (← read).host
  let reader ← MonadExcept.ofExcept (file.reader host)
  let place ← MonadExcept.ofExcept (placeOf host (destination.getD file.name))
  let (bytes, failure, _) := ByteSource.drain (reader, Signals.quiet)
  let ending := Ending.ofFailure (failure.map .media)
  return match place with
    | none => { printed := bytes, ending }
    | some names => { written := some (names, bytes), ending }

/-! ## Dumping bytes -/

def dumpFile (file : File) : Access Outcome := do
  let reader ← MonadExcept.ofExcept (file.reader (← read).host)
  let (listings, failure) := dump (reader, Signals.quiet) 0
  return .ofLines listings (failure.map .media)

/-! ## Describing a file -/

/-- A labelled value; the values stand below each other. -/
def property (label value : String) : String := leftAligned 11 (label ++ ":") ++ value

def boolText (value : Bool) : String := if value then "true" else "false"

/-- An address in memory as programmers of these machines write it. -/
def addressText (address : Nat) : String :=
  let digits := Nat.toDigits 16 address
  "$" ++ String.ofList (List.replicate (4 - digits.length) '0' ++ digits)

/-- What is known of any file. -/
def fileProperties (host : Host) (file : File) : List String :=
  [property "url" file.url, property "name" file.name,
    property "size" (toString (file.size host)), property "type" (file.typeName host),
    property "directory" (boolText (file.isDirectory host)),
    property "text" (boolText (file.isText host))]

/-- What is known of a file as an entry of a container. -/
def entryProperties (entry : Entry) : List String :=
  [property "index" (toString entry.index)]
    ++ (entry.location.map fun location => property "start" location.toText).toList
    ++ (entry.loadAddress.map fun address => property "load" (addressText address)).toList
    ++ (entry.timestamp.map fun time => property "modified" time.toText).toList
    ++ if entry.incomplete then [property "partial" (boolText true)] else []

/-- What is known of a container, and the failure that hides the rest. -/
def imageProperties (held : HeldImage) : List String × Option Failure :=
  let handler := held.image.handler
  let known := [property "format" handler.format.name, property "label" handler.label]
  match Checkout.entries (File.checkout held) with
  | .error error _ => (known, some error)
  | .ok table _ =>
    (known ++ [property "entries" (toString table.length),
      property "blocksize" (toString handler.blockSize)], none)

def describeFile (file : File) : Access Outcome := do
  let host := (← read).host
  let (inner, failure) := ((← imageOf? file).map imageProperties).getD ([], none)
  return .ofLines
    (fileProperties host file ++ (file.entry?.map entryProperties).getD [] ++ inner) failure

/-! ## Running the program -/

/-- Do what the arguments ask for with the file at their path. -/
def perform (registry : Registry) (arguments : Arguments) : Access Outcome := do
  let file ← registry.open arguments.path
  match arguments.verb with
  | .dir => listDirectory file
  | .read => copyOut file arguments.destination
  | .dump => dumpFile file
  | .info => describeFile file

/-- The settings in a file of the host. -/
def loadConfig (host : Host) (path : String) : Except Failure Config := do
  match host.readFile (HostPath.ofText path) with
  | .error error => throw error.toFailure
  | .ok bytes =>
    match Utf8.decode? bytes with
    | some text => Config.parse text
    | none => throw HostError.notText.toFailure

/-- The settings that the arguments choose, or what is wrong with them. -/
def configOf (host : Host) : Option String → Except String Config
  | none => .ok {}
  | some path => (loadConfig host path).mapError fun failure => path ++ ": " ++ failure.message

/-- Do what the arguments ask for. Images are shared for as long as the settings allow it. -/
def runArguments (arguments : Arguments) (host : Host) : Outcome :=
  match configOf host arguments.config with
  | .error message => { ending := .failed message }
  | .ok config =>
    let store : ImageStore := { broker := if config.cacheImages then some {} else none }
    match perform (Registry.standard config) arguments ⟨host, fun _ => false⟩ store with
    | .ok outcome _ => outcome
    | .error failure _ => { ending := .failed failure.message }

/-- Run the program. -/
def run (arguments : List String) (host : Host) : Outcome :=
  match parseArguments arguments with
  | .display text => { printed := Utf8.encode text }
  | .refused => { ending := .refused }
  | .run arguments => runArguments arguments host

end RetroMedia.CommandLine
