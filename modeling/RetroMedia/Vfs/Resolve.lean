import RetroMedia.Vfs.File

/-! From addresses to files. A path is followed on the host as far as it exists there, and from then
on inside containers. -/
namespace RetroMedia

/-- The longest part of a path that exists on the host, and the names after it in order. -/
def Host.existingPart (host : Host) (path : HostPath) (names : List String) :
    Option (HostPath × List String) :=
  if host.exists path then some (path, names)
  else
    match _named : path.fileName? with
    | none => none
    | some name => host.existingPart path.parent (name :: names)
termination_by path.steps.length
decreasing_by exact HostPath.length_parent_lt _named

namespace File

/-- Descend through the directories that some names lead to. -/
def descend (file : File) : List String → Access File
  | [] => return file
  | name :: names => do
    let inner ← file.child name
    inner.descend names

/-- What is left of a listing, as far as it goes; it has at most so many files. -/
def rest (file : File) : Nat → FileListing → List File × Option MediaError
  | 0, _ => ([], none)
  | count + 1, listing =>
    match file.advance listing with
    | .error error => ([], some error)
    | .ok none => ([], none)
    | .ok (some (found, listing)) =>
      let (more, failure) := file.rest count listing
      (found :: more, failure)

/-- A bound on the files that a listing still has. -/
def listingSize : FileListing → Nat
  | .host paths => paths.length
  | .image _ checkout =>
    match Checkout.entries checkout with
    | .ok table _ => table.length
    | .error _ _ => 0

/-- All files that the directory's listing still has, and the failure that ended it. The listing is
over then. -/
def list (file : File) : Access ((List File × Option Failure) × File) := fun surroundings store =>
  let ended := { file with listing := none }
  let begun := match file.listing with
    | some listing => EStateM.Result.ok listing store
    | none => file.startListing surroundings store
  match begun with
  | .error failure store => .ok (([], some failure), ended) store
  | .ok listing store =>
    let (found, failure) := file.rest (listingSize listing + 1) listing
    .ok ((found, failure.map .media), ended) store

end File

/-- The file at an address: generated content, or a path. -/
def Registry.open (registry : Registry) (address : String) : Access File := do
  match registry.generate? address with
  | some (system, content) =>
    match content with
    | .ok content => return File.ofAddress registry address system content
    | .error failure => throw failure
  | none =>
    match (← read).host.existingPart (HostPath.ofText address) [] with
    | some (path, names) => (File.ofHost registry path).descend names
    | none => throw (Failure.media .notFound)

end RetroMedia
