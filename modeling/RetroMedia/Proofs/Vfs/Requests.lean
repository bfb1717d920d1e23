import RetroMedia.Proofs.Vfs.Directories
import RetroMedia.Vfs.Desk

/-! Requests to a desk, what it answers to a number of them in a row, and what it answers if every file
opens its own image. -/
namespace RetroMedia

open ImageStore (Tells)

namespace Desk

inductive Request where
  | openAt (address name : String)
  | childOf (file child name : String)
  | nextOf (directory name : String)
  | listOf (directory : String)
  | imageOf (file : String) (name : Option String)
  | streamOf (file : String)
  | formatOf (file : String)
  | readerOf (file : String)
  | containerOf (file : String)
  | dropFile (name : String)
  | releaseImage (name : String)

/-- The numbers of images are not part of an answer. -/
inductive Reply where
  | noSuchFile
  | failure (failure : Failure)
  | file (file : File)
  | ended
  | files (files : List File) (failure : Option Failure)
  | image (image : Image)
  | stream (checkout : Checkout)
  | format (format : Format)
  | reader (reader : Reader)
  | container (container : Container)
  | dropped
  | released (kept : Bool)

def Reply.next : Option File → Reply
  | some found => .file found.plain
  | none => .ended

def answered (reply : α → Reply) : Except Failure α × Desk → Reply × Desk
  | (.ok value, desk) => (reply value, desk)
  | (.error failure, desk) => (.failure failure, desk)

def listed : (List File × Option Failure) × Desk → Reply × Desk
  | ((files, failure), desk) => (.files (files.map .plain) failure, desk)

/-- Ask something of a kept file. -/
def asked (desk : Desk) (name : String) (answer : File → Reply × Desk) : Reply × Desk :=
  match desk.file? name with
  | some file => answer file
  | none => (.noSuchFile, desk)

/-- Serve one request. -/
def serve (desk : Desk) : Request → Reply × Desk
  | .openAt address name => answered (.file ·.plain) (desk.openAt address name)
  | .childOf file child name =>
    desk.asked file fun file => answered (.file ·.plain) (desk.childOf file child name)
  | .nextOf directory name =>
    desk.asked directory fun file => answered .next (desk.nextOf directory file name)
  | .listOf directory =>
    desk.asked directory fun file => listed (desk.listOf directory file)
  | .imageOf file name =>
    desk.asked file fun file => answered (.image ·.image) (desk.imageOf file name)
  | .streamOf file =>
    desk.asked file fun file =>
      answered (fun held => .stream (File.checkout held)) (desk.imageOf file none)
  | .formatOf file =>
    desk.asked file fun file =>
      answered (fun held => .format held.image.handler.format) (desk.imageOf file none)
  | .readerOf file =>
    desk.asked file fun file => answered .reader (file.reader desk.host, desk)
  | .containerOf file =>
    desk.asked file fun file => answered .container (file.container desk.host, desk)
  | .dropFile name => (.dropped, desk.dropFile name)
  | .releaseImage name =>
    let (kept, desk) := desk.releaseImage name
    (.released kept, desk)

/-- Serve requests in a row. -/
def run (desk : Desk) : List Request → List Reply × Desk
  | [] => ([], desk)
  | request :: requests =>
    let (reply, after) := desk.serve request
    let (replies, last) := after.run requests
    (reply :: replies, last)

/-- All images that are held. -/
def held (desk : Desk) : List HeldImage :=
  desk.files.flatMap (·.2.held) ++ desk.images.map (·.2)

/-- A kept file is undisputed, if there is one under the name. -/
def Trusts (desk : Desk) (name : String) : Prop :=
  ∀ file, desk.file? name = some file → file.Undisputed desk.host (desk.held.map (·.image))

/-- A listing that has begun does not open its container again. -/
def TrustsListing (desk : Desk) (name : String) : Prop :=
  ∀ file, desk.file? name = some file → file.listing = none →
    file.Undisputed desk.host (desk.held.map (·.image))

/-- No file is disputed that the request opens as a container. -/
def Undisputed (desk : Desk) : Request → Prop
  | .openAt address _ => desk.registry.Clear desk.host (desk.held.map (·.image)) address
  | .childOf file _ _ => desk.Trusts file
  | .imageOf file _ => desk.Trusts file
  | .streamOf file => desk.Trusts file
  | .formatOf file => desk.Trusts file
  | .nextOf directory _ => desk.TrustsListing directory
  | .listOf directory => desk.TrustsListing directory
  | _ => True

/-- No file is disputed at its time. -/
def Clear (desk : Desk) : List Request → Prop
  | [] => True
  | request :: requests => desk.Undisputed request ∧ (desk.serve request).2.Clear requests

/-- The first disputed file, if there is any, is one whose image is asked for. -/
def Probing (desk : Desk) : List Request → Prop
  | [] => True
  | request :: requests =>
    (desk.Undisputed request ∨ ∃ file name, request = .imageOf file name) ∧
      (desk.Undisputed request → (desk.serve request).2.Probing requests)

/-- The desk with the numbers of all images left out. -/
def plain (desk : Desk) : Desk :=
  { desk with
    store := { broker := none }
    files := desk.files.map fun (name, file) => (name, file.plain)
    images := desk.images.map fun (name, image) => (name, image.plain) }

/-- What a file opens by itself is kept if a name is given. -/
def keepingImage (name : Option String) : Except Failure Image × Desk → Except Failure Image × Desk
  | (.ok image, desk) =>
    (.ok image, match name with
      | some name => desk.keepImage name ⟨0, image⟩
      | none => desk)
  | (.error failure, desk) => (.error failure, desk)

def expectNext (desk : Desk) (directory : String) (file : File) (name : String) : Reply × Desk :=
  let (result, after) := file.ownNext desk.host
  let desk := desk.keepFile directory after
  match result with
  | .error failure => (.failure failure, desk)
  | .ok none => (.ended, desk)
  | .ok (some found) => (.file found, desk.keepFile name found)

def expectList (desk : Desk) (directory : String) (file : File) : Reply × Desk :=
  let ((files, failure), after) := file.ownList desk.host
  (.files files failure, desk.keepFile directory after)

/-- The answer to a request if every file opens its own image. -/
def expect (desk : Desk) : Request → Reply × Desk
  | .openAt address name =>
    answered .file (keeping name (desk.registry.ownOpen desk.host address, desk))
  | .childOf file child name =>
    desk.asked file fun file =>
      answered .file (keeping name (file.ownChild desk.host child, desk))
  | .nextOf directory name =>
    desk.asked directory fun file => desk.expectNext directory file name
  | .listOf directory =>
    desk.asked directory fun file => desk.expectList directory file
  | .imageOf file name =>
    desk.asked file fun file => answered .image (keepingImage name (file.own desk.host, desk))
  | .streamOf file =>
    desk.asked file fun file =>
      answered (fun image => .stream { image }) (keepingImage none (file.own desk.host, desk))
  | .formatOf file =>
    desk.asked file fun file =>
      answered (fun image => .format image.handler.format)
        (keepingImage none (file.own desk.host, desk))
  | request => desk.serve request

section Views

variable (desk : Desk)

theorem file?_plain (name : String) : desk.plain.file? name = (desk.file? name).map .plain := by
  unfold file? plain
  dsimp only
  rw [List.find?_map]
  rw [Option.map_map, Option.map_map]
  rfl

theorem keepFile_plain (name : String) (file : File) :
    (desk.keepFile name file).plain = desk.plain.keepFile name file.plain := by
  unfold keepFile plain
  dsimp only
  rw [List.map_cons, List.filter_map]
  rfl

theorem dropFile_plain (name : String) : (desk.dropFile name).plain = desk.plain.dropFile name := by
  unfold dropFile plain
  dsimp only
  rw [List.filter_map]
  rfl

theorem keepImage_plain (name : String) (image : HeldImage) :
    (desk.keepImage name image).plain = desk.plain.keepImage name image.plain := by
  unfold keepImage plain
  dsimp only
  rw [List.map_cons, List.filter_map]
  rfl

theorem releaseImage_plain (name : String) :
    desk.plain.releaseImage name
      = ((desk.releaseImage name).1, (desk.releaseImage name).2.plain) := by
  unfold releaseImage image? plain
  dsimp only
  rw [List.find?_map, List.filter_map, Option.map_map, Option.isSome_map, Option.isSome_map]
  rfl

theorem held_plain : desk.plain.held.map (·.image) = desk.held.map (·.image) := by
  unfold held plain
  rw [List.map_append, List.map_append, List.flatMap_map, List.map_flatMap, List.map_flatMap,
    List.map_map, List.map_map, List.map_map]
  congr 1
  congr 1
  funext pair
  exact pair.2.held_plain

variable {desk}

theorem trusts_plain_iff {name : String} : desk.plain.Trusts name ↔ desk.Trusts name := by
  unfold Trusts
  rw [file?_plain, held_plain]
  constructor
  · intro trusted file kept
    rw [kept] at trusted
    exact File.undisputed_plain_iff.1 (trusted _ rfl)
  · intro trusted file kept
    obtain ⟨file', kept', rfl⟩ := Option.map_eq_some_iff.1 kept
    exact File.undisputed_plain_iff.2 (trusted _ kept')

theorem trustsListing_plain_iff {name : String} :
    desk.plain.TrustsListing name ↔ desk.TrustsListing name := by
  unfold TrustsListing
  rw [file?_plain, held_plain]
  constructor
  · intro trusted file kept fresh
    rw [kept] at trusted
    apply File.undisputed_plain_iff.1
    apply trusted _ rfl
    change file.listing.map _ = none
    rw [fresh]
    rfl
  · intro trusted file kept fresh
    obtain ⟨file', kept', rfl⟩ := Option.map_eq_some_iff.1 kept
    apply File.undisputed_plain_iff.2
    apply trusted _ kept'
    exact Option.map_eq_none_iff.1 fresh

theorem undisputed_plain_iff {request : Request} :
    desk.plain.Undisputed request ↔ desk.Undisputed request := by
  cases request with
  | openAt address name =>
    change desk.registry.Clear desk.host (desk.plain.held.map (·.image)) address ↔ _
    rw [held_plain]
    rfl
  | childOf file child name => exact trusts_plain_iff
  | imageOf file name => exact trusts_plain_iff
  | streamOf file => exact trusts_plain_iff
  | formatOf file => exact trusts_plain_iff
  | nextOf directory name => exact trustsListing_plain_iff
  | listOf directory => exact trustsListing_plain_iff
  | readerOf file => exact Iff.rfl
  | containerOf file => exact Iff.rfl
  | dropFile name => exact Iff.rfl
  | releaseImage name => exact Iff.rfl

theorem Clear.probing {requests : List Request} (clear : desk.Clear requests) :
    desk.Probing requests := by
  induction requests generalizing desk with
  | nil => trivial
  | cons request requests ih => exact ⟨.inl clear.1, fun _ => ih clear.2⟩

end Views

end Desk
end RetroMedia
