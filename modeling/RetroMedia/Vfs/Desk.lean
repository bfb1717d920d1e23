import RetroMedia.Vfs.Resolve

/-! A desk: files and images that somebody keeps under names while working with them. What is kept
decides which images stay alive. -/
namespace RetroMedia

structure Desk where
  host : Host
  registry : Registry
  store : ImageStore := {}
  files : List (String × File) := []
  images : List (String × HeldImage) := []

namespace Desk

/-- An image lives as long as a kept file or a kept image holds it. -/
def alive (desk : Desk) (id : ImageId) : Bool :=
  desk.files.any (·.2.holds id) || desk.images.any (·.2.id == id)

def file? (desk : Desk) (name : String) : Option File :=
  (desk.files.find? (·.1 == name)).map (·.2)

def image? (desk : Desk) (name : String) : Option HeldImage :=
  (desk.images.find? (·.1 == name)).map (·.2)

/-- Put a file down under a name, in place of any other. -/
def keepFile (desk : Desk) (name : String) (file : File) : Desk :=
  { desk with files := (name, file) :: desk.files.filter (·.1 != name) }

def dropFile (desk : Desk) (name : String) : Desk :=
  { desk with files := desk.files.filter (·.1 != name) }

def keepImage (desk : Desk) (name : String) (held : HeldImage) : Desk :=
  { desk with images := (name, held) :: desk.images.filter (·.1 != name) }

/-- Stop keeping an image, and tell whether it was kept. -/
def releaseImage (desk : Desk) (name : String) : Bool × Desk :=
  ((desk.image? name).isSome, { desk with images := desk.images.filter (·.1 != name) })

/-- Do two names keep one image? -/
def areSame (desk : Desk) (a b : String) : Option Bool := do
  return (← desk.image? a).id == (← desk.image? b).id

/-- Do something that may open images. -/
def access (desk : Desk) (action : Access α) : Except Failure α × Desk :=
  match action ⟨desk.host, desk.alive⟩ desk.store with
  | .ok value store => (.ok value, { desk with store })
  | .error failure store => (.error failure, { desk with store })

/-- Keep a file that was obtained. -/
def keeping (name : String) : Except Failure File × Desk → Except Failure File × Desk
  | (.ok file, desk) => (.ok file, desk.keepFile name file)
  | (.error failure, desk) => (.error failure, desk)

def openAt (desk : Desk) (address name : String) : Except Failure File × Desk :=
  keeping name (desk.access (desk.registry.open address))

def childOf (desk : Desk) (file : File) (child name : String) : Except Failure File × Desk :=
  keeping name (desk.access (file.child child))

/-- The next file of the directory kept under `directory`. -/
def nextOf (desk : Desk) (directory : String) (file : File) (name : String) :
    Except Failure (Option File) × Desk :=
  match desk.access file.next with
  | (.error failure, desk) => (.error failure, desk)
  | (.ok (result, listed), desk) =>
    let desk := desk.keepFile directory listed
    match result with
    | .error failure => (.error failure, desk)
    | .ok none => (.ok none, desk)
    | .ok (some found) => (.ok (some found), desk.keepFile name found)

/-- All files that are left of the listing of the directory kept under `directory`. -/
def listOf (desk : Desk) (directory : String) (file : File) :
    (List File × Option Failure) × Desk :=
  match desk.access file.list with
  | (.error failure, desk) => (([], some failure), desk)
  | (.ok (result, listed), desk) => (result, desk.keepFile directory listed)

/-- The image of a file, which is kept if a name is given. -/
def imageOf (desk : Desk) (file : File) (name : Option String) : Except Failure HeldImage × Desk :=
  match desk.access file.image with
  | (.error failure, desk) => (.error failure, desk)
  | (.ok held, desk) =>
    (.ok held, match name with
      | some name => desk.keepImage name held
      | none => desk)

/-- How many live images the broker knows, if there is one. -/
def cached? (desk : Desk) : Option Nat := desk.store.count? desk.alive

end Desk
end RetroMedia
