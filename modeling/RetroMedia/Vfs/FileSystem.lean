import RetroMedia.Config
import RetroMedia.Generated
import RetroMedia.Image.Basic

/-! File systems. Each of them claims files, by their names or by the hints of the directories they
stand in, and tells whether a claimed file is a container. -/
namespace RetroMedia

inductive FileSystem where
  /-- The files of a format. -/
  | ofFormat (format : Format)
  /-- Files whose names have an ending, or with a hint, that are containers of some format if one is
  given. -/
  | custom (name ending : String) (hint : Option String) (decodes : Option Format)
  deriving DecidableEq, Repr

namespace FileSystem

def name : FileSystem → String
  | ofFormat format => format.name
  | custom name _ _ _ => name

/-- Does an address have the scheme of a format? -/
def hasSchemeOf (format : Format) (url : String) : Bool :=
  match splitScheme url with
  | some (scheme, _) => Generated.hasScheme scheme format
  | none => false

/-- Is a file with this name claimed? -/
def claims (system : FileSystem) (name : String) : Bool :=
  match system with
  | ofFormat format =>
    if format.scheme?.isSome then hasSchemeOf format name
    else
      match extensionOf name with
      | some extension => format.extensions.contains extension
      | none => false
  | custom _ ending _ _ => name.endsWith ending

/-- Is a file with this hint claimed? -/
def claimsHint (system : FileSystem) (hint : String) : Bool :=
  match system with
  | ofFormat format => format.extensions.contains hint || format.scheme? == some hint
  | custom _ _ claimed _ => claimed == some hint

/-- Do claimed files hold entries? -/
def isContainer : FileSystem → Bool
  | ofFormat format => format.isContainer
  | custom _ _ _ decodes => decodes.isSome

/-- The content of an address that holds it inline. -/
def generate? (system : FileSystem) (url : String) : Option (Except Failure Container) :=
  match system with
  | ofFormat format =>
    if hasSchemeOf format url then
      (Generated.parseUrl? url).map fun (format, data) => Generated.generate format data
    else none
  | custom _ _ _ _ => none

/-- The format in which containers are read. -/
def decodes? : FileSystem → Option Format
  | ofFormat format => if format.isContainer then some format else none
  | custom _ _ _ decodes => decodes

/-- Open a claimed file as an image. -/
def decode (system : FileSystem) (url : String) (container : Container) (limits : Limits) :
    Except MediaError Image :=
  match system.decodes? with
  | some format => Image.open url container (some format) limits
  | none => .error .notADirectory

end FileSystem
end RetroMedia
