import RetroMedia.Host.Tree
import RetroMedia.Image.Checkout
import RetroMedia.Vfs.ImageStore
import RetroMedia.Vfs.Registry

/-! Files: on the host, generated from an address, or inside containers at any depth. A file that a
file system claims as a container is a directory as well. -/
namespace RetroMedia

/-- Where a file is. -/
inductive FileNode where
  | host (path : HostPath)
  | generated (system : FileSystem) (content : Container)
  | entry (held : HeldImage) (entry : Entry)

/-- What is left of a directory listing. -/
inductive FileListing where
  | host (paths : List HostPath)
  | image (held : HeldImage) (checkout : Checkout)

structure File where
  registry : Registry
  url : String
  name : String
  node : FileNode
  listing : Option FileListing := none

/-- What the operations on files depend on: the host, and which images somebody holds. -/
structure Surroundings where
  host : Host
  alive : ImageId → Bool

/-- An operation that may open images. -/
abbrev Access := ReaderT Surroundings (EStateM Failure ImageStore)

namespace File

def ofHost (registry : Registry) (path : HostPath) : File :=
  { registry, url := path.toText, name := path.fileName?.getD path.toText, node := .host path }

def ofAddress (registry : Registry) (url : String) (system : FileSystem) (content : Container) :
    File :=
  { registry, url, name := url, node := .generated system content }

/-- The file of an entry of the container that `parent` is. -/
def ofEntry (parent : File) (held : HeldImage) (entry : Entry) : File :=
  { registry := parent.registry, url := parent.url ++ "/" ++ entry.name, name := entry.name
    node := .entry held entry }

/-- Does the file keep an image alive? -/
def holds (file : File) (id : ImageId) : Bool :=
  (match file.node with
    | .entry held _ => held.id == id
    | _ => false)
    || match file.listing with
      | some (.image held _) => held.id == id
      | _ => false

/-- The extension of the name, or the scheme of an address. -/
def extension? (file : File) : Option String :=
  match file.node with
  | .generated _ _ => (splitScheme file.url).map fun (scheme, _) => Format.lower scheme
  | _ => extensionOf file.name

def entry? (file : File) : Option Entry :=
  match file.node with
  | .entry _ entry => some entry
  | _ => none

def size (file : File) (host : Host) : Nat :=
  match file.node with
  | .host path =>
    match host.find? path with
    | some (.file content) => content.size
    | _ => 0
  | .generated _ content => content.size
  | .entry _ entry => entry.size

/-- Is the file a directory of the host? -/
def isHostDirectory (file : File) (host : Host) : Bool :=
  match file.node with
  | .host path => host.isDirectory path
  | _ => false

/-- The file system that claims the file as a container. A hint counts for more than the name. -/
def system? (file : File) (host : Host) : Option FileSystem :=
  let system := match file.node with
    | .host path => if host.isDirectory path then none else file.registry.find? file.name
    | .generated system _ => some system
    | .entry _ entry =>
      match entry.formatHint with
      | some hint => file.registry.findHint? hint
      | none => file.registry.find? file.name
  system.filter (·.isContainer)

/-- Can the file be listed? -/
def isDirectory (file : File) (host : Host) : Bool :=
  file.isHostDirectory host || ((file.entry?.map (·.isDirectory)).getD false)
    || (file.system? host).isSome

/-- The extensions of files that hold text. -/
def textExtensions : List String := ["txt", "seq", "json", "md", "cfg", "ini", "toml"]

def hasTextExtension (file : File) : Bool :=
  ((file.extension?).map textExtensions.contains).getD false

/-- Does the file hold text? -/
def isText (file : File) (host : Host) : Bool :=
  match file.node with
  | .generated system _ => !system.isContainer
  | .host _ => !file.isDirectory host && file.hasTextExtension
  | .entry held entry =>
    if entry.isDirectory then !file.isDirectory host && file.hasTextExtension
    else
      let kind := held.image.handler.decodeType entry
      kind.startsWith "SEQ" || kind == "STR" || file.hasTextExtension

/-- The type of the file as a listing shows it. -/
def typeName (file : File) (host : Host) : String :=
  match file.node with
  | .entry held entry => held.image.handler.decodeType entry
  | _ =>
    if file.isHostDirectory host then "DIR"
    else ((file.extension?).map Format.upper).getD "FILE"

/-- A reader of the file's bytes. A container reads as its image. -/
def reader (file : File) (host : Host) : Except Failure Reader :=
  match file.node with
  | .host path =>
    if host.isDirectory path then .error MediaError.notFound
    else
      match host.mapFile path with
      | .ok container => .ok (.cursor { container })
      | .error error => .error error.toFailure
  | .generated _ container => .ok (.cursor { container })
  | .entry held entry =>
    if entry.isDirectory && entry.incomplete then .error MediaError.partialEntry
    else (held.image.handler.openEntry entry held.image.limits).mapError .media

/-- The file's bytes as a container. -/
def container (file : File) (host : Host) : Except Failure Container :=
  match file.node with
  | .host path => (host.mapFile path).mapError HostError.toFailure
  | .generated _ content => .ok content
  | .entry _ _ => do
    match ByteSource.drain (← file.reader host, Signals.quiet) with
    | (bytes, none, _) => return .ofBytes bytes
    | (_, some error, _) => throw (Failure.media error)

/-- Why a file that is no container cannot be opened as one. -/
def notContainer (file : File) : MediaError :=
  match file.entry? with
  | some entry =>
    if entry.isDirectory && entry.incomplete then .partialEntry
    else if entry.isDirectory then .notFound
    else .notADirectory
  | none => .notADirectory

/-- The image of the file, which is a container. -/
def image (file : File) : Access HeldImage := fun surroundings store =>
  match file.system? surroundings.host with
  | none => .error (.media file.notContainer) store
  | some system =>
    let alive := fun id => surroundings.alive id || file.holds id
    let source := fun _ => do
      let container ← file.container surroundings.host
      (system.decode file.url container file.registry.config.limits).mapError .media
    match store.obtain alive file.url source with
    | (.ok held, store) => .ok held store
    | (.error failure, store) => .error failure store

/-- A new stream of an image. -/
def checkout (held : HeldImage) : Checkout := { image := held.image }

/-- The file of a name in this directory. Inside a container the name may be a pattern. -/
def child (file : File) (name : String) : Access File := fun surroundings store =>
  let host := surroundings.host
  match file.node, file.isHostDirectory host with
  | .host path, true =>
    let inner := path.join name
    if host.exists inner then .ok (ofHost file.registry inner) store
    else .error (.media .notFound) store
  | _, _ =>
    match file.image surroundings store with
    | .error failure store => .error failure store
    | .ok held store =>
      match Checkout.seekEntry name (checkout held) with
      | .ok entry _ => .ok (file.ofEntry held entry) store
      | .error error _ => .error (.media error) store

/-- Begin to list the directory. -/
def startListing (file : File) : Access FileListing := do
  let host := (← read).host
  match file.node, file.isHostDirectory host with
  | .host path, true => return .host ((host.names path).map path.join)
  | _, _ =>
    let held ← file.image
    return .image held (checkout held)

/-- The next file of a listing, and what is left of it. -/
def advance (file : File) : FileListing → Except MediaError (Option (File × FileListing))
  | .host [] => .ok none
  | .host (path :: rest) => .ok (some (ofHost file.registry path, .host rest))
  | .image held checkout =>
    match Checkout.nextEntry checkout with
    | .ok (some entry) after => .ok (some (file.ofEntry held entry, .image held after))
    | .ok none _ => .ok none
    | .error error _ => .error error

/-- The next file of the directory, none at its end, and the directory with what is left of its
listing. After the end, and after a failure, the listing starts again. -/
def next (file : File) : Access (Except Failure (Option File) × File) := fun surroundings store =>
  let fresh := { file with listing := none }
  let begun := match file.listing with
    | some listing => EStateM.Result.ok listing store
    | none => file.startListing surroundings store
  match begun with
  | .error failure store => .ok (.error failure, fresh) store
  | .ok listing store =>
    match file.advance listing with
    | .error error => .ok (.error (.media error), fresh) store
    | .ok none => .ok (.ok none, fresh) store
    | .ok (some (found, rest)) => .ok (.ok (some found), { file with listing := some rest }) store

/-- The file in log output. -/
def describe (file : File) : String :=
  Quoted.record "MFile" [("url", Quoted.quote file.url), ("name", Quoted.quote file.name)]

end File
end RetroMedia
