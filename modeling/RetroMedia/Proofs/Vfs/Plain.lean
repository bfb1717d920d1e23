import RetroMedia.Proofs.Broker.Lending
import RetroMedia.Vfs.Resolve

/-! Files by themselves. The image that a file opens by itself is a matter of the host and the file
alone. Where no other image is held under the address of a file, each operation on it comes to what
it comes to without a broker. -/
namespace RetroMedia

/-- An image whose number does not matter. -/
def HeldImage.plain (held : HeldImage) : HeldImage := { held with id := 0 }

namespace FileNode

def plain : FileNode → FileNode
  | host path => host path
  | generated system content => generated system content
  | entry held found => entry held.plain found

def held : FileNode → List HeldImage
  | entry held _ => [held]
  | _ => []

end FileNode

namespace FileListing

def plain : FileListing → FileListing
  | host paths => host paths
  | image held checkout => image held.plain checkout

def held : FileListing → List HeldImage
  | image held _ => [held]
  | host _ => []

end FileListing

namespace File

/-- The file with the numbers of its images left out. -/
def plain (file : File) : File :=
  { file with node := file.node.plain, listing := file.listing.map .plain }

/-- The images that a file keeps alive. -/
def held (file : File) : List HeldImage :=
  file.node.held ++ (file.listing.map FileListing.held).getD []

/-- The image that a file opens by itself. -/
def own (file : File) (host : Host) : Except Failure Image :=
  match file.system? host with
  | none => .error (.media file.notContainer)
  | some system => do
    let container ← file.container host
    (system.decode file.url container file.registry.config.limits).mapError .media

/-- Every image that is held under the address of the file is the one that it opens by itself. -/
def Undisputed (file : File) (host : Host) (held : List Image) : Prop :=
  (file.system? host).isSome = true →
    ∀ image ∈ file.held.map (·.image) ++ held, image.url = file.url → file.own host = .ok image

/-- The file of a name in this directory, found without a broker. -/
def ownChild (file : File) (host : Host) (name : String) : Except Failure File :=
  match file.node, file.isHostDirectory host with
  | .host path, true =>
    if host.exists (path.join name) then .ok (ofHost file.registry (path.join name))
    else .error (.media .notFound)
  | _, _ => do
    let image ← file.own host
    match Checkout.seekEntry name { image } with
    | .ok entry _ => return file.ofEntry ⟨0, image⟩ entry
    | .error error _ => throw (.media error)

/-- The file that some names lead to, found without a broker. -/
def ownDescent (file : File) (host : Host) : List String → Except Failure File
  | [] => .ok file.plain
  | name :: names => do (← file.ownChild host name).ownDescent host names

/-- The beginning of the listing of the directory, without a broker. -/
def ownListing (file : File) (host : Host) : Except Failure FileListing :=
  match file.node, file.isHostDirectory host with
  | .host path, true => .ok (.host ((host.names path).map path.join))
  | _, _ => do
    let image ← file.own host
    return .image ⟨0, image⟩ { image }

variable (file : File) (host : Host)

theorem system?_plain : file.plain.system? host = file.system? host := by
  obtain ⟨registry, url, name, node, listing⟩ := file
  cases node <;> rfl

theorem isHostDirectory_plain : file.plain.isHostDirectory host = file.isHostDirectory host := by
  obtain ⟨registry, url, name, node, listing⟩ := file
  cases node <;> rfl

theorem reader_plain : file.plain.reader host = file.reader host := by
  obtain ⟨registry, url, name, node, listing⟩ := file
  cases node <;> rfl

theorem container_plain : file.plain.container host = file.container host := by
  obtain ⟨registry, url, name, node, listing⟩ := file
  cases node <;> rfl

theorem size_plain : file.plain.size host = file.size host := by
  obtain ⟨registry, url, name, node, listing⟩ := file
  cases node <;> rfl

theorem own_plain : file.plain.own host = file.own host := by
  obtain ⟨registry, url, name, node, listing⟩ := file
  cases node <;> rfl

theorem ownChild_plain (name : String) : file.plain.ownChild host name = file.ownChild host name := by
  unfold ownChild
  rw [own_plain, isHostDirectory_plain]
  obtain ⟨registry, url, name', node, listing⟩ := file
  cases node <;> rfl

theorem ownListing_plain : file.plain.ownListing host = file.ownListing host := by
  unfold ownListing
  rw [own_plain, isHostDirectory_plain]
  obtain ⟨registry, url, name', node, listing⟩ := file
  cases node <;> rfl

theorem ownDescent_plain (names : List String) :
    file.plain.ownDescent host names = file.ownDescent host names := by
  cases names with
  | nil =>
    obtain ⟨registry, url, name, node, listing⟩ := file
    cases node <;> rcases listing with _ | (paths | ⟨held, checkout⟩) <;> rfl
  | cons name names =>
    unfold ownDescent
    rw [ownChild_plain]

theorem held_plain : file.plain.held.map (·.image) = file.held.map (·.image) := by
  obtain ⟨registry, url, name, node, listing⟩ := file
  cases node <;> rcases listing with _ | (paths | ⟨held, checkout⟩) <;> rfl

variable {file host}

theorem undisputed_plain_iff {held : List Image} :
    file.plain.Undisputed host held ↔ file.Undisputed host held := by
  unfold Undisputed
  rw [system?_plain, own_plain, held_plain]
  rfl

/-- No file on the way along some names is disputed. -/
def Clear (host : Host) (held : List Image) : File → List String → Prop
  | _, [] => True
  | file, name :: names =>
    file.Undisputed host held ∧
      ∀ inner, file.ownChild host name = .ok inner → Clear host held inner names

theorem clear_plain_iff {held : List Image} {names : List String} :
    Clear host held file.plain names ↔ Clear host held file names := by
  cases names with
  | nil => exact Iff.rfl
  | cons name names =>
    unfold Clear
    rw [undisputed_plain_iff, ownChild_plain]

end File

open ImageStore (Tells)

/-- What an operation comes to that holds on to some more images: the expected value, as far as it can
be viewed, and a store that is still in order. -/
def Gives {α β : Type} (held : List HeldImage) (brokered : Bool) (holds : α → List HeldImage)
    (view : α → β) (expected : Except Failure β) : EStateM.Result Failure ImageStore α → Prop
  | .ok value store =>
    expected = .ok (view value) ∧ store.Sound (holds value ++ held) ∧ store.broker.isSome = brokered
  | .error failure store =>
    expected = .error failure ∧ store.Sound held ∧ store.broker.isSome = brokered

section Gives

variable {held : List HeldImage} {brokered : Bool} {holds : α → List HeldImage} {view : α → β}
  {expected : Except Failure β} {outcome : EStateM.Result Failure ImageStore α}

theorem Gives.cases (law : Gives held brokered holds view expected outcome) :
    (∃ failure store, outcome = .error failure store ∧ expected = .error failure ∧
        store.Sound held ∧ store.broker.isSome = brokered) ∨
      ∃ value store, outcome = .ok value store ∧ expected = .ok (view value) ∧
        store.Sound (holds value ++ held) ∧ store.broker.isSome = brokered := by
  cases outcome with
  | error failure store => exact .inl ⟨failure, store, rfl, law⟩
  | ok value store => exact .inr ⟨value, store, rfl, law⟩

theorem Gives.fewer (law : Gives held brokered holds view expected outcome)
    {fewer : List HeldImage} (less : fewer ⊆ held) :
    Gives fewer brokered holds view expected outcome := by
  rcases law.cases with ⟨failure, store, rfl, failed, sound, kept⟩ |
    ⟨value, store, rfl, same, sound, kept⟩
  · exact ⟨failed, sound.mono less, kept⟩
  · refine ⟨same, sound.mono ?_, kept⟩
    apply List.append_subset.2
    constructor
    · exact List.subset_append_left _ _
    · exact List.Subset.trans less (List.subset_append_right _ _)

end Gives

namespace File

variable {file : File} {host : Host} {held : List HeldImage} {store : ImageStore}
  {alive : ImageId → Bool}

theorem holds_iff (file : File) (id : ImageId) :
    file.holds id = true ↔ ∃ image ∈ file.held, image.id = id := by
  obtain ⟨registry, url, name, node, listing⟩ := file
  cases node <;> rcases listing with _ | (paths | ⟨image, checkout⟩) <;>
    simp [holds, File.held, FileNode.held, FileListing.held]

theorem tells_holds (tells : Tells alive held) (file : File) :
    Tells (fun id => alive id || file.holds id) (file.held ++ held) := by
  intro id
  rw [Bool.or_eq_true, tells id, holds_iff]
  constructor
  · rintro (⟨image, member, same⟩ | ⟨image, member, same⟩)
    · exact ⟨image, List.mem_append_right _ member, same⟩
    · exact ⟨image, List.mem_append_left _ member, same⟩
  · rintro ⟨image, member, same⟩
    rcases List.mem_append.1 member with own | other
    · exact .inr ⟨image, own, same⟩
    · exact .inl ⟨image, other, same⟩

/-- An image has the address of the file that opened it. -/
theorem url_of_decode {system : FileSystem} {url : String} {container : Container} {limits : Limits}
    {image : Image} (decoded : system.decode url container limits = .ok image) : image.url = url := by
  unfold FileSystem.decode at decoded
  split at decoded
  · unfold Image.open at decoded
    cases opened : Handler.open container (some _) with
    | error error =>
      rw [opened] at decoded
      cases decoded
    | ok handler =>
      rw [opened] at decoded
      cases decoded
      rfl
  · cases decoded

theorem url_of_own {image : Image} (opened : file.own host = .ok image) : image.url = file.url := by
  unfold own at opened
  cases claimed : file.system? host with
  | none =>
    rw [claimed] at opened
    cases opened
  | some system =>
    rw [claimed] at opened
    cases content : file.container host with
    | error failure =>
      rw [content] at opened
      cases opened
    | ok container =>
      cases decoded : system.decode file.url container file.registry.config.limits with
      | error error =>
        simp only [content, bind, Except.bind, decoded] at opened
        cases opened
      | ok image' =>
        simp only [content, bind, Except.bind, decoded] at opened
        cases opened
        exact url_of_decode decoded

theorem image_of_none (claimed : file.system? host = none) :
    file.image ⟨host, alive⟩ store = .error (.media file.notContainer) store := by
  unfold image
  simp only [claimed]

theorem image_of_some {system : FileSystem} (claimed : file.system? host = some system) :
    file.image ⟨host, alive⟩ store
      = match store.obtain (fun id => alive id || file.holds id) file.url fun _ => file.own host with
        | (.ok held, store) => .ok held store
        | (.error failure, store) => .error failure store := by
  unfold image own
  dsimp only
  generalize file.system? host = found at claimed
  cases claimed
  rfl

/-- A file that is not disputed gets the image that it opens by itself. -/
theorem image_gives (sound : store.Sound (file.held ++ held)) (tells : Tells alive held)
    (trusted : store.broker.isSome = true → file.Undisputed host (held.map (·.image))) :
    Gives (file.held ++ held) store.broker.isSome (fun image => [image]) (·.image) (file.own host)
      (file.image ⟨host, alive⟩ store) := by
  cases claimed : file.system? host with
  | none =>
    rw [image_of_none claimed]
    refine ⟨?_, sound, rfl⟩
    unfold own
    rw [claimed]
  | some system =>
    rw [image_of_some claimed]
    rcases sound.obtain_cases (tells_holds tells file) (fun _ => file.own host)
        fun image opened => url_of_own opened with
      ⟨image, member, same, brokered, step⟩ |
        ⟨_, ⟨failure, failed, step⟩ | ⟨id, image, after, opened, step, onward, still⟩⟩
    · rw [step]
      refine ⟨?_, sound.mono ?_, rfl⟩
      · apply trusted brokered (by rw [claimed]; rfl) _ _ same
        rw [← List.map_append]
        exact List.mem_map_of_mem member
      · intro other here
        rcases List.mem_cons.1 here with rfl | kept
        · exact member
        · exact kept
    · rw [step]
      exact ⟨failed, sound, rfl⟩
    · rw [step]
      exact ⟨opened, onward, still⟩

/-- Asking a file for its image comes to what the file opens by itself just if it is undisputed. -/
theorem undisputed_of_image {broker : Broker} (sound : store.Sound (file.held ++ held))
    (tells : Tells alive held) (brokered : store.broker = some broker)
    (same : ∀ image after, file.image ⟨host, alive⟩ store = .ok image after →
      file.own host = .ok image.image) :
    file.Undisputed host (held.map (·.image)) := by
  intro claims image member address
  obtain ⟨system, claimed⟩ := Option.isSome_iff_exists.1 claims
  rw [← List.map_append] at member
  obtain ⟨holder, there, rfl⟩ := List.mem_map.1 member
  have lent := sound.lent_of_mem (tells_holds tells file) brokered there
  rw [address] at lent
  apply same holder store
  rw [image_of_some claimed]
  unfold ImageStore.obtain
  rw [lent]

/-- What can be opened as an image is no directory of the host. -/
theorem isHostDirectory_of_image {file : File} {surroundings : Surroundings}
    {store after : ImageStore} {held : HeldImage} (opened : file.image surroundings store = .ok held after) :
    file.isHostDirectory surroundings.host = false := by
  cases claimed : file.system? surroundings.host with
  | none =>
    rw [image, claimed] at opened
    cases opened
  | some system =>
    unfold isHostDirectory
    cases node : file.node with
    | host path =>
      rw [system?, node] at claimed
      dsimp only at claimed ⊢
      split at claimed
      · cases claimed
      · rename_i other
        exact Bool.eq_false_iff.2 other
    | generated system content => rfl
    | entry held entry => rfl

theorem exists_path (directory : file.isHostDirectory host = true) :
    ∃ path, file.node = .host path := by
  unfold isHostDirectory at directory
  split at directory
  · rename_i path same
    exact ⟨path, same⟩
  · cases directory

theorem startListing_eq :
    file.startListing ⟨host, alive⟩ store
      = (match file.node, file.isHostDirectory host with
        | .host path, true => pure (.host ((host.names path).map path.join))
        | _, _ => file.image >>= fun held => pure (.image held (checkout held)) :
          Access FileListing) ⟨host, alive⟩ store := rfl

section Directories

variable {path : HostPath} (node : file.node = .host path)
  (directory : file.isHostDirectory host = true)
include node directory

theorem child_of_directory (name : String) :
    file.child name ⟨host, alive⟩ store
      = if host.exists (path.join name) then .ok (ofHost file.registry (path.join name)) store
        else .error (.media .notFound) store := by
  unfold child
  dsimp only
  rw [directory, node]

theorem ownChild_of_directory (name : String) :
    file.ownChild host name
      = if host.exists (path.join name) then .ok (ofHost file.registry (path.join name))
        else .error (.media .notFound) := by
  unfold ownChild
  rw [directory, node]

theorem startListing_of_directory :
    file.startListing ⟨host, alive⟩ store
      = .ok (.host ((host.names path).map path.join)) store := by
  rw [startListing_eq, directory, node]
  rfl

theorem ownListing_of_directory :
    file.ownListing host = .ok (.host ((host.names path).map path.join)) := by
  unfold ownListing
  rw [directory, node]

end Directories

section Containers

variable (inside : file.isHostDirectory host = false)
include inside

theorem child_of_container (name : String) :
    file.child name ⟨host, alive⟩ store = match file.image ⟨host, alive⟩ store with
      | .error failure store => .error failure store
      | .ok held store =>
        match Checkout.seekEntry name (checkout held) with
        | .ok entry _ => .ok (file.ofEntry held entry) store
        | .error error _ => .error (.media error) store := by
  unfold child
  dsimp only
  rw [inside]
  cases file.node <;> rfl

theorem ownChild_of_container (name : String) :
    file.ownChild host name = (file.own host).bind fun image =>
      match Checkout.seekEntry name { image } with
      | .ok entry _ => .ok (file.ofEntry ⟨0, image⟩ entry)
      | .error error _ => .error (.media error) := by
  unfold ownChild
  rw [inside]
  cases file.node <;> rfl

theorem startListing_of_container :
    file.startListing ⟨host, alive⟩ store = match file.image ⟨host, alive⟩ store with
      | .error failure store => .error failure store
      | .ok held store => .ok (.image held (checkout held)) store := by
  have begun : file.startListing ⟨host, alive⟩ store = EStateM.bind (file.image ⟨host, alive⟩)
      (fun held store => .ok (.image held (checkout held)) store) store := by
    rw [startListing_eq, inside]
    cases file.node <;> rfl
  rw [begun]
  unfold EStateM.bind
  cases file.image ⟨host, alive⟩ store <;> rfl

theorem ownListing_of_container :
    file.ownListing host = (file.own host).map fun image => .image ⟨0, image⟩ { image } := by
  unfold ownListing
  rw [inside]
  cases file.node <;> rfl

end Containers

/-- What is found in a directory holds on to the image of that directory. -/
theorem child_gives (sound : store.Sound (file.held ++ held)) (tells : Tells alive held)
    (trusted : store.broker.isSome = true → file.Undisputed host (held.map (·.image)))
    (name : String) :
    Gives held store.broker.isSome File.held plain (file.ownChild host name)
      (file.child name ⟨host, alive⟩ store) := by
  have bare := sound.mono (List.subset_append_right file.held held)
  cases inside : file.isHostDirectory host with
  | true =>
    obtain ⟨path, node⟩ := exists_path inside
    rw [child_of_directory node inside, ownChild_of_directory node inside]
    split
    · exact ⟨rfl, bare, rfl⟩
    · exact ⟨rfl, bare, rfl⟩
  | false =>
    have law := image_gives sound tells trusted
    rw [child_of_container inside, ownChild_of_container inside]
    rcases law.cases with ⟨failure, after, step, failed, still, kept⟩ |
      ⟨image, after, step, opened, still, kept⟩
    · rw [step, failed]
      exact ⟨rfl, still.mono (List.subset_append_right _ _), kept⟩
    · have fewer : image :: held ⊆ image :: (file.held ++ held) :=
        List.cons_subset_cons _ (List.subset_append_right _ _)
      rw [step, opened]
      simp only [checkout, Except.bind]
      split
      · exact ⟨rfl, still.mono fewer, kept⟩
      · exact ⟨rfl, (still.mono fewer).mono (List.subset_cons_self _ _), kept⟩

theorem descend_cons (name : String) (names : List String) :
    file.descend (name :: names) ⟨host, alive⟩ store
      = match file.child name ⟨host, alive⟩ store with
        | .ok inner store => inner.descend names ⟨host, alive⟩ store
        | .error failure store => .error failure store := by
  rw [descend]
  simp only [bind, ReaderT.bind, EStateM.bind]
  cases file.child name ⟨host, alive⟩ store <;> rfl

/-- A descent comes to the same at every depth, as long as no file on its way is disputed. -/
theorem descend_gives (sound : store.Sound (file.held ++ held)) (tells : Tells alive held)
    (names : List String)
    (clear : store.broker.isSome = true → file.Clear host (held.map (·.image)) names) :
    Gives held store.broker.isSome File.held plain (file.ownDescent host names)
      (file.descend names ⟨host, alive⟩ store) := by
  induction names generalizing file store with
  | nil => exact ⟨rfl, sound, rfl⟩
  | cons name names ih =>
    have law := child_gives sound tells (fun brokered => (clear brokered).1) name
    unfold ownDescent
    rw [descend_cons]
    rcases law.cases with ⟨failure, after, step, failed, still, kept⟩ |
      ⟨inner, after, step, found, still, kept⟩
    · rw [step, failed]
      exact ⟨rfl, still, kept⟩
    · have onward := ih still fun brokered => by
        rw [kept] at brokered
        exact clear_plain_iff.1 ((clear brokered).2 _ found)
      rw [kept] at onward
      rw [step, found]
      change Gives _ _ _ _ (inner.plain.ownDescent host names) _
      rw [ownDescent_plain]
      exact onward

end File
end RetroMedia
