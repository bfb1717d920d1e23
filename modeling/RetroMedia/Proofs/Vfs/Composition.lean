import RetroMedia.Proofs.Host.Tree
import RetroMedia.Proofs.Image.Sizes
import RetroMedia.Proofs.Vfs.Abreast

/-! Addresses of several parts. To open a path on the host with some names behind it is to open the path
and to descend one name at a time, whether or not the files on the way are kept. -/
namespace RetroMedia

open HostPath (IsName)

section Schemes

theorem hasScheme_of_slash {scheme : String} (slash : '/' ∈ scheme.toList) (format : Format) :
    Generated.hasScheme scheme format = false := by
  have kept : '/' ∈ (Format.lower scheme).toList := by
    rw [Format.lower, String.toList_ofList]
    exact List.mem_map.2 ⟨'/', slash, rfl⟩
  unfold Generated.hasScheme
  rw [beq_eq_false_iff_ne]
  intro same
  have plain : ∀ name ∈ format.scheme?, '/' ∉ name.toList := by cases format <;> simp [Format.scheme?]
  exact plain _ same kept

theorem hasSchemeOf_eq (format : Format) (address : String) :
    FileSystem.hasSchemeOf format address = (address.toList.contains ':' &&
      Generated.hasScheme (String.ofList (address.toList.takeWhile (· != ':'))) format) := by
  unfold FileSystem.hasSchemeOf splitScheme
  dsimp only
  cases address.toList.contains ':' <;> simp

/-- What follows a slash does not give an address a scheme. -/
theorem hasSchemeOf_append (format : Format) (address more : String) :
    FileSystem.hasSchemeOf format (address ++ "/" ++ more)
      = FileSystem.hasSchemeOf format address := by
  have chars : (address ++ "/" ++ more).toList = address.toList ++ '/' :: more.toList := by simp
  rw [hasSchemeOf_eq, hasSchemeOf_eq, chars]
  by_cases colon : ':' ∈ address.toList
  · have stops : (address.toList.takeWhile (· != ':')).length ≠ address.toList.length := by
      intro whole
      have all := (List.takeWhile_prefix (· != ':')).eq_of_length whole
      rw [← all] at colon
      simpa using List.mem_takeWhile_imp colon
    rw [List.takeWhile_append, if_neg stops]
    simp [colon]
  · have goes : ∀ char ∈ address.toList, (char != ':') = true := by
      intro char member
      rw [bne_iff_ne]
      rintro rfl
      exact colon member
    rw [List.takeWhile_append_of_pos goes, hasScheme_of_slash (by simp)]
    simp [colon]

theorem generate?_eq_none_iff (format : Format) (address : String) :
    (FileSystem.ofFormat format).generate? address = none ↔
      FileSystem.hasSchemeOf format address = false := by
  unfold FileSystem.generate?
  dsimp only
  cases schemed : FileSystem.hasSchemeOf format address with
  | false => simp
  | true =>
    unfold FileSystem.hasSchemeOf at schemed
    unfold Generated.parseUrl?
    cases split : splitScheme address with
    | none => simp [split] at schemed
    | some parts =>
      obtain ⟨scheme, data⟩ := parts
      rw [split] at schemed
      dsimp only at schemed
      have known : format ∈ Generated.formats := by
        unfold Generated.hasScheme at schemed
        cases format <;> simp_all [Format.scheme?, Generated.formats]
      obtain ⟨found, same⟩ := Option.isSome_iff_exists.1 (List.find?_isSome.2 ⟨format, known, schemed⟩)
      simp [same]

theorem Registry.generate?_append {registry : Registry} {address : String}
    (outside : registry.generate? address = none) (more : String) :
    registry.generate? (address ++ "/" ++ more) = none := by
  unfold generate? at *
  rw [List.findSome?_eq_none_iff] at *
  intro system member
  have none := outside system member
  rw [Option.map_eq_none_iff] at *
  cases system with
  | ofFormat format =>
    rw [generate?_eq_none_iff] at *
    rw [hasSchemeOf_append, none]
  | custom name ending hint decodes => rfl

end Schemes

namespace Desk

/-- Descend from a file, one name at a time, and keep each file on the way under a name of its own. -/
def stepDown (desk : Desk) (file : File) : List (String × String) → Except Failure File × Desk
  | [] => (.ok file, desk)
  | (child, name) :: children =>
    match desk.childOf file child name with
    | (.ok inner, desk) => desk.stepDown inner children
    | (.error failure, desk) => (.error failure, desk)

/-- Open an address, and descend from there. -/
def openByStep (desk : Desk) (address name : String) (children : List (String × String)) :
    Except Failure File × Desk :=
  match desk.openAt address name with
  | (.ok file, desk) => desk.stepDown file children
  | (.error failure, desk) => (.error failure, desk)

/-- A desk on which more files are kept. -/
structure Extends (desk desk' : Desk) : Prop where
  host : desk'.host = desk.host
  registry : desk'.registry = desk.registry
  files : desk.files ⊆ desk'.files
  images : desk'.images = desk.images

variable {desk desk' : Desk}

theorem Extends.held (extended : Extends desk desk') : desk.held ⊆ desk'.held := by
  unfold Desk.held
  rw [extended.images]
  apply List.append_subset.2
  refine ⟨?_, List.subset_append_right _ _⟩
  intro image member
  obtain ⟨pair, kept, here⟩ := List.mem_flatMap.1 member
  exact List.mem_append_left _ (List.mem_flatMap.2 ⟨pair, extended.files kept, here⟩)

theorem Extends.keepFile (extended : Extends desk desk') {name : String}
    (fresh : desk.file? name = none) (file : File) : Extends desk (desk'.keepFile name file) := by
  refine ⟨extended.host, extended.registry, ?_, extended.images⟩
  intro pair kept
  apply List.mem_cons_of_mem
  apply List.mem_filter.2
  refine ⟨extended.files kept, ?_⟩
  unfold file? at fresh
  have other := List.find?_eq_none.1 (Option.map_eq_none_iff.1 fresh) pair kept
  simpa using other

theorem Extends.store (extended : Extends desk desk') (store : ImageStore) :
    Extends desk { desk' with store } :=
  ⟨extended.host, extended.registry, extended.files, extended.images⟩

section Children

variable {file inner : File} {child : String} {failure : Failure} {after : ImageStore}

theorem childOf_of_error
    (step : file.child child ⟨desk.host, desk.alive⟩ desk.store = .error failure after)
    (name : String) : desk.childOf file child name = (.error failure, { desk with store := after }) := by
  rw [childOf, access, step]
  rfl

theorem childOf_of_ok (step : file.child child ⟨desk.host, desk.alive⟩ desk.store = .ok inner after)
    (name : String) :
    desk.childOf file child name = (.ok inner, { desk with store := after }.keepFile name inner) := by
  rw [childOf, access, step]
  rfl

end Children

/-- What an operation comes to, whatever it leaves in the store. -/
def result : EStateM.Result Failure ImageStore α → Except Failure α
  | .ok value _ => .ok value
  | .error failure _ => .error failure

theorem result_of_gives {α β : Type} {held : List HeldImage} {brokered : Bool}
    {holds : α → List HeldImage} {view : α → β} {expected : Except Failure β}
    {outcome : EStateM.Result Failure ImageStore α}
    (gives : Gives held brokered holds view expected outcome) :
    (result outcome).map view = expected := by
  rcases gives.cases with ⟨failure, store, rfl, same, _⟩ | ⟨value, store, rfl, same, _⟩
  · exact same.symm
  · exact same.symm

/-- Whoever keeps the files on the way comes to the same file as somebody who does not. -/
theorem stepDown_eq {file file' : File} {store : ImageStore}
    (extended : Extends desk desk')
    (abreast : File.Abreast desk.held desk'.held file file' store desk'.store)
    (inside : file.isHostDirectory desk.host = false) (children : List (String × String))
    (fresh : ∀ child ∈ children, desk.file? child.2 = none) :
    (result (file.descend (children.map Prod.fst) ⟨desk.host, desk.alive⟩ store)).map File.plain
      = (desk'.stepDown file' children).1.map File.plain := by
  induction children generalizing desk' file file' store with
  | nil => exact congrArg Except.ok abreast.same
  | cons pair children ih =>
    obtain ⟨child, name⟩ := pair
    rw [List.map_cons, File.descend_cons]
    rcases abreast.child (tells_alive desk) (tells_alive desk') inside child with
      ⟨failure, after, after', step, step'⟩ |
        ⟨inner, inner', after, after', step, step', onward, inside'⟩
    · rw [← extended.host] at step'
      rw [step, stepDown, childOf_of_error step']
      rfl
    · rw [← extended.host] at step'
      rw [step, stepDown, childOf_of_ok step']
      have extended' := (extended.store after').keepFile (fresh _ List.mem_cons_self) inner'
      apply ih extended' _ inside' fun child member => fresh child (List.mem_cons_of_mem _ member)
      exact onward.keeping extended'.held (held_keepFile _ name inner')

/-- A file that holds no image leads to the same files, whether it and they are kept or not. -/
theorem stepDown_keepFile (sound : desk.Sound) {file : File} (idle : file.held = [])
    (inside : file.isHostDirectory desk.host = false) {label : String}
    {children : List (String × String)}
    (fresh : ∀ name ∈ label :: children.map Prod.snd, desk.file? name = none) :
    (result (file.descend (children.map Prod.fst) ⟨desk.host, desk.alive⟩ desk.store)).map File.plain
      = ((desk.keepFile label file).stepDown file children).1.map File.plain := by
  have held : (desk.keepFile label file).held ⊆ desk.held := by
    have more := held_keepFile desk label file
    rwa [idle] at more
  have extended := Extends.keepFile ⟨rfl, rfl, List.Subset.refl _, rfl⟩
    (fresh label List.mem_cons_self) file
  apply stepDown_eq extended _ inside children
  · intro child member
    apply fresh
    apply List.mem_cons_of_mem
    exact List.mem_map_of_mem (f := Prod.snd) member
  · refine ⟨rfl, ?_, ?_, rfl, extended.held, ?_⟩
    · rw [idle]
      exact sound
    · rw [idle]
      exact sound.mono held
    · rw [idle]
      intro image member
      exact .inl (held member)

section Addresses

variable {path : String} {node : HostNode} (leads : desk.host.find? (HostPath.ofText path) = some node)
  (outside : desk.registry.generate? path = none)
include leads outside

omit outside in
theorem filled_of_find? : path ≠ "" :=
  HostPath.toText_ofText path ▸ (Host.find?_eq_some_iff.1 leads).2.1

/-- A path that exists is opened as the file there. -/
theorem open_of_find? : desk.registry.open path ⟨desk.host, desk.alive⟩ desk.store
    = .ok (File.ofHost desk.registry (HostPath.ofText path)) desk.store := by
  have here : desk.host.existingPart (HostPath.ofText path) [] = some (HostPath.ofText path, []) :=
    Host.existingPart_of_exists (Host.exists_of_find? leads) []
  rw [Registry.open_eq, outside]
  dsimp only
  rw [here]
  rfl

/-- Names that lead out of the tree are looked up from the existing part of the path. -/
theorem open_below {first : String} {rest : List String} (are : ∀ name ∈ first :: rest, IsName name)
    (absent : node.member? first = none) :
    desk.registry.open (String.intercalate "/" (path :: first :: rest)) ⟨desk.host, desk.alive⟩
        desk.store
      = (File.ofHost desk.registry (HostPath.ofText path).trimmed).descend (first :: rest)
        ⟨desk.host, desk.alive⟩ desk.store := by
  have filled := filled_of_find? leads
  have split := HostPath.ofText_intercalate filled fun name member => (are name member).single
  have part := Host.existingPart_below (HostPath.written_ofText filled) leads absent are []
  have outside' : desk.registry.generate? (String.intercalate "/" (path :: first :: rest)) = none := by
    rw [String.intercalate_cons_cons]
    exact Registry.generate?_append outside _
  rw [Registry.open_eq, outside', split]
  dsimp only
  rw [part, List.append_nil]

end Addresses

theorem openAt_fst (desk : Desk) (address name : String) :
    (desk.openAt address name).1
      = result (desk.registry.open address ⟨desk.host, desk.alive⟩ desk.store) := by
  unfold openAt access
  cases desk.registry.open address ⟨desk.host, desk.alive⟩ desk.store <;> rfl

/-- A desk as it may be after requests in a row, with a broker or without one. -/
def Reached (desk : Desk) : Prop :=
  ∃ host registry requests,
    desk = ((shared host registry).run requests).2 ∨ desk = ((unshared host registry).run requests).2

theorem Reached.sound (reached : desk.Reached) : desk.Sound := by
  obtain ⟨host, registry, requests, rfl | rfl⟩ := reached
  · exact (alike_start host registry).sound.run requests
  · exact (sound_of_free rfl).run requests

/-- A directory of the host has no child of a name that is missing there. -/
theorem child_of_absent {host : Host} {registry : Registry} {path : HostPath}
    {members : List (String × HostNode)} {name : String} (written : path.Written)
    (leads : host.find? path = some (.directory members)) (isName : IsName name)
    (absent : (HostNode.directory members).member? name = none) (alive : ImageId → Bool)
    (store : ImageStore) :
    (File.ofHost registry path).child name ⟨host, alive⟩ store
      = .error (.media .notFound) store := by
  have directory : (File.ofHost registry path).isHostDirectory host = true := by
    change host.isDirectory path = true
    rw [Host.isDirectory, leads]
    rfl
  rw [File.child_of_directory rfl directory,
    Host.exists_join_of_absent written leads absent isName, if_neg (by simp)]

section Parts

variable {path : String} {first kept : String} {children : List (String × String)}
  (outside : desk.registry.generate? path = none)
  (are : ∀ child ∈ (first, kept) :: children, IsName child.1)
include outside are

theorem open_children {node : HostNode}
    (leads : desk.host.find? (HostPath.ofText path) = some node)
    (absent : node.member? first = none) :
    desk.registry.open (String.intercalate "/" (path :: first :: children.map Prod.fst))
        ⟨desk.host, desk.alive⟩ desk.store
      = (File.ofHost desk.registry (HostPath.ofText path).trimmed).descend
        (first :: children.map Prod.fst) ⟨desk.host, desk.alive⟩ desk.store := by
  apply open_below leads outside _ absent
  intro name member
  rw [← List.map_cons (f := Prod.fst) (a := (first, kept))] at member
  obtain ⟨child, inside, rfl⟩ := List.mem_map.1 member
  exact are child inside

theorem open_by_step_of_directory {members : List (String × HostNode)}
    (leads : desk.host.find? (HostPath.ofText path) = some (.directory members))
    (absent : (HostNode.directory members).member? first = none) (desk' : Desk)
    (same : desk'.host = desk.host) :
    result (desk.registry.open (String.intercalate "/" (path :: first :: children.map Prod.fst))
        ⟨desk.host, desk.alive⟩ desk.store)
      = (desk'.stepDown (File.ofHost desk.registry (HostPath.ofText path))
        ((first, kept) :: children)).1 := by
  have written := HostPath.written_ofText (filled_of_find? leads)
  have isFirst := are _ List.mem_cons_self
  have trimmed := (Host.find?_trimmed written leads).1
  rw [open_children outside are leads absent, File.descend_cons,
    child_of_absent written.trimmed trimmed isFirst absent, stepDown]
  rw [← same] at leads
  rw [childOf_of_error (child_of_absent written leads isFirst absent _ _)]
  rfl

theorem open_by_step_of_file (sound : desk.Sound) {content : Container}
    (leads : desk.host.find? (HostPath.ofText path) = some (.file content)) {label : String}
    (fresh : ∀ name ∈ label :: kept :: children.map Prod.snd, desk.file? name = none) :
    (result (desk.registry.open (String.intercalate "/" (path :: first :: children.map Prod.fst))
        ⟨desk.host, desk.alive⟩ desk.store)).map File.plain
      = ((desk.keepFile label (File.ofHost desk.registry (HostPath.ofText path))).stepDown
        (File.ofHost desk.registry (HostPath.ofText path)) ((first, kept) :: children)).1.map
          File.plain := by
  have written := HostPath.written_ofText (filled_of_find? leads)
  have whole : (HostPath.ofText path).trimmed = HostPath.ofText path :=
    (Host.find?_trimmed written leads).2.resolve_right (by simp [HostNode.isDirectory])
  rw [open_children outside are leads rfl, whole]
  have inside : (File.ofHost desk.registry (HostPath.ofText path)).isHostDirectory desk.host
      = false := by
    change desk.host.isDirectory (HostPath.ofText path) = false
    rw [Host.isDirectory, leads]
    rfl
  exact @stepDown_keepFile desk sound _ rfl inside label ((first, kept) :: children) fresh

end Parts

/-- A path on the host and names behind it that lead out of its tree are opened as the path is, and the
names one by one. The files that are found agree in everything but the numbers of their images, and of
the failures the first one counts. -/
theorem open_by_step (reached : desk.Reached) {path : String} {node : HostNode}
    (leads : desk.host.find? (HostPath.ofText path) = some node)
    (outside : desk.registry.generate? path = none) {children : List (String × String)}
    (are : ∀ child ∈ children, IsName child.1)
    (absent : ∀ child ∈ children.head?, node.member? child.1 = none) {label : String}
    (fresh : ∀ name ∈ label :: children.map Prod.snd, desk.file? name = none) (name : String) :
    (desk.openAt (String.intercalate "/" (path :: children.map Prod.fst)) name).1.map File.plain
      = (desk.openByStep path label children).1.map File.plain := by
  have here := open_of_find? leads outside
  have opened : desk.openAt path label = (.ok (File.ofHost desk.registry (HostPath.ofText path)),
      desk.keepFile label (File.ofHost desk.registry (HostPath.ofText path))) := by
    rw [openAt, access, here]
    rfl
  rw [openByStep, opened, openAt_fst]
  dsimp only
  cases children with
  | nil =>
    rw [List.map_nil, String.intercalate_singleton, here]
    rfl
  | cons pair children =>
    obtain ⟨first, kept⟩ := pair
    cases node with
    | directory members =>
      exact congrArg (Except.map File.plain)
        (open_by_step_of_directory outside are leads (absent _ rfl) _ rfl)
    | file content => exact open_by_step_of_file outside are reached.sound leads fresh

/-- A tape in the root directory of the host, and a desk where nothing was done yet. -/
def tapeDesk : Desk :=
  shared { root := .directory [("tape.t64", .file Tape.ofReversedFile)] } (.standard {})

/-- The only file of the tape, with its address and its size. -/
theorem open_by_step_of_tape :
    (tapeDesk.openAt "/tape.t64/A" "f").1.map File.plain
        = (tapeDesk.openByStep "/tape.t64" "t" [("A", "f")]).1.map File.plain ∧
      ((tapeDesk.openAt "/tape.t64/A" "f").1.map File.plain).toOption.map
        (fun file => (file.url, file.size tapeDesk.host)) = some ("/tape.t64/A", 5) := by
  have reached : tapeDesk.Reached := ⟨_, _, [], .inl rfl⟩
  have leads : tapeDesk.host.find? (HostPath.ofText "/tape.t64")
      = some (.file Tape.ofReversedFile) := rfl
  have outside : tapeDesk.registry.generate? "/tape.t64" = none := by decide +kernel
  have isName : IsName "A" := ⟨by decide, by decide, by decide, by decide⟩
  have same : _ = (tapeDesk.openByStep "/tape.t64" "t" [("A", "f")]).1.map File.plain :=
    open_by_step reached leads outside (by simpa using isName) (by simp [HostNode.member?])
      (fun _ _ => rfl) "f"
  refine ⟨same, ?_⟩
  have address : String.intercalate "/" ["/tape.t64", "A"] = "/tape.t64/A" := by decide
  rw [← address]
  change Option.map _ (Except.toOption (Except.map File.plain
    (tapeDesk.openAt (String.intercalate "/" ("/tape.t64" :: [("A", "f")].map Prod.fst)) "f").1)) = _
  rw [same, openByStep, openAt, access, open_of_find? leads outside]
  decide +kernel

end Desk
end RetroMedia
