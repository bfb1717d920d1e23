import RetroMedia.Proofs.Vfs.Requests

/-! Sharing. A desk whose broker lends the images that are held answers each request as though every
file opened its own image, just as long as no file is disputed. -/
namespace RetroMedia

open ImageStore (Tells)

namespace Desk

/-- The books of the desk's broker are in order. -/
def Sound (desk : Desk) : Prop := desk.store.Sound desk.held

variable {desk : Desk}

theorem tells_alive (desk : Desk) : Tells desk.alive desk.held := by
  intro id
  unfold alive held
  rw [Bool.or_eq_true, List.any_eq_true, List.any_eq_true]
  constructor
  · rintro (⟨⟨name, file⟩, kept, holds⟩ | ⟨⟨name, image⟩, kept, same⟩)
    · obtain ⟨image, member, same⟩ := (File.holds_iff file id).1 holds
      exact ⟨image, List.mem_append_left _ (List.mem_flatMap.2 ⟨_, kept, member⟩), same⟩
    · refine ⟨image, List.mem_append_right _ (List.mem_map.2 ⟨_, kept, rfl⟩), ?_⟩
      exact beq_iff_eq.1 same
  · rintro ⟨image, member, same⟩
    rcases List.mem_append.1 member with inFile | alone
    · obtain ⟨⟨name, file⟩, kept, here⟩ := List.mem_flatMap.1 inFile
      exact .inl ⟨_, kept, (File.holds_iff file id).2 ⟨image, here, same⟩⟩
    · obtain ⟨⟨name, image'⟩, kept, rfl⟩ := List.mem_map.1 alone
      exact .inr ⟨_, kept, beq_iff_eq.2 same⟩

theorem held_file {name : String} {file : File} (kept : desk.file? name = some file) :
    file.held ⊆ desk.held := by
  obtain ⟨⟨name', file'⟩, found, rfl⟩ := Option.map_eq_some_iff.1 kept
  intro image member
  apply List.mem_append_left
  exact List.mem_flatMap.2 ⟨_, List.mem_of_find?_eq_some found, member⟩

theorem file?_keepFile (desk : Desk) (name : String) (file : File) :
    (desk.keepFile name file).file? name = some file := by
  unfold file? keepFile
  dsimp only
  rw [List.find?_cons_of_pos (by simp)]
  rfl

theorem held_keepFile (desk : Desk) (name : String) (file : File) :
    (desk.keepFile name file).held ⊆ file.held ++ desk.held := by
  intro image member
  unfold held keepFile at member
  rw [List.flatMap_cons, List.append_assoc] at member
  rcases List.mem_append.1 member with new | old
  · exact List.mem_append_left _ new
  · apply List.mem_append_right
    rcases List.mem_append.1 old with inFile | alone
    · obtain ⟨pair, kept, here⟩ := List.mem_flatMap.1 inFile
      exact List.mem_append_left _ (List.mem_flatMap.2 ⟨pair, (List.mem_filter.1 kept).1, here⟩)
    · exact List.mem_append_right _ alone

theorem held_dropFile (desk : Desk) (name : String) : (desk.dropFile name).held ⊆ desk.held := by
  intro image member
  rcases List.mem_append.1 member with inFile | alone
  · obtain ⟨pair, kept, here⟩ := List.mem_flatMap.1 inFile
    exact List.mem_append_left _ (List.mem_flatMap.2 ⟨pair, (List.mem_filter.1 kept).1, here⟩)
  · exact List.mem_append_right _ alone

theorem held_releaseImage (desk : Desk) (name : String) :
    (desk.releaseImage name).2.held ⊆ desk.held := by
  intro image member
  rcases List.mem_append.1 member with inFile | alone
  · exact List.mem_append_left _ inFile
  · obtain ⟨pair, kept, rfl⟩ := List.mem_map.1 alone
    exact List.mem_append_right _ (List.mem_map.2 ⟨pair, (List.mem_filter.1 kept).1, rfl⟩)

theorem held_keepImage (desk : Desk) (name : String) (image : HeldImage) :
    (desk.keepImage name image).held ⊆ [image] ++ desk.held := by
  intro other member
  rcases List.mem_append.1 member with inFile | alone
  · exact List.mem_append_right _ (List.mem_append_left _ inFile)
  · obtain ⟨pair, kept, rfl⟩ := List.mem_map.1 alone
    rcases List.mem_cons.1 kept with rfl | earlier
    · exact List.mem_append_left _ (List.mem_singleton.2 rfl)
    · apply List.mem_append_right
      apply List.mem_append_right
      exact List.mem_map.2 ⟨pair, (List.mem_filter.1 earlier).1, rfl⟩

/-- What an access leaves on a desk. -/
theorem access_cases {action : Access α} {holds : α → List HeldImage} {view : α → β}
    {expected : Except Failure β}
    (law : Gives desk.held desk.store.broker.isSome holds view expected
      (action ⟨desk.host, desk.alive⟩ desk.store)) :
    (∃ failure store, expected = .error failure ∧
        desk.access action = (.error failure, { desk with store }) ∧ store.Sound desk.held ∧
        store.broker.isSome = desk.store.broker.isSome) ∨
      ∃ value store, expected = .ok (view value) ∧
        desk.access action = (.ok value, { desk with store }) ∧
        store.Sound (holds value ++ desk.held) ∧
        store.broker.isSome = desk.store.broker.isSome := by
  unfold access
  rcases law.cases with ⟨failure, store, step, failed, sound, kept⟩ |
    ⟨value, store, step, same, sound, kept⟩
  · rw [step]
    exact .inl ⟨failure, store, failed, rfl, sound, kept⟩
  · rw [step]
    exact .inr ⟨value, store, same, rfl, sound, kept⟩

/-- The outcome is the expected one, and the books are still in order. -/
structure Served (brokered : Bool) (expected outcome : Reply × Desk) : Prop where
  reply : outcome.1 = expected.1
  plain : outcome.2.plain = expected.2
  sound : outcome.2.Sound
  brokered : outcome.2.store.broker.isSome = brokered

section Bookkeeping

variable {store : ImageStore} {brokered : Bool} (kept : store.broker.isSome = brokered)
include kept

theorem served_untouched (sound : store.Sound desk.held) (reply : Reply) :
    Served brokered (reply, desk.plain) (reply, { desk with store }) :=
  ⟨rfl, rfl, sound, kept⟩

theorem served_keepFile {file : File} (sound : store.Sound (file.held ++ desk.held))
    (name : String) (reply : Reply) :
    Served brokered (reply, desk.plain.keepFile name file.plain)
      (reply, { desk with store }.keepFile name file) :=
  ⟨rfl, keepFile_plain _ name file, sound.mono (held_keepFile desk name file), kept⟩

theorem served_keepImage {image : HeldImage} (sound : store.Sound ([image] ++ desk.held))
    (name : String) (reply : Reply) :
    Served brokered (reply, desk.plain.keepImage name image.plain)
      (reply, { desk with store }.keepImage name image) :=
  ⟨rfl, keepImage_plain _ name image, sound.mono (held_keepImage desk name image), kept⟩

end Bookkeeping

theorem served_answered (sound : desk.Sound) (reply : α → Reply) (result : Except Failure α) :
    Served desk.store.broker.isSome (answered reply (result, desk.plain))
      (answered reply (result, desk)) := by
  cases result with
  | error failure => exact served_untouched rfl sound (.failure failure)
  | ok value => exact served_untouched rfl sound (reply value)

theorem served_asked {name : String} {answer expected : File → Reply × Desk} (sound : desk.Sound)
    (law : ∀ file, desk.file? name = some file →
      Served desk.store.broker.isSome (expected file.plain) (answer file)) :
    Served desk.store.broker.isSome (desk.plain.asked name expected) (desk.asked name answer) := by
  unfold asked
  rw [file?_plain]
  cases kept : desk.file? name with
  | none => exact served_untouched rfl sound .noSuchFile
  | some file => exact law file kept

theorem served_keeping {action : Access File} {expected : Except Failure File}
    (law : Gives desk.held desk.store.broker.isSome File.held .plain expected
      (action ⟨desk.host, desk.alive⟩ desk.store)) (name : String) :
    Served desk.store.broker.isSome (answered .file (keeping name (expected, desk.plain)))
      (answered (.file ·.plain) (keeping name (desk.access action))) := by
  rcases access_cases law with ⟨failure, store, failed, step, sound, kept⟩ |
    ⟨file, store, found, step, sound, kept⟩
  · rw [step, failed]
    exact served_untouched kept sound (.failure failure)
  · rw [step, found]
    exact served_keepFile kept sound name (.file file.plain)

theorem served_keepingImage {file : File} {expected : Except Failure Image}
    (law : Gives desk.held desk.store.broker.isSome (fun image => [image]) (·.image) expected
      (file.image ⟨desk.host, desk.alive⟩ desk.store)) (name : Option String)
    (view : Image → Reply) :
    Served desk.store.broker.isSome (answered view (keepingImage name (expected, desk.plain)))
      (answered (fun held => view held.image) (desk.imageOf file name)) := by
  unfold imageOf
  rcases access_cases law with ⟨failure, store, failed, step, sound, kept⟩ |
    ⟨image, store, opened, step, sound, kept⟩
  · rw [step, failed]
    exact served_untouched kept sound (.failure failure)
  · rw [step, opened]
    cases name with
    | none => exact served_untouched kept (sound.mono (List.subset_append_right _ _)) _
    | some name => exact served_keepImage kept sound name (view image.image)

theorem Sound.file (sound : desk.Sound) {name : String} {file : File}
    (kept : desk.file? name = some file) : desk.store.Sound (file.held ++ desk.held) :=
  ImageStore.Sound.mono sound (List.append_subset.2 ⟨held_file kept, List.Subset.refl _⟩)

theorem served_nextOf {file known : File} (law : Gives desk.held desk.store.broker.isSome File.steppedHeld
      (fun outcome => (outcome.1.map (Option.map .plain), outcome.2.plain))
      (.ok (known.ownNext desk.host)) (file.next ⟨desk.host, desk.alive⟩ desk.store))
    (directory name : String) :
    Served desk.store.broker.isSome (desk.plain.expectNext directory known name)
      (answered .next (desk.nextOf directory file name)) := by
  unfold nextOf expectNext
  rcases access_cases law with ⟨failure, store, never, _⟩ |
    ⟨⟨result, listed⟩, store, same, step, sound, kept⟩
  · cases never
  · have begun : known.ownNext desk.plain.host = (result.map (Option.map .plain), listed.plain) :=
      Except.ok.inj same
    rw [step, begun]
    have less : listed.held ++ desk.held ⊆ File.steppedHeld (result, listed) ++ desk.held := by
      apply List.append_subset.2
      refine ⟨?_, List.subset_append_right _ _⟩
      exact List.Subset.trans (List.subset_append_right _ _) (List.subset_append_left _ _)
    rcases result with failure | (_ | found)
    · exact served_keepFile kept (sound.mono less) directory (.failure failure)
    · exact served_keepFile kept (sound.mono less) directory .ended
    · have both : ImageStore.Sound store
          (found.held ++ ({ desk with store }.keepFile directory listed).held) := by
        apply sound.mono
        rw [File.steppedHeld, List.append_assoc]
        apply List.append_subset.2
        refine ⟨List.subset_append_left _ _, ?_⟩
        apply List.Subset.trans (held_keepFile _ directory listed)
        exact List.subset_append_right _ _
      have onward := served_keepFile kept both name (.file found.plain)
      rw [keepFile_plain] at onward
      exact onward

theorem served_listOf {file known : File} (law : Gives desk.held desk.store.broker.isSome
      (fun outcome => outcome.2.held)
      (fun outcome => ((outcome.1.1.map .plain, outcome.1.2), outcome.2.plain))
      (.ok (known.ownList desk.host)) (file.list ⟨desk.host, desk.alive⟩ desk.store))
    (directory : String) :
    Served desk.store.broker.isSome (desk.plain.expectList directory known)
      (listed (desk.listOf directory file)) := by
  unfold listOf expectList
  rcases access_cases law with ⟨failure, store, never, _⟩ |
    ⟨⟨⟨files, failure⟩, after⟩, store, same, step, sound, kept⟩
  · cases never
  · have begun : known.ownList desk.plain.host = ((files.map .plain, failure), after.plain) :=
      Except.ok.inj same
    rw [step, begun]
    exact served_keepFile kept sound directory (.files (files.map .plain) failure)

theorem served_imageOf {file : String} (sound : desk.Sound)
    (trusted : desk.store.broker.isSome = true → desk.Trusts file) (name : Option String)
    (view : Image → Reply) :
    Served desk.store.broker.isSome
      (desk.plain.asked file fun file =>
        answered view (keepingImage name (file.own desk.host, desk.plain)))
      (desk.asked file fun file =>
        answered (fun held => view held.image) (desk.imageOf file name)) := by
  apply served_asked sound
  intro file kept
  rw [File.own_plain]
  apply served_keepingImage
  have law := File.image_gives (sound.file kept) (tells_alive desk) fun lends =>
    trusted lends file kept
  exact law.fewer (List.subset_append_right _ _)

/-- A request that disputes no file is answered as though every file opened its own image. -/
theorem serve_expected (sound : desk.Sound) {request : Request}
    (clear : desk.store.broker.isSome = true → desk.Undisputed request) :
    Served desk.store.broker.isSome (desk.plain.expect request) (desk.serve request) := by
  have tells := tells_alive desk
  cases request with
  | openAt address name => exact served_keeping (Registry.open_gives sound tells address clear) name
  | childOf of child name =>
    apply served_asked sound
    intro file kept
    have law := File.child_gives (sound.file kept) tells (fun brokered => clear brokered file kept) child
    rw [← File.ownChild_plain] at law
    exact served_keeping law name
  | nextOf directory name =>
    apply served_asked sound
    intro file kept
    have law := File.next_gives (sound.file kept) tells fun brokered => clear brokered file kept
    rw [← File.ownNext_plain] at law
    exact served_nextOf law directory name
  | listOf directory =>
    apply served_asked sound
    intro file kept
    have law := File.list_gives (sound.file kept) tells fun brokered => clear brokered file kept
    rw [← File.ownList_plain] at law
    exact served_listOf law directory
  | imageOf file name => exact served_imageOf sound clear name .image
  | streamOf file => exact served_imageOf sound clear none fun image => .stream { image }
  | formatOf file => exact served_imageOf sound clear none fun image => .format image.handler.format
  | readerOf of =>
    apply served_asked sound
    intro file kept
    rw [File.reader_plain]
    exact served_answered sound .reader (file.reader desk.host)
  | containerOf of =>
    apply served_asked sound
    intro file kept
    rw [File.container_plain]
    exact served_answered sound .container (file.container desk.host)
  | dropFile name =>
    exact ⟨rfl, dropFile_plain desk name, ImageStore.Sound.mono sound (held_dropFile desk name), rfl⟩
  | releaseImage name =>
    have view := releaseImage_plain desk name
    refine ⟨?_, ?_, ImageStore.Sound.mono sound (held_releaseImage desk name), rfl⟩
    · exact congrArg (fun outcome => Reply.released outcome.1) view.symm
    · exact congrArg Prod.snd view.symm

theorem sound_of_free (free : desk.store.broker.isSome = false) : desk.Sound := by
  refine ⟨?_, ?_, ?_⟩ <;>
  · intro broker same
    rw [same] at free
    cases free

/-- Without a broker every file opens its own image, disputed or not. -/
theorem expected_of_free (free : desk.store.broker.isSome = false) (request : Request) :
    Served false (desk.plain.expect request) (desk.serve request) := by
  rw [← free]
  apply serve_expected (sound_of_free free)
  intro lends
  rw [free] at lends
  cases lends

section ImageRequests

variable {file : String} {found : File} (kept : desk.file? file = some found)
include kept

theorem serve_imageOf (name : Option String) :
    desk.serve (.imageOf file name) = answered (.image ·.image) (desk.imageOf found name) := by
  change desk.asked file _ = _
  rw [asked, kept]

theorem expect_imageOf (name : Option String) :
    desk.expect (.imageOf file name)
      = answered .image (keepingImage name (found.own desk.host, desk)) := by
  change desk.asked file _ = _
  rw [asked, kept]

end ImageRequests

/-- Two desks that differ only in the numbers of their images, only the first with a broker. -/
structure Alike (desk bare : Desk) : Prop where
  view : desk.plain = bare.plain
  sound : desk.Sound
  lends : desk.store.broker.isSome = true
  free : bare.store.broker.isSome = false

namespace Alike

variable {desk bare : Desk} (alike : Alike desk bare)
include alike

theorem undisputed_iff {request : Request} :
    desk.Undisputed request ↔ bare.Undisputed request := by
  rw [← undisputed_plain_iff, alike.view, undisputed_plain_iff]

/-- A request that disputes no file gets the same answer from both desks. -/
theorem serve {request : Request} (clear : bare.Undisputed request) :
    (desk.serve request).1 = (bare.serve request).1 ∧
      Alike (desk.serve request).2 (bare.serve request).2 := by
  have shared := serve_expected alike.sound fun _ => alike.undisputed_iff.2 clear
  have alone := expected_of_free alike.free request
  rw [← alike.view] at alone
  refine ⟨shared.reply.trans alone.reply.symm, ?_⟩
  refine ⟨shared.plain.trans alone.plain.symm, shared.sound, ?_, alone.brokered⟩
  rw [shared.brokered]
  exact alike.lends

/-- Both desks find the same image just if the file is undisputed. -/
theorem image_iff (file : String) (name : Option String) :
    (desk.serve (.imageOf file name)).1 = (bare.serve (.imageOf file name)).1 ↔
      bare.Undisputed (.imageOf file name) := by
  constructor
  · intro same
    apply alike.undisputed_iff.1
    intro found kept
    obtain ⟨broker, lends⟩ := Option.isSome_iff_exists.1 alike.lends
    apply File.undisputed_of_image (alike.sound.file kept) (tells_alive desk) lends
    intro image after step
    have answer : (desk.serve (.imageOf file name)).1 = .image image.image := by
      rw [serve_imageOf kept, imageOf, access, step]
      rfl
    have plainly : desk.plain.file? file = some found.plain := by
      rw [file?_plain, kept]
      rfl
    have alone := (expected_of_free alike.free (.imageOf file name)).reply
    rw [← same, answer, ← alike.view, expect_imageOf plainly, File.own_plain] at alone
    change found.own desk.plain.host = _
    cases opened : found.own desk.plain.host with
    | error failure =>
      rw [opened] at alone
      cases alone
    | ok image' =>
      rw [opened] at alone
      cases alone
      rfl
  · intro clear
    exact (alike.serve clear).1

end Alike

theorem run_cons (desk : Desk) (request : Request) (requests : List Request) :
    desk.run (request :: requests)
      = ((desk.serve request).1 :: ((desk.serve request).2.run requests).1,
          ((desk.serve request).2.run requests).2) := rfl

theorem Alike.run {desk bare : Desk} (alike : Alike desk bare) {requests : List Request}
    (clear : bare.Clear requests) :
    (desk.run requests).1 = (bare.run requests).1 ∧
      Alike (desk.run requests).2 (bare.run requests).2 := by
  induction requests generalizing desk bare with
  | nil => exact ⟨rfl, alike⟩
  | cons request requests ih =>
    obtain ⟨here, later⟩ := clear
    obtain ⟨same, onward⟩ := alike.serve here
    obtain ⟨rest, last⟩ := ih onward later
    refine ⟨?_, last⟩
    rw [run_cons, run_cons, same, rest]

/-- Of the first disputed file, another image is found with sharing than without. -/
theorem Alike.clear_of_run {desk bare : Desk} (alike : Alike desk bare) {requests : List Request}
    (probing : bare.Probing requests) (same : (desk.run requests).1 = (bare.run requests).1) :
    bare.Clear requests := by
  induction requests generalizing desk bare with
  | nil => trivial
  | cons request requests ih =>
    rw [run_cons, run_cons] at same
    obtain ⟨first, rest⟩ := List.cons.inj same
    obtain ⟨known, later⟩ := probing
    have here : bare.Undisputed request := by
      rcases known with clear | ⟨file, name, rfl⟩
      · exact clear
      · exact (alike.image_iff file name).1 first
    refine ⟨here, ?_⟩
    exact ih (alike.serve here).2 (later here) rest

/-- A desk with a new broker. -/
def shared (host : Host) (registry : Registry) : Desk :=
  { host, registry, store := { broker := some {} } }

def unshared (host : Host) (registry : Registry) : Desk :=
  { host, registry, store := { broker := none } }

theorem alike_start (host : Host) (registry : Registry) :
    Alike (shared host registry) (unshared host registry) := by
  refine ⟨rfl, ?_, rfl, rfl⟩
  exact ImageStore.sound_fresh _ fun books same => (Option.some.inj same).symm

section SingleFile

/-- To ask for the image of a file does not make the file disputed. -/
theorem trusts_imageOf {file : String} (free : desk.store.broker.isSome = false)
    (trusted : desk.Trusts file) (name : Option String) :
    (desk.serve (.imageOf file name)).2.Trusts file := by
  rw [← trusts_plain_iff, (expected_of_free free (.imageOf file name)).plain]
  have trusted := trusts_plain_iff.2 trusted
  cases kept : desk.plain.file? file with
  | none =>
    change (desk.plain.asked file _).2.Trusts file
    rw [asked, kept]
    exact trusted
  | some known =>
    rw [expect_imageOf kept]
    cases opened : known.own desk.plain.host with
    | error failure => exact trusted
    | ok image =>
      cases name with
      | none => exact trusted
      | some name =>
        intro known' kept' claims image' member address
        have same : known' = known := Option.some.inj (kept'.symm.trans kept)
        subst same
        by_cases new : image' = image
        · rw [new]
          exact opened
        · apply trusted known' kept claims image' _ address
          rcases List.mem_append.1 member with own | other
          · exact List.mem_append_left _ own
          · apply List.mem_append_right
            obtain ⟨holder, there, rfl⟩ := List.mem_map.1 other
            rcases List.mem_append.1 (held_keepImage _ _ _ there) with here | before
            · cases List.mem_singleton.1 here
              exact absurd rfl new
            · exact List.mem_map_of_mem before

theorem clear_imageOf {file : String} (names : List (Option String))
    (free : desk.store.broker.isSome = false) (trusted : desk.Trusts file) :
    desk.Clear (names.map (.imageOf file)) := by
  induction names generalizing desk with
  | nil => trivial
  | cons name names ih =>
    refine ⟨trusted, ?_⟩
    exact ih (expected_of_free free _).brokered (trusts_imageOf free trusted name)

/-- Whoever opens a single address may ask for its image as often as he likes. -/
theorem clear_of_inline {host : Host} {registry : Registry} {address : String}
    (inline : (registry.generate? address).isSome = true) (file : String)
    (names : List (Option String)) :
    (unshared host registry).Clear (.openAt address file :: names.map (.imageOf file)) := by
  have served : Served false _ ((unshared host registry).serve (.openAt address file)) :=
    expected_of_free rfl _
  refine ⟨?_, clear_imageOf names served.brokered ?_⟩
  · intro outer
    change registry.generate? address = none at outer
    rw [outer] at inline
    cases inline
  · rw [← trusts_plain_iff, served.plain]
    obtain ⟨⟨system, content⟩, generated⟩ := Option.isSome_iff_exists.1 inline
    change (answered .file (keeping file (registry.ownOpen host address, _))).2.Trusts file
    unfold Registry.ownOpen
    rw [generated]
    cases content with
    | error failure =>
      intro found never
      cases never
    | ok content =>
      intro found kept claims image member
      have same := (file?_keepFile _ file _).symm.trans kept
      cases same
      cases member

end SingleFile

/-- As long as no file is disputed, nobody notices that images are shared. Whoever asks for the image
of the first disputed file notices it. -/
theorem sharing_invisible (host : Host) (registry : Registry) (requests : List Request) :
    ((unshared host registry).Clear requests →
        ((shared host registry).run requests).1 = ((unshared host registry).run requests).1) ∧
      ((unshared host registry).Probing requests →
        ((shared host registry).run requests).1 = ((unshared host registry).run requests).1 →
          (unshared host registry).Clear requests) := by
  have alike := alike_start host registry
  constructor
  · intro clear
    exact (alike.run clear).1
  · intro probing same
    exact alike.clear_of_run probing same

/-- The image of one address is opened once and lent twice. -/
theorem sharing_invisible_of_inline :
    let requests := .openAt "json:[1]" "r" :: [some "i", some "j", none].map (.imageOf "r")
    (unshared {} (.standard {})).Clear requests ∧ (unshared {} (.standard {})).Probing requests ∧
      ((shared {} (.standard {})).run requests).1 = ((unshared {} (.standard {})).run requests).1 := by
  intro requests
  have clear : (unshared {} (.standard {})).Clear requests :=
    clear_of_inline (by decide +kernel) "r" [some "i", some "j", none]
  have invisible := sharing_invisible {} (.standard {}) requests
  have same := invisible.1 clear
  exact ⟨invisible.2 clear.probing same, clear.probing, same⟩

/-- The names in the directory of an image that was asked for. -/
def Reply.names : Reply → List String
  | .image found =>
    match Checkout.entries { image := found } with
    | .ok table _ => table.map (·.name)
    | .error _ _ => []
  | _ => []

/-- The directory `b` inside of `a`, and the directory `a/b` next to it, have one address. -/
def collision : List Request :=
  [.openAt "json:\x7b\"a\":\x7b\"b\":\x7b\"x\":1\x7d\x7d,\"a/b\":\x7b\"y\":2\x7d\x7d" "r",
    .childOf "r" "a" "p", .childOf "p" "b" "f", .imageOf "f" (some "i"), .childOf "r" "a/b" "g",
    .imageOf "g" none]

theorem sharing_shows :
    ((shared {} (Registry.standard {})).run collision).1
        ≠ ((unshared {} (Registry.standard {})).run collision).1 ∧
      ((shared {} (Registry.standard {})).run collision).1.map Reply.names
        = [[], [], [], ["x"], [], ["x"]] ∧
      ((unshared {} (Registry.standard {})).run collision).1.map Reply.names
        = [[], [], [], ["x"], [], ["y"]] := by
  have names : ((shared {} (Registry.standard {})).run collision).1.map Reply.names
        = [[], [], [], ["x"], [], ["x"]] ∧
      ((unshared {} (Registry.standard {})).run collision).1.map Reply.names
        = [[], [], [], ["x"], [], ["y"]] := by
    decide +kernel
  refine ⟨?_, names⟩
  intro same
  rw [same, names.2] at names
  exact absurd names.1 (by decide)

end Desk
end RetroMedia
