import RetroMedia.Proofs.Vfs.Sharing

/-! The books stay in order whatever is asked of a desk, also where files are disputed: what is held
stays lent under its own address. -/
namespace RetroMedia

open ImageStore (Tells)

variable {α β : Type} {held : List HeldImage}

/-- The store is in order after an operation, for whoever goes on to hold what it came to. -/
def Keeps (held : List HeldImage) (holds : α → List HeldImage) :
    EStateM.Result Failure ImageStore α → Prop
  | .ok value store => store.Sound (holds value ++ held)
  | .error _ store => store.Sound held

theorem Keeps.fewer {holds : α → List HeldImage} {outcome : EStateM.Result Failure ImageStore α}
    (keeps : Keeps held holds outcome) {fewer : List HeldImage} (less : fewer ⊆ held) :
    Keeps fewer holds outcome := by
  cases outcome with
  | error failure store => exact ImageStore.Sound.mono keeps less
  | ok value store =>
    apply ImageStore.Sound.mono keeps
    apply List.append_subset.2
    exact ⟨List.subset_append_left _ _, List.Subset.trans less (List.subset_append_right _ _)⟩

namespace File

variable {file : File} {host : Host} {store : ImageStore} {alive : ImageId → Bool}

theorem image_keeps (sound : store.Sound (file.held ++ held)) (tells : Tells alive held) :
    Keeps (file.held ++ held) (fun image => [image]) (file.image ⟨host, alive⟩ store) := by
  cases claimed : file.system? host with
  | none =>
    rw [image_of_none claimed]
    exact sound
  | some system =>
    rw [image_of_some claimed]
    rcases sound.obtain_cases (tells_holds tells file) (fun _ => file.own host)
        fun image opened => url_of_own opened with
      ⟨image, member, _, _, step⟩ | ⟨_, ⟨failure, _, step⟩ | ⟨id, image, after, _, step, onward, _⟩⟩
    · rw [step]
      exact sound.mono (List.cons_subset.2 ⟨member, List.Subset.refl _⟩)
    · rw [step]
      exact sound
    · rw [step]
      exact onward

theorem child_keeps (sound : store.Sound (file.held ++ held)) (tells : Tells alive held)
    (name : String) : Keeps held File.held (file.child name ⟨host, alive⟩ store) := by
  have bare := sound.mono (List.subset_append_right file.held held)
  cases inside : file.isHostDirectory host with
  | true =>
    obtain ⟨path, node⟩ := exists_path inside
    rw [child_of_directory node inside]
    split <;> exact bare
  | false =>
    have keeps : Keeps held _ (file.image ⟨host, alive⟩ store) :=
      (image_keeps sound tells).fewer (List.subset_append_right _ _)
    rw [child_of_container inside]
    cases step : file.image ⟨host, alive⟩ store with
    | error failure after =>
      rw [step] at keeps
      exact keeps
    | ok image after =>
      rw [step] at keeps
      dsimp only
      split
      · exact keeps
      · exact ImageStore.Sound.mono keeps (List.subset_append_right _ _)

theorem descend_keeps (sound : store.Sound (file.held ++ held)) (tells : Tells alive held)
    (names : List String) : Keeps held File.held (file.descend names ⟨host, alive⟩ store) := by
  induction names generalizing file store with
  | nil => exact sound
  | cons name names ih =>
    have keeps : Keeps _ _ (file.child name ⟨host, alive⟩ store) := child_keeps sound tells name
    rw [descend_cons]
    cases step : file.child name ⟨host, alive⟩ store with
    | error failure after =>
      rw [step] at keeps
      exact keeps
    | ok inner after =>
      rw [step] at keeps
      exact ih keeps

theorem begun_keeps (sound : store.Sound (file.held ++ held)) (tells : Tells alive held) :
    Keeps (file.held ++ held) FileListing.held (file.begun ⟨host, alive⟩ store) := by
  unfold begun
  cases going : file.listing with
  | some listing =>
    apply ImageStore.Sound.mono sound
    apply List.append_subset.2
    refine ⟨?_, List.Subset.refl _⟩
    intro image member
    apply List.mem_append_left
    apply List.mem_append_right
    rw [going]
    exact member
  | none =>
    cases inside : file.isHostDirectory host with
    | true =>
      obtain ⟨path, node⟩ := exists_path inside
      rw [startListing_of_directory node inside]
      exact sound
    | false =>
      have keeps : Keeps _ _ (file.image ⟨host, alive⟩ store) := image_keeps sound tells
      rw [startListing_of_container inside]
      cases step : file.image ⟨host, alive⟩ store with
      | error failure after =>
        rw [step] at keeps
        exact keeps
      | ok image after =>
        rw [step] at keeps
        exact keeps

theorem held_ended_subset (file : File) : { file with listing := none }.held ⊆ file.held := by
  rw [held_ended]
  exact node_held_subset file

theorem next_keeps (sound : store.Sound (file.held ++ held)) (tells : Tells alive held) :
    Keeps held steppedHeld (file.next ⟨host, alive⟩ store) := by
  have keeps : Keeps _ _ (file.begun ⟨host, alive⟩ store) := begun_keeps sound tells
  rw [next_eq]
  cases step : file.begun ⟨host, alive⟩ store with
  | error failure after =>
    rw [step] at keeps
    apply ImageStore.Sound.mono_left keeps
    exact List.Subset.trans (held_ended_subset file) (List.subset_append_left _ _)
  | ok listing after =>
    rw [step] at keeps
    have keeps : after.Sound ((listing.held ++ file.held) ++ held) := by
      rw [List.append_assoc]
      exact keeps
    apply ImageStore.Sound.mono_left keeps
    exact List.Subset.trans (stepped_held listing) (List.subset_append_left _ _)

theorem list_keeps (sound : store.Sound (file.held ++ held)) (tells : Tells alive held) :
    Keeps held (fun outcome => outcome.2.held) (file.list ⟨host, alive⟩ store) := by
  have keeps : Keeps _ _ (file.begun ⟨host, alive⟩ store) := begun_keeps sound tells
  have less := List.Subset.trans (held_ended_subset file) (List.subset_append_left file.held held)
  rw [list_eq]
  cases step : file.begun ⟨host, alive⟩ store with
  | error failure after =>
    rw [step] at keeps
    exact ImageStore.Sound.mono_left keeps less
  | ok listing after =>
    rw [step] at keeps
    exact (ImageStore.Sound.mono keeps (List.subset_append_right _ _)).mono_left less

end File

theorem Registry.open_keeps {registry : Registry} {host : Host} {store : ImageStore}
    {alive : ImageId → Bool} (sound : store.Sound held) (tells : Tells alive held)
    (address : String) : Keeps held File.held (registry.open address ⟨host, alive⟩ store) := by
  rw [open_eq]
  rcases registry.generate? address with _ | ⟨system, failure | content⟩
  · dsimp only
    cases host.existingPart (HostPath.ofText address) [] with
    | none => exact sound
    | some part =>
      obtain ⟨path, names⟩ := part
      exact File.descend_keeps sound tells names
  · exact sound
  · exact sound

namespace Desk

variable {desk : Desk}

theorem access_keeps {action : Access α} {holds : α → List HeldImage}
    (keeps : Keeps desk.held holds (action ⟨desk.host, desk.alive⟩ desk.store)) :
    (∃ failure store, desk.access action = (.error failure, { desk with store }) ∧
        store.Sound desk.held) ∨
      ∃ value store, desk.access action = (.ok value, { desk with store }) ∧
        store.Sound (holds value ++ desk.held) := by
  unfold access
  cases step : action ⟨desk.host, desk.alive⟩ desk.store with
  | error failure store =>
    rw [step] at keeps
    exact .inl ⟨failure, store, rfl, keeps⟩
  | ok value store =>
    rw [step] at keeps
    exact .inr ⟨value, store, rfl, keeps⟩

theorem sound_keepFile {file : File} {store : ImageStore} (sound : store.Sound (file.held ++ desk.held))
    (name : String) : ({ desk with store }.keepFile name file).Sound :=
  sound.mono (held_keepFile { desk with store } name file)

theorem sound_answered (reply : α → Reply) {outcome : Except Failure α × Desk}
    (sound : outcome.2.Sound) : (answered reply outcome).2.Sound := by
  rcases outcome with ⟨failure | value, desk⟩ <;> exact sound

theorem sound_asked (sound : desk.Sound) {name : String} {answer : File → Reply × Desk}
    (law : ∀ file, desk.file? name = some file → (answer file).2.Sound) :
    (desk.asked name answer).2.Sound := by
  unfold asked
  cases kept : desk.file? name with
  | none => exact sound
  | some file => exact law file kept

theorem sound_keeping {action : Access File}
    (keeps : Keeps desk.held File.held (action ⟨desk.host, desk.alive⟩ desk.store)) (name : String) :
    (keeping name (desk.access action)).2.Sound := by
  rcases access_keeps keeps with ⟨failure, store, step, sound⟩ | ⟨file, store, step, sound⟩
  · rw [step]
    exact sound
  · rw [step]
    exact sound_keepFile sound name

section Files

variable {file : File} (known : desk.store.Sound (file.held ++ desk.held))
include known

theorem sound_imageOf (name : Option String) : (desk.imageOf file name).2.Sound := by
  have keeps : Keeps desk.held _ (file.image ⟨desk.host, desk.alive⟩ desk.store) :=
    (File.image_keeps known (tells_alive desk)).fewer (List.subset_append_right _ _)
  unfold imageOf
  rcases access_keeps keeps with ⟨failure, store, step, sound⟩ | ⟨image, store, step, sound⟩
  · rw [step]
    exact sound
  · rw [step]
    cases name with
    | none => exact sound.mono (List.subset_append_right _ _)
    | some name => exact sound.mono (held_keepImage { desk with store } name image)

theorem sound_nextOf (directory name : String) : (desk.nextOf directory file name).2.Sound := by
  unfold nextOf
  rcases access_keeps (File.next_keeps known (tells_alive desk)) with
    ⟨failure, store, step, sound⟩ | ⟨⟨result, listed⟩, store, step, sound⟩
  · rw [step]
    exact sound
  · rw [step]
    unfold File.steppedHeld at sound
    rw [List.append_assoc] at sound
    have onward : store.Sound (listed.held ++ desk.held) := sound.mono (List.subset_append_right _ _)
    rcases result with failure | (_ | found)
    · exact sound_keepFile onward directory
    · exact sound_keepFile onward directory
    · have both : store.Sound
          (found.held ++ ({ desk with store }.keepFile directory listed).held) := by
        apply sound.mono
        apply List.append_subset.2
        refine ⟨List.subset_append_left _ _, ?_⟩
        apply List.Subset.trans (held_keepFile _ directory listed)
        exact List.subset_append_right _ _
      exact both.mono (held_keepFile _ name found)

theorem sound_listOf (directory : String) : (desk.listOf directory file).2.Sound := by
  unfold listOf
  rcases access_keeps (File.list_keeps known (tells_alive desk)) with
    ⟨failure, store, step, sound⟩ | ⟨⟨result, listed⟩, store, step, sound⟩
  · rw [step]
    exact sound
  · rw [step]
    exact sound_keepFile sound directory

end Files

/-- No request puts the books of a desk in disorder. -/
theorem Sound.serve (sound : desk.Sound) (request : Request) : (desk.serve request).2.Sound := by
  have tells := tells_alive desk
  cases request with
  | openAt address name =>
    exact sound_answered _ (sound_keeping (Registry.open_keeps sound tells address) name)
  | childOf of child name =>
    apply sound_asked sound
    intro file kept
    exact sound_answered _ (sound_keeping (File.child_keeps (sound.file kept) tells child) name)
  | nextOf directory name =>
    apply sound_asked sound
    intro file kept
    exact sound_answered _ (sound_nextOf (sound.file kept) directory name)
  | listOf directory =>
    apply sound_asked sound
    intro file kept
    exact sound_listOf (sound.file kept) directory
  | imageOf of name =>
    apply sound_asked sound
    intro file kept
    exact sound_answered _ (sound_imageOf (sound.file kept) name)
  | streamOf of | formatOf of =>
    apply sound_asked sound
    intro file kept
    exact sound_answered _ (sound_imageOf (sound.file kept) none)
  | readerOf of | containerOf of =>
    apply sound_asked sound
    intro file _
    exact sound_answered _ sound
  | dropFile name => exact ImageStore.Sound.mono sound (held_dropFile desk name)
  | releaseImage name => exact ImageStore.Sound.mono sound (held_releaseImage desk name)

/-- The books of a desk are in order after any requests in a row. -/
theorem Sound.run (sound : desk.Sound) (requests : List Request) : (desk.run requests).2.Sound := by
  induction requests generalizing desk with
  | nil => exact sound
  | cons request requests ih => exact ih (sound.serve request)

end Desk
end RetroMedia
