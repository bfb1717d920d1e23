import RetroMedia.Proofs.Vfs.Plain

/-! Directories and addresses. Listing a directory and opening an address, too, come to what they come
to without a broker, where no file on the way is disputed. -/
namespace RetroMedia

open ImageStore (Tells)

namespace File

/-- The listing that the directory goes on with, or a new one. -/
def begun (file : File) : Access FileListing := fun surroundings store =>
  match file.listing with
  | some listing => .ok listing store
  | none => file.startListing surroundings store

def ownBegun (file : File) (host : Host) : Except Failure FileListing :=
  match file.listing with
  | some listing => .ok listing.plain
  | none => file.ownListing host

/-- The next file of a listing, if it could be begun, and the directory afterwards. -/
def stepped (file : File) : Except Failure FileListing → Except Failure (Option File) × File
  | .error failure => (.error failure, { file with listing := none })
  | .ok listing =>
    match file.advance listing with
    | .error error => (.error (.media error), { file with listing := none })
    | .ok none => (.ok none, { file with listing := none })
    | .ok (some (found, rest)) => (.ok (some found), { file with listing := some rest })

/-- All files of a listing, if it could be begun, and the directory afterwards. -/
def collected (file : File) : Except Failure FileListing → (List File × Option Failure) × File
  | .error failure => (([], some failure), { file with listing := none })
  | .ok listing =>
    let (found, failure) := file.rest (listingSize listing + 1) listing
    ((found, failure.map .media), { file with listing := none })

def ownNext (file : File) (host : Host) : Except Failure (Option File) × File :=
  file.plain.stepped (file.ownBegun host)

def ownList (file : File) (host : Host) : (List File × Option Failure) × File :=
  file.plain.collected (file.ownBegun host)

variable {file : File} {host : Host} {held : List HeldImage} {store : ImageStore}
  {alive : ImageId → Bool}

theorem ownBegun_plain : file.plain.ownBegun host = file.ownBegun host := by
  unfold ownBegun
  rw [ownListing_plain]
  obtain ⟨registry, url, name, node, listing⟩ := file
  rcases listing with _ | (paths | ⟨held, checkout⟩) <;> rfl

theorem plain_plain (file : File) : file.plain.plain = file.plain := by
  obtain ⟨registry, url, name, node, listing⟩ := file
  cases node <;> rcases listing with _ | (paths | ⟨held, checkout⟩) <;> rfl

theorem ownNext_plain : file.plain.ownNext host = file.ownNext host := by
  unfold ownNext
  rw [ownBegun_plain, plain_plain]

theorem ownList_plain : file.plain.ownList host = file.ownList host := by
  unfold ownList
  rw [ownBegun_plain, plain_plain]

/-- A step of a listing has nothing to do with the numbers of images. -/
theorem advance_plain (file : File) (listing : FileListing) :
    file.plain.advance listing.plain
      = (file.advance listing).map (Option.map fun (found, rest) => (found.plain, rest.plain)) := by
  cases listing with
  | host paths => cases paths <;> rfl
  | image held checkout =>
    change file.plain.advance (.image held.plain checkout) = _
    unfold advance
    dsimp only
    rcases Checkout.nextEntry checkout with ⟨_ | entry, after⟩ | ⟨error, after⟩ <;> rfl

theorem rest_plain (file : File) (count : Nat) (listing : FileListing) :
    file.plain.rest count listing.plain
      = ((file.rest count listing).1.map plain, (file.rest count listing).2) := by
  induction count generalizing listing with
  | zero => rfl
  | succ count ih =>
    unfold rest
    rw [advance_plain]
    cases file.advance listing with
    | error error => rfl
    | ok step =>
      rcases step with _ | ⟨found, rest⟩
      · rfl
      · dsimp only [Except.map, Option.map]
        rw [ih]
        rfl

theorem listingSize_plain (listing : FileListing) :
    listingSize listing.plain = listingSize listing := by
  cases listing <;> rfl

theorem stepped_plain (file : File) (begun : Except Failure FileListing) :
    file.plain.stepped (begun.map .plain)
      = ((file.stepped begun).1.map (Option.map plain), (file.stepped begun).2.plain) := by
  cases begun with
  | error failure => rfl
  | ok listing =>
    unfold stepped
    dsimp only [Except.map]
    rw [advance_plain]
    rcases file.advance listing with error | (_ | ⟨found, rest⟩) <;> rfl

theorem collected_plain (file : File) (begun : Except Failure FileListing) :
    file.plain.collected (begun.map .plain)
      = (((file.collected begun).1.1.map plain, (file.collected begun).1.2),
          (file.collected begun).2.plain) := by
  cases begun with
  | error failure => rfl
  | ok listing =>
    unfold collected
    dsimp only [Except.map]
    rw [rest_plain, listingSize_plain]
    rfl

theorem held_ended (file : File) : { file with listing := none }.held = file.node.held :=
  List.append_nil _

theorem node_held_subset (file : File) : file.node.held ⊆ file.held :=
  List.subset_append_left _ _

/-- A step of a listing holds on to no other images than the listing. -/
theorem held_of_advance {listing rest : FileListing} {found : File}
    (step : file.advance listing = .ok (some (found, rest))) :
    found.held ⊆ listing.held ∧ rest.held ⊆ listing.held := by
  cases listing with
  | host paths =>
    cases paths with
    | nil => cases step
    | cons path paths =>
      cases step
      exact ⟨List.nil_subset _, List.nil_subset _⟩
  | image held checkout =>
    unfold advance at step
    dsimp only at step
    split at step
    · cases step
      exact ⟨List.Subset.refl _, List.Subset.refl _⟩
    · cases step
    · cases step

/-- What a step of a listing leaves to hold on to. -/
def steppedHeld (outcome : Except Failure (Option File) × File) : List HeldImage :=
  (match outcome.1 with
    | .ok (some found) => found.held
    | _ => []) ++ outcome.2.held

theorem stepped_held (listing : FileListing) :
    steppedHeld (file.stepped (.ok listing)) ⊆ listing.held ++ file.held := by
  have less : file.node.held ⊆ listing.held ++ file.held :=
    List.Subset.trans (node_held_subset file) (List.subset_append_right _ _)
  unfold stepped
  dsimp only
  split
  · rw [steppedHeld, held_ended]
    exact less
  · rw [steppedHeld, held_ended]
    exact less
  · rename_i found rest step
    obtain ⟨first, others⟩ := held_of_advance step
    apply List.append_subset.2
    refine ⟨List.Subset.trans first (List.subset_append_left _ _), ?_⟩
    apply List.append_subset.2
    exact ⟨less, List.Subset.trans others (List.subset_append_left _ _)⟩

theorem next_eq :
    file.next ⟨host, alive⟩ store = match file.begun ⟨host, alive⟩ store with
      | .ok listing store => .ok (file.stepped (.ok listing)) store
      | .error failure store => .ok (file.stepped (.error failure)) store := by
  unfold next begun stepped
  dsimp only
  cases file.listing with
  | some listing =>
    dsimp only
    rcases file.advance listing with error | (_ | ⟨found, rest⟩) <;> rfl
  | none =>
    cases file.startListing ⟨host, alive⟩ store with
    | error failure store => rfl
    | ok listing store =>
      dsimp only
      rcases file.advance listing with error | (_ | ⟨found, rest⟩) <;> rfl

theorem list_eq :
    file.list ⟨host, alive⟩ store = match file.begun ⟨host, alive⟩ store with
      | .ok listing store => .ok (file.collected (.ok listing)) store
      | .error failure store => .ok (file.collected (.error failure)) store := by
  unfold list begun collected
  dsimp only
  cases file.listing with
  | some listing => rfl
  | none => cases file.startListing ⟨host, alive⟩ store <;> rfl

theorem begun_gives (sound : store.Sound (file.held ++ held)) (tells : Tells alive held)
    (trusted : store.broker.isSome = true → file.listing = none →
      file.Undisputed host (held.map (·.image))) :
    Gives (file.held ++ held) store.broker.isSome FileListing.held .plain (file.ownBegun host)
      (file.begun ⟨host, alive⟩ store) := by
  unfold begun ownBegun
  cases going : file.listing with
  | some listing =>
    refine ⟨rfl, sound.mono ?_, rfl⟩
    apply List.append_subset.2
    refine ⟨?_, List.Subset.refl _⟩
    intro image member
    apply List.mem_append_left
    apply List.mem_append_right
    rw [going]
    exact member
  | none =>
    cases inside : file.isHostDirectory host with
    | true =>
      obtain ⟨path, node⟩ := exists_path inside
      rw [startListing_of_directory node inside, ownListing_of_directory node inside]
      exact ⟨rfl, sound, rfl⟩
    | false =>
      have law := image_gives sound tells fun brokered => trusted brokered going
      rw [startListing_of_container inside, ownListing_of_container inside]
      rcases law.cases with ⟨failure, after, step, failed, still, kept⟩ |
        ⟨image, after, step, opened, still, kept⟩
      · rw [step, failed]
        exact ⟨rfl, still, kept⟩
      · rw [step, opened]
        exact ⟨rfl, still, kept⟩

/-- The next file of a directory, and the rest of its listing, are those found without a broker. -/
theorem next_gives (sound : store.Sound (file.held ++ held)) (tells : Tells alive held)
    (trusted : store.broker.isSome = true → file.listing = none →
      file.Undisputed host (held.map (·.image))) :
    Gives held store.broker.isSome steppedHeld
      (fun outcome => (outcome.1.map (Option.map plain), outcome.2.plain))
      (.ok (file.ownNext host)) (file.next ⟨host, alive⟩ store) := by
  have law := begun_gives sound tells trusted
  rw [next_eq]
  unfold ownNext
  rcases law.cases with ⟨failure, after, step, failed, still, kept⟩ |
    ⟨listing, after, step, begun, still, kept⟩
  · rw [step, failed]
    refine ⟨rfl, still.mono_left ?_, kept⟩
    change [] ++ { file with listing := none }.held ⊆ _
    rw [List.nil_append, held_ended]
    exact List.Subset.trans (node_held_subset file) (List.subset_append_left _ _)
  · rw [← List.append_assoc] at still
    rw [step, begun]
    refine ⟨?_, still.mono_left ?_, kept⟩
    · exact congrArg Except.ok (stepped_plain file (.ok listing))
    · exact List.Subset.trans (stepped_held listing) (List.subset_append_left _ _)

/-- All files of a directory are those found without a broker. -/
theorem list_gives (sound : store.Sound (file.held ++ held)) (tells : Tells alive held)
    (trusted : store.broker.isSome = true → file.listing = none →
      file.Undisputed host (held.map (·.image))) :
    Gives held store.broker.isSome (fun outcome => outcome.2.held)
      (fun outcome => ((outcome.1.1.map plain, outcome.1.2), outcome.2.plain))
      (.ok (file.ownList host)) (file.list ⟨host, alive⟩ store) := by
  have law := begun_gives sound tells trusted
  have fewer : { file with listing := none }.held ⊆ file.held ++ held := by
    rw [held_ended]
    exact List.Subset.trans (node_held_subset file) (List.subset_append_left _ _)
  rw [list_eq]
  unfold ownList
  rcases law.cases with ⟨failure, after, step, failed, still, kept⟩ |
    ⟨listing, after, step, begun, still, kept⟩
  · rw [step, failed]
    exact ⟨rfl, still.mono_left fewer, kept⟩
  · rw [step, begun]
    refine ⟨?_, (still.mono (List.subset_append_right _ _)).mono_left fewer, kept⟩
    exact congrArg Except.ok (collected_plain file (.ok listing))

end File

namespace Registry

/-- The file at an address, found without a broker. -/
def ownOpen (registry : Registry) (host : Host) (address : String) : Except Failure File :=
  match registry.generate? address with
  | some (system, .ok content) => .ok (File.ofAddress registry address system content)
  | some (_, .error failure) => .error failure
  | none =>
    match host.existingPart (HostPath.ofText address) [] with
    | some (path, names) => (File.ofHost registry path).ownDescent host names
    | none => .error (.media .notFound)

/-- No file on the way to an address is disputed. -/
def Clear (registry : Registry) (host : Host) (held : List Image) (address : String) : Prop :=
  registry.generate? address = none → ∀ path names,
    host.existingPart (HostPath.ofText address) [] = some (path, names) →
      (File.ofHost registry path).Clear host held names

variable {registry : Registry} {host : Host} {held : List HeldImage} {store : ImageStore}
  {alive : ImageId → Bool}

theorem open_eq (address : String) :
    registry.open address ⟨host, alive⟩ store = match registry.generate? address with
      | some (system, .ok content) => .ok (File.ofAddress registry address system content) store
      | some (_, .error failure) => .error failure store
      | none =>
        match host.existingPart (HostPath.ofText address) [] with
        | some (path, names) => (File.ofHost registry path).descend names ⟨host, alive⟩ store
        | none => .error (.media .notFound) store := by
  unfold Registry.open
  rcases registry.generate? address with _ | ⟨system, failure | content⟩
  · change (match host.existingPart (HostPath.ofText address) [] with
      | some (path, names) => (File.ofHost registry path).descend names
      | none => throw (Failure.media .notFound) : Access File) ⟨host, alive⟩ store = _
    cases host.existingPart (HostPath.ofText address) [] <;> rfl
  · rfl
  · rfl

/-- An address leads to the file that it leads to without a broker. -/
theorem open_gives (sound : store.Sound held) (tells : Tells alive held) (address : String)
    (clear : store.broker.isSome = true → registry.Clear host (held.map (·.image)) address) :
    Gives held store.broker.isSome File.held .plain (registry.ownOpen host address)
      (registry.open address ⟨host, alive⟩ store) := by
  unfold ownOpen
  cases inline : registry.generate? address with
  | some generated =>
    obtain ⟨system, content⟩ := generated
    rw [open_eq, inline]
    cases content with
    | error failure => exact ⟨rfl, sound, rfl⟩
    | ok content => exact ⟨rfl, sound, rfl⟩
  | none =>
    rw [open_eq, inline]
    cases found : host.existingPart (HostPath.ofText address) [] with
    | none => exact ⟨rfl, sound, rfl⟩
    | some part =>
      obtain ⟨path, names⟩ := part
      exact File.descend_gives sound tells names fun brokered => clear brokered inline path names found

end Registry
end RetroMedia
