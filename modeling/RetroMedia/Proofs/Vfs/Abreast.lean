import RetroMedia.Proofs.Vfs.Books

/-! Descents abreast. Two files that were found in the same way, one of them while the files on the way to
it are still held, go on in the same way: an address only grows on the way down, so none of the images
that are held along the way is ever asked for again. -/
namespace RetroMedia

open ImageStore (Tells)

/-- Two stores that hold the same images under an address come to the same image. -/
theorem ImageStore.Sound.obtain_alike {store store' : ImageStore} {held held' : List HeldImage}
    {alive alive' : ImageId → Bool} {url : String}
    (sound : store.Sound held) (sound' : store'.Sound held') (tells : Tells alive held)
    (tells' : Tells alive' held') (brokered : store.broker.isSome = store'.broker.isSome)
    (common : ∀ image : HeldImage, image.image.url = url → (image ∈ held ↔ image ∈ held'))
    (source : Unit → Except Failure Image)
    (address : ∀ image, source () = .ok image → image.url = url) :
    (∃ failure, store.obtain alive url source = (.error failure, store) ∧
        store'.obtain alive' url source = (.error failure, store')) ∨
      ∃ image image' after after', store.obtain alive url source = (.ok image, after) ∧
        store'.obtain alive' url source = (.ok image', after') ∧ image.image = image'.image ∧
        image.image.url = url ∧ after.Sound (image :: held) ∧ after'.Sound (image' :: held') ∧
        after.broker.isSome = after'.broker.isSome := by
  rcases sound.obtain_cases tells source address with
    ⟨image, member, here, lends, step⟩ | ⟨free, alone⟩
  · -- Whatever the first store lends, the second holds as well, and no other image under the address.
    rcases sound'.obtain_cases tells' source address with
      ⟨image', member', here', lends', step'⟩ | ⟨free', _⟩
    · obtain ⟨broker, same⟩ := Option.isSome_iff_exists.1 lends
      have lent := sound.lent_of_mem tells same member
      have lent' := sound.lent_of_mem tells same ((common image' here').2 member')
      rw [here] at lent
      rw [here', lent] at lent'
      cases lent'
      exact .inr ⟨image, image, store, store', step, step', rfl, here,
        sound.mono (List.cons_subset.2 ⟨member, List.Subset.refl _⟩),
        sound'.mono (List.cons_subset.2 ⟨member', List.Subset.refl _⟩), brokered⟩
    · exact absurd here (free' (brokered ▸ lends) image ((common image here).1 member))
  · rcases sound'.obtain_cases tells' source address with
      ⟨image', member', here', lends', step'⟩ | ⟨_, alone'⟩
    · exact absurd here' (free (brokered ▸ lends') image' ((common image' here').2 member'))
    · rcases alone with ⟨failure, failed, step⟩ | ⟨id, image, after, opened, step, onward, kept⟩
      · rcases alone' with ⟨failure', failed', step'⟩ | ⟨id', image', after', opened', _⟩
        · cases failed.symm.trans failed'
          exact .inl ⟨failure, step, step'⟩
        · cases failed.symm.trans opened'
      · rcases alone' with ⟨failure', failed', _⟩ | ⟨id', image', after', opened', step', onward', kept'⟩
        · cases opened.symm.trans failed'
        · cases opened.symm.trans opened'
          exact .inr ⟨_, _, after, after', step, step', rfl, address image opened, onward, onward',
            kept.trans (brokered.trans kept'.symm)⟩

namespace File

variable {host : Host} {base held : List HeldImage} {file file' : File} {store store' : ImageStore}
  {alive alive' : ImageId → Bool}

/-- A file inside of a container, and the same file found while more than `base` is held: whatever is
held beyond it has a shorter address. -/
structure Abreast (base held : List HeldImage) (file file' : File) (store store' : ImageStore) :
    Prop where
  same : file.plain = file'.plain
  sound : store.Sound (file.held ++ base)
  sound' : store'.Sound (file'.held ++ held)
  brokered : store.broker.isSome = store'.broker.isSome
  along : base ⊆ held
  shorter : ∀ image ∈ file.held ++ (file'.held ++ held),
    image ∈ base ∨ image.image.url.length < file.url.length

theorem notContainer_plain (file : File) : file.plain.notContainer = file.notContainer := by
  obtain ⟨registry, url, name, node, listing⟩ := file
  cases node <;> rfl

theorem url_of_plain (same : file.plain = file'.plain) : file.url = file'.url := by
  change file.plain.url = file'.plain.url
  rw [same]

/-- To keep the file that was found, and whatever else was held before, does not matter. -/
theorem Abreast.keeping (abreast : Abreast base held file file' store store') {kept : List HeldImage}
    (along : base ⊆ kept) (less : kept ⊆ file'.held ++ held) :
    Abreast base kept file file' store store' := by
  have fewer : file'.held ++ kept ⊆ file'.held ++ held :=
    List.append_subset.2 ⟨List.subset_append_left _ _, less⟩
  refine ⟨abreast.same, abreast.sound, abreast.sound'.mono fewer, abreast.brokered, along, ?_⟩
  intro image member
  apply abreast.shorter
  rcases List.mem_append.1 member with own | other
  · exact List.mem_append_left _ own
  · exact List.mem_append_right _ (fewer other)

section Members

variable (abreast : Abreast base held file file' store store') {image : HeldImage}
  (here : image.image.url = file.url)
include abreast here

theorem Abreast.mem_base (member : image ∈ file.held ++ (file'.held ++ held)) : image ∈ base := by
  rcases abreast.shorter image member with inside | shorter
  · exact inside
  · rw [here] at shorter
    exact absurd shorter (Nat.lt_irrefl _)

theorem Abreast.mem_left_iff : image ∈ file.held ++ base ↔ image ∈ base := by
  constructor
  · intro member
    rcases List.mem_append.1 member with own | inside
    · exact abreast.mem_base here (List.mem_append_left _ own)
    · exact inside
  · exact List.mem_append_right _

theorem Abreast.mem_right_iff : image ∈ file'.held ++ held ↔ image ∈ base := by
  constructor
  · intro member
    exact abreast.mem_base here (List.mem_append_right _ member)
  · intro inside
    exact List.mem_append_right _ (abreast.along inside)

end Members

/-- Both files find the same image. -/
theorem Abreast.image (abreast : Abreast base held file file' store store') (tells : Tells alive base)
    (tells' : Tells alive' held) :
    (∃ failure, file.image ⟨host, alive⟩ store = .error failure store ∧
        file'.image ⟨host, alive'⟩ store' = .error failure store') ∨
      ∃ image image' after after', file.image ⟨host, alive⟩ store = .ok image after ∧
        file'.image ⟨host, alive'⟩ store' = .ok image' after' ∧ image.image = image'.image ∧
        image.image.url = file.url ∧ after.Sound (image :: (file.held ++ base)) ∧
        after'.Sound (image' :: (file'.held ++ held)) ∧
        after.broker.isSome = after'.broker.isSome := by
  have claims : file.system? host = file'.system? host := by
    rw [← system?_plain, abreast.same, system?_plain]
  have owns : file.own host = file'.own host := by
    rw [← own_plain, abreast.same, own_plain]
  cases claimed : file.system? host with
  | none =>
    rw [claimed] at claims
    refine .inl ⟨.media file.notContainer, image_of_none claimed, ?_⟩
    rw [image_of_none claims.symm, ← notContainer_plain, ← abreast.same, notContainer_plain]
  | some system =>
    rw [claimed] at claims
    rw [image_of_some claimed, image_of_some claims.symm, ← url_of_plain abreast.same, ← owns]
    have common (image : HeldImage) (here : image.image.url = file.url) :
        image ∈ file.held ++ base ↔ image ∈ file'.held ++ held := by
      rw [abreast.mem_left_iff here, abreast.mem_right_iff here]
    have address (image : Image) (opened : file.own host = .ok image) : image.url = file.url :=
      url_of_own opened
    rcases abreast.sound.obtain_alike abreast.sound' (tells_holds tells file)
        (tells_holds tells' file') abreast.brokered common
        (fun _ => file.own host) address with
      ⟨failure, step, step'⟩ | ⟨image, image', after, after', step, step', law⟩
    · rw [step, step']
      exact .inl ⟨failure, rfl, rfl⟩
    · rw [step, step']
      exact .inr ⟨image, image', after, after', rfl, rfl, law⟩

/-- The address of an entry is longer than that of its container. -/
theorem length_url_lt_ofEntry (file : File) (image : HeldImage) (entry : Entry) :
    file.url.length < (file.ofEntry image entry).url.length := by
  have slash : "/".length = 1 := rfl
  simp only [ofEntry, String.length_append]
  omega

theorem ofEntry_plain_eq (same : file.plain = file'.plain) {image image' : HeldImage}
    (same' : image.image = image'.image) (entry : Entry) :
    (file.ofEntry image entry).plain = (file'.ofEntry image' entry).plain := by
  have registry : file.plain.registry = file'.plain.registry := by rw [same]
  change File.mk file.plain.registry _ _ _ _ = File.mk file'.plain.registry _ _ _ _
  rw [registry, ofEntry, ofEntry, url_of_plain same]
  dsimp only [FileNode.plain, HeldImage.plain]
  rw [same']

/-- The entries that a name leads to are found in both, and they are abreast again. -/
theorem Abreast.child (abreast : Abreast base held file file' store store') (tells : Tells alive base)
    (tells' : Tells alive' held) (inside : file.isHostDirectory host = false) (name : String) :
    (∃ failure after after', file.child name ⟨host, alive⟩ store = .error failure after ∧
        file'.child name ⟨host, alive'⟩ store' = .error failure after') ∨
      ∃ inner inner' after after', file.child name ⟨host, alive⟩ store = .ok inner after ∧
        file'.child name ⟨host, alive'⟩ store' = .ok inner' after' ∧
        Abreast base held inner inner' after after' ∧ inner.isHostDirectory host = false := by
  have inside' : file'.isHostDirectory host = false := by
    rw [← isHostDirectory_plain, ← abreast.same, isHostDirectory_plain]
    exact inside
  rw [child_of_container inside, child_of_container inside']
  rcases abreast.image tells tells' with ⟨failure, step, step'⟩ |
    ⟨image, image', after, after', step, step', same, address, sound, sound', brokered⟩
  · rw [step, step']
    exact .inl ⟨failure, store, store', rfl, rfl⟩
  · rw [step, step']
    dsimp only
    rw [checkout, checkout, ← same]
    cases found : Checkout.seekEntry name { image := image.image } with
    | error error last => exact .inl ⟨_, after, after', rfl, rfl⟩
    | ok entry last =>
      refine .inr ⟨_, _, after, after', rfl, rfl, ?_, rfl⟩
      refine ⟨ofEntry_plain_eq abreast.same same entry, ?_, ?_, brokered, abreast.along, ?_⟩
      · exact sound.mono (List.cons_subset_cons _ (List.subset_append_right _ _))
      · exact sound'.mono (List.cons_subset_cons _ (List.subset_append_right _ _))
      · have longer := length_url_lt_ofEntry file image entry
        have own : image.image.url.length < (file.ofEntry image entry).url.length := by
          rw [address]
          exact longer
        intro holder member
        rcases List.mem_cons.1 member with rfl | member
        · exact .inr own
        rcases List.mem_cons.1 member with rfl | member
        · exact .inr (same ▸ own)
        rcases abreast.shorter holder (List.mem_append_right _ (List.mem_append_right _ member)) with
          inside | shorter
        · exact .inl inside
        · exact .inr (Nat.lt_trans shorter longer)

end File
end RetroMedia
