import RetroMedia.Vfs.ImageStore

/-! Lending. A broker that is told which images are held lends exactly these: each held image stands
in its books under its own address, so no two images are held under one address. -/
namespace RetroMedia

namespace Broker

variable {broker : Broker} {alive : ImageId → Bool}

/-- Each address is remembered at most once. -/
def Unique (broker : Broker) : Prop := (broker.known.map (·.1)).Nodup

theorem Unique.filter (unique : broker.Unique) (kept : String × ImageId → Bool) :
    Unique ⟨broker.known.filter kept⟩ :=
  List.Nodup.sublist (List.filter_sublist.map _) unique

theorem known?_of_mem (unique : broker.Unique) {url : String} {id : ImageId}
    (member : (url, id) ∈ broker.known) : broker.known? url = some id := by
  obtain ⟨known⟩ := broker
  induction known with
  | nil => cases member
  | cons first rest ih =>
    obtain ⟨fresh, unique'⟩ := List.nodup_cons.1 unique
    unfold known?
    rcases List.mem_cons.1 member with rfl | later
    · simp
    · have other : ¬ first.1 = url := by
        intro same
        apply fresh
        change first.1 ∈ _
        rw [same]
        exact List.mem_map_of_mem later
      rw [List.find?_cons_of_neg (by simpa using other)]
      exact ih unique' later

theorem mem_of_known? {url : String} {id : ImageId} (found : broker.known? url = some id) :
    (url, id) ∈ broker.known := by
  unfold known? at found
  obtain ⟨⟨url', id'⟩, first, same⟩ := Option.map_eq_some_iff.1 found
  have here : url' = url := by simpa using List.find?_some first
  cases here
  cases same
  exact List.mem_of_find?_eq_some first

theorem known?_eq_some_iff (unique : broker.Unique) {url : String} {id : ImageId} :
    broker.known? url = some id ↔ (url, id) ∈ broker.known :=
  ⟨mem_of_known?, known?_of_mem unique⟩

/-- Forgetting what is dead leaves the live images. -/
theorem known?_prune (unique : broker.Unique) (url : String) :
    (broker.prune alive).known? url = broker.get? alive url := by
  have unique' : (broker.prune alive).Unique := unique.filter _
  apply Option.ext
  intro id
  rw [known?_eq_some_iff unique', get?, Option.filter_eq_some_iff, known?_eq_some_iff unique]
  exact List.mem_filter

theorem known?_forget_of_ne {url url' : String} (other : url' ≠ url) :
    (broker.forget url).known? url' = broker.known? url' := by
  unfold known? forget
  dsimp only
  rw [List.find?_filter]
  congr 1
  congr 1
  funext pair
  by_cases same : pair.1 = url'
  · simp [same, other]
  · simp [same]

theorem known?_remember_of_ne {url url' : String} (other : url' ≠ url) (id : ImageId) :
    (broker.remember url id).known? url' = broker.known? url' := by
  have skip : (broker.remember url id).known? url' = (broker.forget url).known? url' := by
    unfold known? remember
    rw [List.find?_cons_of_neg (by simpa using other.symm)]
  rw [skip, known?_forget_of_ne other]

theorem Unique.remember (unique : broker.Unique) (url : String) (id : ImageId) :
    (broker.remember url id).Unique := by
  have rest := unique.filter fun pair => pair.1 != url
  apply List.nodup_cons.2
  refine ⟨?_, rest⟩
  intro member
  obtain ⟨pair, kept, same⟩ := List.mem_map.1 member
  have other := (List.mem_filter.1 kept).2
  simp [same] at other

/-- Where no live image is lent, a newly opened one is remembered among the live ones. -/
theorem settle_of_none (unique : broker.Unique) {url : String} (free : broker.get? alive url = none)
    (id : ImageId) :
    broker.settle alive url id = (id, (broker.prune alive).remember url id) := by
  have missing : (broker.prune alive).get? alive url = none := by
    unfold get?
    rw [known?_prune unique, free]
    rfl
  unfold settle
  dsimp only
  rw [missing]

end Broker

namespace ImageStore

/-- The books of a broker, if there is one, while the images `held` are held. -/
structure Sound (store : ImageStore) (held : List HeldImage) : Prop where
  unique : ∀ broker, store.broker = some broker → broker.Unique
  known : ∀ broker, store.broker = some broker → ∀ url id, broker.known? url = some id →
    ∃ image, store.opened[id]? = some image ∧ image.url = url
  live : ∀ broker, store.broker = some broker → ∀ image ∈ held,
    store.opened[image.id]? = some image.image ∧ broker.known? image.image.url = some image.id

variable {store : ImageStore} {held : List HeldImage} {alive : ImageId → Bool}

theorem sound_fresh (broker : Option Broker) (empty : ∀ books, broker = some books → books = {}) :
    Sound { broker } [] := by
  refine ⟨?_, ?_, ?_⟩
  · intro books same
    rw [empty books same]
    exact List.nodup_nil
  · intro books same url id found
    rw [empty books same] at found
    cases found
  · intro books same image never
    cases never

/-- To let go of some images does no harm. -/
theorem Sound.mono (sound : store.Sound held) {fewer : List HeldImage} (less : fewer ⊆ held) :
    store.Sound fewer :=
  ⟨sound.unique, sound.known, fun broker same image member => sound.live broker same image (less member)⟩

theorem Sound.mono_left {some fewer : List HeldImage} (sound : store.Sound (some ++ held))
    (less : fewer ⊆ some ++ held) : store.Sound (fewer ++ held) :=
  sound.mono (List.append_subset.2 ⟨less, List.subset_append_right _ _⟩)

/-- `alive` tells which images are held. -/
def Tells (alive : ImageId → Bool) (held : List HeldImage) : Prop :=
  ∀ id, alive id = true ↔ ∃ image ∈ held, image.id = id

/-- The broker lends a held image with the right address. -/
theorem Sound.mem_of_lent (sound : store.Sound held) (tells : Tells alive held) {url : String}
    {image : HeldImage} (lent : store.lent? alive url = some image) :
    image ∈ held ∧ image.image.url = url := by
  unfold lent? at lent
  cases same : store.broker with
  | none =>
    rw [same] at lent
    cases lent
  | some broker =>
    rw [same] at lent
    dsimp only [bind, Option.bind] at lent
    cases found : broker.get? alive url with
    | none =>
      rw [found] at lent
      cases lent
    | some id =>
      rw [found] at lent
      dsimp only at lent
      obtain ⟨known, lives⟩ := Option.filter_eq_some_iff.1 found
      obtain ⟨holder, member, here⟩ := (tells id).1 lives
      obtain ⟨there, address⟩ := sound.live broker same holder member
      subst here
      rw [there] at lent
      cases lent
      obtain ⟨image, there', right⟩ := sound.known broker same url holder.id known
      rw [there] at there'
      cases there'
      exact ⟨member, right⟩

/-- Every held image is lent under its address, by a broker. -/
theorem Sound.lent_of_mem (sound : store.Sound held) (tells : Tells alive held) {broker : Broker}
    (same : store.broker = some broker) {image : HeldImage} (member : image ∈ held) :
    store.lent? alive image.image.url = some image := by
  obtain ⟨there, known⟩ := sound.live broker same image member
  have lives : alive image.id = true := (tells image.id).2 ⟨image, member, rfl⟩
  have found : broker.get? alive image.image.url = some image.id :=
    Option.filter_eq_some_iff.2 ⟨known, lives⟩
  unfold lent?
  simp [same, found, there]

theorem lent_of_free (free : store.broker = none) (url : String) : store.lent? alive url = none := by
  unfold lent?
  rw [free]
  rfl

/-- The images that were opened before keep their numbers. -/
theorem getElem?_push_of_eq_some {opened : Array Image} {id : ImageId} {image : Image}
    (there : opened[id]? = some image) (more : Image) : (opened.push more)[id]? = some image := by
  obtain ⟨inside, _⟩ := Array.getElem?_eq_some_iff.1 there
  rw [Array.getElem?_push, if_neg (Nat.ne_of_lt inside), there]

/-- A new image has a number of its own, and is held under its address from now on. -/
theorem Sound.add (sound : store.Sound held) (tells : Tells alive held) {url : String}
    {image : Image} (address : image.url = url) (free : store.lent? alive url = none) :
    ∃ id store', store.add alive url image = (⟨id, image⟩, store') ∧
      store'.Sound (⟨id, image⟩ :: held) ∧ store'.broker.isSome = store.broker.isSome := by
  unfold ImageStore.add
  dsimp only
  cases same : store.broker with
  | none =>
    refine ⟨_, _, rfl, ⟨?_, ?_, ?_⟩, rfl⟩ <;> intro broker never <;> cases never
  | some broker =>
    have unique := sound.unique broker same
    have missing : broker.get? alive url = none := by
      cases found : broker.get? alive url with
      | none => rfl
      | some id =>
        obtain ⟨known, lives⟩ := Option.filter_eq_some_iff.1 found
        obtain ⟨_, there, _⟩ := sound.known broker same url id known
        simp [lent?, same, found, there] at free
    dsimp only
    rw [Broker.settle_of_none unique missing]
    dsimp only
    have taken : (store.opened.push image).getD store.opened.size image = image := by
      simp [Array.getD]
    rw [taken]
    refine ⟨_, _, rfl, ⟨?_, ?_, ?_⟩, rfl⟩
    · rintro _ ⟨⟩
      exact Broker.Unique.remember (unique.filter _) _ _
    · rintro _ ⟨⟩ url' id found
      by_cases here : url' = url
      · subst here
        rw [Broker.known?_remember] at found
        cases found
        exact ⟨image, by simp, address⟩
      · rw [Broker.known?_remember_of_ne here, Broker.known?_prune unique] at found
        obtain ⟨known, _⟩ := Option.filter_eq_some_iff.1 found
        obtain ⟨image', there, right⟩ := sound.known broker same url' id known
        exact ⟨image', getElem?_push_of_eq_some there _, right⟩
    · rintro _ ⟨⟩ image' member
      rcases List.mem_cons.1 member with rfl | earlier
      · refine ⟨by simp, ?_⟩
        rw [address]
        exact Broker.known?_remember _ _ _
      · obtain ⟨there, known⟩ := sound.live broker same image' earlier
        have lives : alive image'.id = true := (tells image'.id).2 ⟨image', earlier, rfl⟩
        have other : image'.image.url ≠ url := by
          intro equal
          rw [← equal, sound.lent_of_mem tells same earlier] at free
          cases free
        refine ⟨getElem?_push_of_eq_some there _, ?_⟩
        rw [Broker.known?_remember_of_ne other, Broker.known?_prune unique]
        exact Option.filter_eq_some_iff.2 ⟨known, lives⟩

/-- To obtain an image is to borrow a held one with its address, or else to open it. -/
theorem Sound.obtain_cases (sound : store.Sound held) (tells : Tells alive held) {url : String}
    (source : Unit → Except Failure Image)
    (address : ∀ image, source () = .ok image → image.url = url) :
    (∃ image ∈ held, image.image.url = url ∧ store.broker.isSome = true ∧
        store.obtain alive url source = (.ok image, store)) ∨
      ((store.broker.isSome = true → ∀ image ∈ held, image.image.url ≠ url) ∧
        ((∃ failure, source () = .error failure ∧
            store.obtain alive url source = (.error failure, store)) ∨
          ∃ id image store', source () = .ok image ∧
            store.obtain alive url source = (.ok ⟨id, image⟩, store') ∧
            store'.Sound (⟨id, image⟩ :: held) ∧
            store'.broker.isSome = store.broker.isSome)) := by
  unfold ImageStore.obtain
  cases lent : store.lent? alive url with
  | some image =>
    obtain ⟨member, right⟩ := sound.mem_of_lent tells lent
    refine .inl ⟨image, member, right, ?_, rfl⟩
    cases same : store.broker with
    | some broker => rfl
    | none =>
      rw [lent_of_free same] at lent
      cases lent
  | none =>
    refine .inr ⟨?_, ?_⟩
    · intro brokered image member equal
      obtain ⟨broker, same⟩ := Option.isSome_iff_exists.1 brokered
      rw [← equal, sound.lent_of_mem tells same member] at lent
      cases lent
    · cases opened : source () with
      | error failure => exact .inl ⟨failure, rfl, rfl⟩
      | ok image =>
        obtain ⟨id, store', step, onward, still⟩ := sound.add tells (address image opened) lent
        dsimp only
        rw [step]
        exact .inr ⟨id, image, store', rfl, rfl, onward, still⟩

end ImageStore
end RetroMedia
