import RetroMedia.Proofs.Broker.Lending

/-! A broker among its clients. To obtain an image takes two steps, and between them anything may
happen: the same address may be obtained again, handles may be copied and dropped, addresses evicted.
The books of the broker tell at each step which of the held images is lent for an address. -/
namespace RetroMedia

/-- An image, and the address for which it was lent. -/
structure Loan where
  url : String
  image : ImageId
  deriving DecidableEq, Repr

/-- A broker and what its clients hold. -/
structure Exchange where
  broker : Broker := {}
  /-- Every handle that is not dropped yet. Several of one loan are not told apart. -/
  handles : List Loan := []
  /-- The addresses for which an image is being opened. -/
  waiting : List String := []
  /-- How many images were opened so far, which is the number of the next one. -/
  opened : Nat := 0
  deriving DecidableEq, Repr

namespace Exchange

/-- What clients do. An image is obtained by `begin`, which returns a live image or goes on to open
one, and in the latter case by `finish` at any later time, when the image was opened or not. -/
inductive Event where
  | get (url : String)
  | begin (url : String)
  | finish (url : String) (opens : Bool)
  | copy (loan : Loan)
  | drop (loan : Loan)
  | evict (url : String)
  | clear
  deriving DecidableEq, Repr

/-- Does the event make the broker forget the address whatever is held? -/
def Event.forgets (url : String) : Event → Bool
  | .evict other => other == url
  | .clear => true
  | _ => false

/-- An image lives as long as there is a handle of it. -/
def alive (exchange : Exchange) (image : ImageId) : Bool :=
  exchange.handles.any (·.image == image)

/-- The live image under an address. -/
def live? (exchange : Exchange) (url : String) : Option ImageId :=
  exchange.broker.get? exchange.alive url

/-- Hand out an image. -/
def lend (exchange : Exchange) (loan : Loan) : Option Loan × Exchange :=
  (some loan, { exchange with handles := loan :: exchange.handles })

/-- One event: what the broker hands out, and what is then the case. -/
def step (exchange : Exchange) : Event → Option Loan × Exchange
  | .get url =>
    match exchange.live? url with
    | some image => exchange.lend ⟨url, image⟩
    | none => (none, exchange)
  | .begin url =>
    match exchange.live? url with
    | some image => exchange.lend ⟨url, image⟩
    | none => (none, { exchange with waiting := url :: exchange.waiting })
  | .finish url opens =>
    if url ∈ exchange.waiting then
      let resumed := { exchange with waiting := exchange.waiting.erase url }
      if opens then
        let (image, broker) := exchange.broker.settle exchange.alive url exchange.opened
        { resumed with broker, opened := exchange.opened + 1 }.lend ⟨url, image⟩
      else (none, resumed)
    else (none, exchange)
  | .copy loan =>
    if loan ∈ exchange.handles then
      (none, { exchange with handles := loan :: exchange.handles })
    else (none, exchange)
  | .drop loan => (none, { exchange with handles := exchange.handles.erase loan })
  | .evict url => (none, { exchange with broker := (exchange.broker.evict url).2 })
  | .clear => (none, { exchange with broker := exchange.broker.clear })

/-- One event after another. -/
def run (exchange : Exchange) : List Event → Exchange
  | [] => exchange
  | event :: events => (exchange.step event).2.run events

variable {exchange : Exchange} {url : String} {image : ImageId}

theorem run_cons (event : Event) (events : List Event) :
    exchange.run (event :: events) = (exchange.step event).2.run events := rfl

theorem alive_iff : exchange.alive image = true ↔ ∃ loan ∈ exchange.handles, loan.image = image := by
  simp [alive]

theorem live?_eq_some_iff :
    exchange.live? url = some image ↔
      exchange.broker.known? url = some image ∧ exchange.alive image = true :=
  Option.filter_eq_some_iff

/-- The books of the broker. What they say of a held image agrees with the address for which it was
lent, and whatever was not yet opened stands nowhere. -/
structure Sound (exchange : Exchange) : Prop where
  unique : exchange.broker.Unique
  held : ∀ loan ∈ exchange.handles, loan.image < exchange.opened
  known : ∀ url image, exchange.broker.known? url = some image → image < exchange.opened
  address : ∀ url image, exchange.broker.known? url = some image →
    ∀ loan ∈ exchange.handles, loan.image = image → loan.url = url

theorem sound_empty : Sound {} := by
  refine ⟨List.nodup_nil, ?_, ?_, ?_⟩
  · intro loan never
    cases never
  · intro url image never
    cases never
  · intro url image never
    cases never

/-- Everything that an event can come to: nothing is handed out, and at most forgotten; or the live
image of an address is handed out once more, and the books lose nothing but dead images; or an
address without a live image gets a new one. -/
inductive Move (exchange : Exchange) (event : Event) : Option Loan → Exchange → Prop where
  | silent {next : Exchange} (unique : next.broker.Unique)
      (fewer : next.handles ⊆ exchange.handles) (opened : next.opened = exchange.opened)
      (known : ∀ url image, next.broker.known? url = some image →
        exchange.broker.known? url = some image)
      (kept : ∀ url, event.forgets url = false →
        next.broker.known? url = exchange.broker.known? url) :
      Move exchange event none next
  | again {next : Exchange} (url : String) (image : ImageId)
      (live : exchange.live? url = some image) (unique : next.broker.Unique)
      (handles : next.handles = ⟨url, image⟩ :: exchange.handles)
      (opened : exchange.opened ≤ next.opened)
      (known : ∀ url image, next.broker.known? url = some image →
        exchange.broker.known? url = some image)
      (kept : ∀ url image, exchange.live? url = some image →
        next.broker.known? url = some image) :
      Move exchange event (some ⟨url, image⟩) next
  | fresh {next : Exchange} (url : String) (free : exchange.live? url = none)
      (unique : next.broker.Unique)
      (handles : next.handles = ⟨url, exchange.opened⟩ :: exchange.handles)
      (opened : next.opened = exchange.opened + 1)
      (here : next.broker.known? url = some exchange.opened)
      (others : ∀ other, other ≠ url → next.broker.known? other = exchange.live? other) :
      Move exchange event (some ⟨url, exchange.opened⟩) next

theorem move_of_same {event : Event} {next : Exchange} (sound : exchange.Sound)
    (books : next.broker = exchange.broker) (fewer : next.handles ⊆ exchange.handles)
    (opened : next.opened = exchange.opened) : Move exchange event none next := by
  refine .silent (books ▸ sound.unique) fewer opened ?_ ?_
  · intro url image found
    exact books ▸ found
  · intro url _
    rw [books]

theorem move_of_live {event : Event} (sound : exchange.Sound)
    (live : exchange.live? url = some image) :
    Move exchange event (exchange.lend ⟨url, image⟩).1 (exchange.lend ⟨url, image⟩).2 := by
  refine .again url image live sound.unique rfl (Nat.le_refl _) ?_ ?_
  · intro url image found
    exact found
  · intro url image found
    exact (live?_eq_some_iff.1 found).1

theorem step_begin_of_free (free : exchange.live? url = none) :
    exchange.step (.begin url) = (none, { exchange with waiting := url :: exchange.waiting }) := by
  simp only [step, free]

theorem step_finish (waits : url ∈ exchange.waiting) :
    exchange.step (.finish url true) = Exchange.lend { exchange with
      waiting := exchange.waiting.erase url
      broker := (exchange.broker.settle exchange.alive url exchange.opened).2
      opened := exchange.opened + 1 }
        ⟨url, (exchange.broker.settle exchange.alive url exchange.opened).1⟩ := by
  simp only [step, waits, if_true]

/-- An image that took the place meanwhile is handed out instead of the one just opened. -/
theorem step_finish_of_live {image : ImageId} (sound : exchange.Sound)
    (waits : url ∈ exchange.waiting) (live : exchange.live? url = some image) :
    exchange.step (.finish url true) = Exchange.lend { exchange with
      waiting := exchange.waiting.erase url
      broker := exchange.broker.prune exchange.alive
      opened := exchange.opened + 1 } ⟨url, image⟩ := by
  have lives := (live?_eq_some_iff.1 live).2
  have there : (exchange.broker.prune exchange.alive).get? exchange.alive url = some image := by
    rw [Broker.get?, Broker.known?_prune sound.unique]
    exact Option.filter_eq_some_iff.2 ⟨live, lives⟩
  rw [step_finish waits, Broker.settle_of_get? there]

/-- Where there is no live image, the one just opened is remembered and handed out. -/
theorem step_finish_of_free (sound : exchange.Sound) (waits : url ∈ exchange.waiting)
    (free : exchange.live? url = none) :
    exchange.step (.finish url true) = Exchange.lend { exchange with
      waiting := exchange.waiting.erase url
      broker := (exchange.broker.prune exchange.alive).remember url exchange.opened
      opened := exchange.opened + 1 } ⟨url, exchange.opened⟩ := by
  rw [step_finish waits, Broker.settle_of_none sound.unique free]

theorem move_finish (sound : exchange.Sound) (waits : url ∈ exchange.waiting) :
    Move exchange (.finish url true) (exchange.step (.finish url true)).1
      (exchange.step (.finish url true)).2 := by
  cases live : exchange.live? url with
  | some image =>
    rw [step_finish_of_live sound waits live]
    refine .again url image live (sound.unique.filter _) rfl (Nat.le_succ _) ?_ ?_
    · intro other image' found
      have held := (Broker.known?_prune sound.unique other).symm.trans found
      exact (live?_eq_some_iff.1 held).1
    · intro other image' found
      exact (Broker.known?_prune sound.unique other).trans found
  | none =>
    rw [step_finish_of_free sound waits live]
    refine .fresh url live (Broker.Unique.remember (sound.unique.filter _) _ _) rfl rfl
      (Broker.known?_remember _ _ _) ?_
    intro other different
    exact (Broker.known?_remember_of_ne different _).trans (Broker.known?_prune sound.unique other)

theorem move_step (sound : exchange.Sound) (event : Event) :
    Move exchange event (exchange.step event).1 (exchange.step event).2 := by
  cases event with
  | get url =>
    simp only [step]
    split
    · rename_i image live
      exact move_of_live sound live
    · exact move_of_same sound rfl (List.Subset.refl _) rfl
  | begin url =>
    simp only [step]
    split
    · rename_i image live
      exact move_of_live sound live
    · exact move_of_same sound rfl (List.Subset.refl _) rfl
  | finish url opens =>
    by_cases waits : url ∈ exchange.waiting
    · cases opens with
      | true => exact move_finish sound waits
      | false =>
        simp only [step, waits, if_true]
        exact move_of_same sound rfl (List.Subset.refl _) rfl
    · simp only [step, waits, if_false]
      exact move_of_same sound rfl (List.Subset.refl _) rfl
  | copy loan =>
    simp only [step]
    split
    · rename_i held
      exact move_of_same sound rfl (List.cons_subset.2 ⟨held, List.Subset.refl _⟩) rfl
    · exact move_of_same sound rfl (List.Subset.refl _) rfl
  | drop loan => exact move_of_same sound rfl List.erase_subset rfl
  | evict url =>
    refine .silent (sound.unique.filter _) (List.Subset.refl _) rfl ?_ ?_
    · intro other image found
      by_cases same : other = url
      · subst same
        exact absurd ((Broker.known?_forget _ other).symm.trans found) nofun
      · exact (Broker.known?_forget_of_ne same).symm.trans found
    · intro other kept
      have different : other ≠ url := by
        rintro rfl
        simp [Event.forgets] at kept
      exact Broker.known?_forget_of_ne different
  | clear =>
    refine .silent List.nodup_nil (List.Subset.refl _) rfl ?_ ?_
    · intro other image never
      cases never
    · intro other kept
      cases kept

variable {event : Event} {next : Exchange} {reply : Option Loan}

theorem Sound.move (sound : exchange.Sound) (move : Move exchange event reply next) :
    next.Sound := by
  cases move with
  | silent unique fewer opened known kept =>
    refine ⟨unique, ?_, ?_, ?_⟩
    · intro loan there
      exact opened ▸ sound.held loan (fewer there)
    · intro url image found
      exact opened ▸ sound.known url image (known url image found)
    · intro url image found loan there
      exact sound.address url image (known url image found) loan (fewer there)
  | again url image live unique handles opened known kept =>
    obtain ⟨here, lives⟩ := live?_eq_some_iff.1 live
    obtain ⟨holder, member, same⟩ := alive_iff.1 lives
    refine ⟨unique, ?_, ?_, ?_⟩
    · intro loan there
      rcases List.mem_cons.1 (handles ▸ there) with rfl | before
      · exact Nat.lt_of_lt_of_le (sound.known url image here) opened
      · exact Nat.lt_of_lt_of_le (sound.held loan before) opened
    · intro other image' found
      exact Nat.lt_of_lt_of_le (sound.known other image' (known other image' found)) opened
    · intro other image' found loan there equal
      rcases List.mem_cons.1 (handles ▸ there) with rfl | before
      · have mine := sound.address url image here holder member same
        have others := sound.address other image' (known other image' found) holder member
          (same.trans equal)
        exact mine.symm.trans others
      · exact sound.address other image' (known other image' found) loan before equal
  | fresh url free unique handles opened here others =>
    have old (other : String) (image : ImageId) (different : other ≠ url)
        (found : next.broker.known? other = some image) :
        exchange.broker.known? other = some image :=
      (live?_eq_some_iff.1 ((others other different).symm.trans found)).1
    refine ⟨unique, ?_, ?_, ?_⟩
    · intro loan there
      rcases List.mem_cons.1 (handles ▸ there) with rfl | before
      · exact opened ▸ Nat.lt_succ_self _
      · exact opened ▸ Nat.lt_succ_of_lt (sound.held loan before)
    · intro other image found
      by_cases same : other = url
      · subst same
        cases here.symm.trans found
        exact opened ▸ Nat.lt_succ_self _
      · exact opened ▸ Nat.lt_succ_of_lt (sound.known other image (old other image same found))
    · intro other image found loan there equal
      by_cases same : other = url
      · subst same
        cases here.symm.trans found
        rcases List.mem_cons.1 (handles ▸ there) with rfl | before
        · rfl
        · exact absurd equal (Nat.ne_of_lt (sound.held loan before))
      · have found' := old other image same found
        rcases List.mem_cons.1 (handles ▸ there) with rfl | before
        · exact absurd equal.symm (Nat.ne_of_lt (sound.known other image found'))
        · exact sound.address other image found' loan before equal

/-- An image that was opened before and lives on was alive before: nothing dead comes back. -/
theorem Move.alive_of_alive (move : Move exchange event reply next) (old : image < exchange.opened)
    (lives : next.alive image = true) : exchange.alive image = true := by
  obtain ⟨loan, there, same⟩ := alive_iff.1 lives
  cases move with
  | silent unique fewer opened known kept => exact alive_iff.2 ⟨loan, fewer there, same⟩
  | again url image' live unique handles opened known kept =>
    rcases List.mem_cons.1 (handles ▸ there) with rfl | before
    · exact same ▸ (live?_eq_some_iff.1 live).2
    · exact alive_iff.2 ⟨loan, before, same⟩
  | fresh url free unique handles opened here others =>
    rcases List.mem_cons.1 (handles ▸ there) with rfl | before
    · exact absurd same.symm (Nat.ne_of_lt old)
    · exact alive_iff.2 ⟨loan, before, same⟩

theorem Move.opened_le (move : Move exchange event reply next) : exchange.opened ≤ next.opened := by
  cases move with
  | silent unique fewer opened known kept => exact Nat.le_of_eq opened.symm
  | again url image live unique handles opened known kept => exact opened
  | fresh url free unique handles opened here others => exact opened ▸ Nat.le_succ _

/-- A live image stays in the books, unless an eviction takes its address away. -/
theorem Move.known?_of_live (move : Move exchange event reply next)
    (keeps : reply = none → event.forgets url = false) (live : exchange.live? url = some image) :
    next.broker.known? url = some image := by
  cases move with
  | silent unique fewer opened known kept =>
    exact (kept url (keeps rfl)).trans (live?_eq_some_iff.1 live).1
  | again url' image' live' unique handles opened known kept => exact kept url image live
  | fresh url' free unique handles opened here others =>
    by_cases same : url = url'
    · subst same
      exact absurd (free.symm.trans live) nofun
    · exact (others url same).trans live

/-- What is handed out is alive and stands in the books. -/
theorem Move.live_of_reply {loan : Loan} (move : Move exchange event (some loan) next) :
    loan ∈ next.handles ∧ next.live? loan.url = some loan.image := by
  cases move with
  | again url image live unique handles opened known kept =>
    have held : (⟨url, image⟩ : Loan) ∈ next.handles := handles ▸ List.mem_cons_self
    exact ⟨held, live?_eq_some_iff.2 ⟨kept url image live, alive_iff.2 ⟨_, held, rfl⟩⟩⟩
  | fresh url free unique handles opened here others =>
    have held : (⟨url, exchange.opened⟩ : Loan) ∈ next.handles := handles ▸ List.mem_cons_self
    exact ⟨held, live?_eq_some_iff.2 ⟨here, alive_iff.2 ⟨_, held, rfl⟩⟩⟩

theorem Sound.step (sound : exchange.Sound) (event : Event) : (exchange.step event).2.Sound :=
  sound.move (move_step sound event)

theorem Sound.run (sound : exchange.Sound) (events : List Event) : (exchange.run events).Sound := by
  induction events generalizing exchange with
  | nil => exact sound
  | cons event events ih => exact ih (sound.step event)

theorem Sound.opened_le_run (sound : exchange.Sound) (events : List Event) :
    exchange.opened ≤ (exchange.run events).opened := by
  induction events generalizing exchange with
  | nil => exact Nat.le_refl _
  | cons event events ih =>
    exact Nat.le_trans (move_step sound event).opened_le (ih (sound.step event))

/-- An image that lives on at the end of a run was alive all the time since it was opened. -/
theorem Sound.alive_of_run (sound : exchange.Sound) {events : List Event}
    (old : image < exchange.opened) (lives : (exchange.run events).alive image = true) :
    exchange.alive image = true := by
  induction events generalizing exchange with
  | nil => exact lives
  | cons event events ih =>
    have move := move_step sound event
    exact move.alive_of_alive old
      (ih (sound.step event) (Nat.lt_of_lt_of_le old move.opened_le) lives)

/-- As long as a lent image lives and its address is not evicted, it is the one that is lent. -/
theorem Sound.live?_run (sound : exchange.Sound) {events : List Event}
    (live : exchange.live? url = some image)
    (keeps : ∀ event ∈ events, event.forgets url = false)
    (lives : (exchange.run events).alive image = true) :
    (exchange.run events).live? url = some image := by
  induction events generalizing exchange with
  | nil => exact live
  | cons event events ih =>
    have move := move_step sound event
    have old := sound.known url image (live?_eq_some_iff.1 live).1
    have still := (sound.step event).alive_of_run (Nat.lt_of_lt_of_le old move.opened_le) lives
    have onward := move.known?_of_live (fun _ => keeps event List.mem_cons_self) live
    exact ih (sound.step event) (live?_eq_some_iff.2 ⟨onward, still⟩)
      (fun other member => keeps other (List.mem_cons_of_mem _ member)) lives

/-- An address whose handles are all dropped has no live image. -/
theorem Sound.free_of_dropped (sound : exchange.Sound)
    (dropped : ∀ loan ∈ exchange.handles, loan.url ≠ url) : exchange.live? url = none := by
  cases live : exchange.live? url with
  | none => rfl
  | some image =>
    obtain ⟨known, lives⟩ := live?_eq_some_iff.1 live
    obtain ⟨loan, member, same⟩ := alive_iff.1 lives
    exact absurd (sound.address url image known loan member same) (dropped loan member)

/-- The number of live images is the number of addresses that have one. -/
theorem Sound.count_eq (sound : exchange.Sound) :
    ∃ urls : List String, urls.Nodup ∧ (∀ url, url ∈ urls ↔ (exchange.live? url).isSome) ∧
      exchange.broker.count exchange.alive = urls.length := by
  let living := exchange.broker.known.filter fun loan => exchange.alive loan.2
  have distinct : Broker.Unique ⟨living⟩ := sound.unique.filter _
  refine ⟨living.map Prod.fst, distinct, ?_, (List.length_map _).symm⟩
  intro url
  rw [Option.isSome_iff_exists]
  constructor
  · intro member
    obtain ⟨⟨_, image⟩, there, rfl⟩ := List.mem_map.1 member
    obtain ⟨known, lives⟩ := List.mem_filter.1 there
    exact ⟨image, live?_eq_some_iff.2 ⟨Broker.known?_of_mem sound.unique known, lives⟩⟩
  · rintro ⟨image, live⟩
    obtain ⟨known, lives⟩ := live?_eq_some_iff.1 live
    exact List.mem_map.2 ⟨(url, image), List.mem_filter.2 ⟨Broker.mem_of_known? known, lives⟩, rfl⟩

end Exchange
end RetroMedia
