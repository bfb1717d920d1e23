import RetroMedia.Broker.Session
import RetroMedia.Proofs.Broker.Exchange

/-! One image for an address. However the clients of a broker get in each other's way, two handles of
one address that live at the same time are handles of the same image, unless the address was evicted
between the moments at which they were handed out. -/
namespace RetroMedia

namespace Exchange

variable {exchange : Exchange} {url : String} {image : ImageId}

theorem move_of_reply {event : Event} {loan : Loan} (sound : exchange.Sound)
    (reply : (exchange.step event).1 = some loan) :
    Move exchange event (some loan) (exchange.step event).2 :=
  reply ▸ move_step sound event

/-- Two loans of one address, of which the first lives on after the second. -/
theorem Sound.same_image (sound : exchange.Sound) {first second : Event} {between after : List Event}
    {lent lent' : Loan} (early : (exchange.step first).1 = some lent)
    (keeps : ∀ event ∈ between, event.forgets lent.url = false)
    (late : (((exchange.step first).2.run between).step second).1 = some lent')
    (same : lent'.url = lent.url)
    (lives : lent ∈ ((((exchange.step first).2.run between).step second).2.run after).handles) :
    lent'.image = lent.image := by
  have sound₁ := sound.step first
  have sound₂ := sound₁.run between
  have move := move_of_reply sound₂ late
  obtain ⟨held, live⟩ := (move_of_reply sound early).live_of_reply
  have old := sound₁.held lent held
  have old₂ := Nat.lt_of_lt_of_le old (sound₁.opened_le_run between)
  have alive := ((sound₂.step second).alive_of_run (Nat.lt_of_lt_of_le old₂ move.opened_le)
    (alive_iff.2 ⟨lent, lives, rfl⟩))
  have still := sound₁.live?_run live keeps (move.alive_of_alive old₂ alive)
  have mapped := move.known?_of_live nofun still
  have mapped' := (live?_eq_some_iff.1 move.live_of_reply.2).1
  rw [same, mapped] at mapped'
  exact (Option.some.inj mapped').symm

/-- To obtain the address of a live image, at once or at the end of a race, hands out this image. -/
theorem Sound.obtain_of_live (sound : exchange.Sound) (live : exchange.live? url = some image) :
    exchange.step (.begin url) = exchange.lend ⟨url, image⟩ ∧
      (url ∈ exchange.waiting → (exchange.step (.finish url true)).1 = some ⟨url, image⟩) := by
  constructor
  · simp only [Exchange.step, live]
  · intro waits
    rw [step_finish_of_live sound waits live]
    rfl

/-- No loan takes a live image away from its address. -/
theorem Move.live?_of_reply {event : Event} {loan : Loan} {next : Exchange}
    (move : Move exchange event (some loan) next) (live : exchange.live? url = some image) :
    next.live? url = some image := by
  obtain ⟨holder, member, same⟩ := alive_iff.1 (live?_eq_some_iff.1 live).2
  have still : next.alive image = true := by
    refine alive_iff.2 ⟨holder, ?_, same⟩
    cases move with
    | again url' image' live' unique handles opened known kept =>
      exact handles ▸ List.mem_cons_of_mem _ member
    | fresh url' free unique handles opened here others =>
      exact handles ▸ List.mem_cons_of_mem _ member
  exact live?_eq_some_iff.2 ⟨move.known?_of_live nofun live, still⟩

/-- To obtain an address without a live image opens one, and hands out what was opened. -/
theorem Sound.obtain_of_free (sound : exchange.Sound) (free : exchange.live? url = none) :
    exchange.step (.begin url) = (none, { exchange with waiting := url :: exchange.waiting }) ∧
      (url ∈ exchange.waiting →
        (exchange.step (.finish url true)).1 = some ⟨url, exchange.opened⟩ ∧
          ∀ loan ∈ exchange.handles, loan.image ≠ exchange.opened) := by
  constructor
  · exact step_begin_of_free free
  · intro waits
    rw [step_finish_of_free sound waits free]
    exact ⟨rfl, fun loan member => Nat.ne_of_lt (sound.held loan member)⟩

/-- At most one shared image for an address, after any run. Of two loans of one address the second
is of the image of the first, if a handle of the first lives at any time after both, and the address
was not evicted between them. To obtain an address with a live image hands out this image, also at the
end of a race, and no loan replaces a live image. An image that cannot be opened changes nothing in
the books. An address without a handle is opened by whoever obtains it next, who gets an image that no
other handle has. And the books count the addresses of live images. -/
theorem one_image (before : List Event) :
    let exchange := run {} before
    (∀ first between second after lent lent', (exchange.step first).1 = some lent →
      (∀ event ∈ between, event.forgets lent.url = false) →
      (((exchange.step first).2.run between).step second).1 = some lent' →
      lent'.url = lent.url →
      lent ∈ ((((exchange.step first).2.run between).step second).2.run after).handles →
      lent'.image = lent.image) ∧
    (∀ url image, exchange.live? url = some image →
      exchange.step (.begin url) = exchange.lend ⟨url, image⟩ ∧
      (url ∈ exchange.waiting → (exchange.step (.finish url true)).1 = some ⟨url, image⟩) ∧
      ∀ event loan, (exchange.step event).1 = some loan →
        (exchange.step event).2.live? url = some image) ∧
    (∀ url, (exchange.step (.finish url false)).1 = none ∧
      (exchange.step (.finish url false)).2.broker = exchange.broker) ∧
    (∀ url, (∀ loan ∈ exchange.handles, loan.url ≠ url) →
      exchange.step (.begin url) = (none, { exchange with waiting := url :: exchange.waiting }) ∧
      (url ∈ exchange.waiting →
        (exchange.step (.finish url true)).1 = some ⟨url, exchange.opened⟩ ∧
        ∀ loan ∈ exchange.handles, loan.image ≠ exchange.opened)) ∧
    ∃ urls : List String, urls.Nodup ∧ (∀ url, url ∈ urls ↔ (exchange.live? url).isSome) ∧
      exchange.broker.count exchange.alive = urls.length := by
  have sound : (run {} before).Sound := sound_empty.run before
  refine ⟨?_, ?_, ?_, ?_, sound.count_eq⟩
  · intro first between second after lent lent' early keeps late same lives
    exact sound.same_image early keeps late same lives
  · intro url image live
    obtain ⟨hit, race⟩ := sound.obtain_of_live live
    exact ⟨hit, race, fun event loan reply => (move_of_reply sound reply).live?_of_reply live⟩
  · intro url
    simp only [step]
    split
    · exact ⟨rfl, rfl⟩
    · exact ⟨rfl, rfl⟩
  · intro url dropped
    exact sound.obtain_of_free (sound.free_of_dropped dropped)

/-- Two clients open an address at the same time. The second to be done gets the image of the first,
and the one that it opened is lent to nobody. -/
theorem one_image_of_race :
    let racing := run {} [.begin "a", .begin "a"]
    let first := racing.step (.finish "a" true)
    let second := first.2.step (.finish "a" true)
    ∃ lent lent', first.1 = some lent ∧ second.1 = some lent' ∧ lent'.image = lent.image ∧
      second.2.opened = 2 ∧ second.2.broker.count second.2.alive = 1 := by
  refine ⟨⟨"a", 0⟩, ⟨"a", 0⟩, by decide, by decide, ?_, by decide, by decide⟩
  exact (one_image [.begin "a", .begin "a"]).1 (.finish "a" true) [] (.finish "a" true) [] _ _
    (by decide) nofun (by decide) rfl (by decide)

theorem alive_of_handles (exchange : Exchange) (loan : Loan) {next : Exchange}
    (more : next.handles = loan :: exchange.handles) :
    next.alive = fun image => exchange.alive image || image == loan.image := by
  funext image
  rw [Exchange.alive, more, List.any_cons, Bool.or_comm, BEq.comm]
  rfl

/-- An address that nobody has is opened twice at the same time. -/
theorem run_nested (free : exchange.live? url = none) (idle : exchange.waiting = []) :
    let books := exchange.broker.settle exchange.alive url exchange.opened
    let held := fun image => exchange.alive image || image == books.1
    let books' := books.2.settle held url (exchange.opened + 1)
    exchange.run [.begin url, .begin url, .finish url true, .finish url true]
      = { broker := books'.2, opened := exchange.opened + 2,
          handles := ⟨url, books'.1⟩ :: ⟨url, books.1⟩ :: exchange.handles } := by
  obtain ⟨broker, handles, waiting, opened⟩ := exchange
  cases idle
  have free' : Exchange.live? ⟨broker, handles, [url], opened⟩ url = none := free
  intro books held books'
  let between : Exchange := ⟨books.2, ⟨url, books.1⟩ :: handles, [url], opened + 1⟩
  have inner : Exchange.step ⟨broker, handles, [url, url], opened⟩ (.finish url true)
      = (some ⟨url, books.1⟩, between) := by
    rw [step_finish List.mem_cons_self]
    simp only [lend, List.erase_cons_head]
    rfl
  have living : between.alive = held :=
    alive_of_handles ⟨broker, handles, [], opened⟩ ⟨url, books.1⟩ rfl
  rw [run_cons, step_begin_of_free free, run_cons, step_begin_of_free free', run_cons, inner, run_cons,
    step_finish List.mem_cons_self, living]
  simp only [lend, run, between, List.erase_cons_head]
  rfl

end Exchange

namespace BrokerSession

open Exchange

/-- What a session does when it obtains an address. -/
def events (session : BrokerSession) (url : String) (source : Except MediaError Image)
    (nested : Bool) : List Event :=
  match session.get? url, source with
  | some _, _ => [.begin url]
  | none, .error _ => [.begin url, .finish url false]
  | none, .ok _ =>
    if nested then [.begin url, .begin url, .finish url true, .finish url true]
    else [.begin url, .finish url true]

/-- The session and the exchange have the same books and keep the same images alive. -/
structure Mirrors (session : BrokerSession) (exchange : Exchange) : Prop where
  broker : session.broker = exchange.broker
  alive : session.alive = exchange.alive
  opened : session.opened.size = exchange.opened
  idle : exchange.waiting = []

variable {session : BrokerSession} {exchange : Exchange}

/-- To obtain an address, also while it is being obtained, is a run of the steps above: it leaves the
same books and hands out the same image. -/
theorem obtain_eq_run (mirrors : session.Mirrors exchange) (url : String)
    (source : Except MediaError Image) (nested : Bool) :
    let after := exchange.run (session.events url source nested)
    (session.obtain url source nested).2.broker = after.broker ∧
      (session.obtain url source nested).2.opened.size = after.opened ∧
      ∀ obtained, (session.obtain url source nested).1 = .ok obtained →
        ⟨url, obtained.image⟩ ∈ after.handles := by
  obtain ⟨books, living, opened, idle⟩ := mirrors
  have found : session.broker.get? session.alive url = exchange.live? url := by
    rw [books, living]
    rfl
  unfold events get? obtain
  rw [found]
  cases live : exchange.live? url with
  | some image =>
    simp [run, step, live, lend, books, opened]
  | none =>
    cases source with
    | error error =>
      dsimp only
      rw [run_cons, step_begin_of_free live, run_cons]
      simp [step, run, books, opened]
    | ok image =>
      have still (books : Broker) (more : Array (Image × Shared)) :
          BrokerSession.alive ⟨books, more, session.kept⟩ = exchange.alive := living
      have still' (books : Broker) (more : Array (Image × Shared)) (image : ImageId) :
          BrokerSession.alive ⟨books, more, session.kept⟩ image = exchange.alive image :=
        congrFun living image
      cases nested with
      | true =>
        dsimp only
        rw [if_pos rfl, if_pos rfl, run_nested live idle]
        simp [enroll, books, opened, still, still']
      | false =>
        dsimp only
        rw [if_neg (by decide), if_neg (by decide), run_cons, step_begin_of_free live, run_cons,
          step_finish List.mem_cons_self]
        simp only [enroll, books, opened, still, run, lend, Array.size_push]
        refine ⟨rfl, trivial, ?_⟩
        rintro _ ⟨⟩
        exact List.mem_cons_self

end BrokerSession
end RetroMedia
