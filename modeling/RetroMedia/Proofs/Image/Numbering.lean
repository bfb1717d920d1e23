import RetroMedia.Proofs.Image.Enumeration
import RetroMedia.Proofs.Image.Listing
import RetroMedia.Proofs.Image.Position
import RetroMedia.Proofs.Image.Request

/-! Directories as their users find them. At any time, and whatever its users did before, the directory
of an image is numbered from one on and no larger than its limits allow; an entry is found under its
number, and comes up when it is its turn. -/
namespace RetroMedia

/-- Numbered from one on, and with no more entries than allowed. -/
structure Orderly (most : Nat) (table : List Entry) : Prop where
  numbered : table.map (·.index) = List.range' 1 table.length
  bounded : table.length ≤ most

theorem Orderly.index_eq {most before : Nat} {table : List Entry} {entry : Entry}
    (orderly : Orderly most table) (here : table[before]? = some entry) : entry.index = before + 1 := by
  have place := congrArg (·[before]?) orderly.numbered
  obtain ⟨inside, _⟩ := List.getElem?_eq_some_iff.1 here
  simp only [List.getElem?_map, here, Option.map_some, List.getElem?_range' inside,
    Option.some.injEq] at place
  omega

namespace Image

variable {image : Image} {table : List Entry} {shared : Shared}

/-- The image under limits for directories of another size. -/
def allowing (image : Image) (entries : Nat) : Image :=
  { image with limits := image.limits.allowing entries }

/-- The handler comes to this directory, under whatever signals. -/
def Lists (image : Image) (table : List Entry) : Prop :=
  ∃ signals after, image.handler.entries (image.entryCounter signals) = .ok table after

/-- A container opens the same under limits for directories of another size. -/
theorem open_allowing {url : String} {container : Container} {format : Option Format}
    {limits : Limits} (opened : Image.open url container format limits = .ok image) (most : Nat) :
    image.limits = limits ∧
      Image.open url container format (limits.allowing most) = .ok (image.allowing most) := by
  unfold Image.open at opened ⊢
  cases found : Handler.open container format with
  | error error =>
    rw [found] at opened
    cases opened
  | ok handler =>
    rw [found] at opened
    cases opened
    exact ⟨rfl, rfl⟩

theorem tally_of_listed (regular : image.handler.Regular) {signals : Signals} {after : Progress}
    (listed : image.handler.entries (image.entryCounter signals) = .ok table after) :
    Tally 1 (image.entryCounter signals) table after := by
  have law := Handler.enumerates_entries regular _ _ (.refl (image.entryCounter signals))
  rw [listed] at law
  exact law.2.2.2

theorem Lists.orderly (regular : image.handler.Regular) (lists : image.Lists table) :
    Orderly image.limits.maxEntries table := by
  obtain ⟨signals, after, listed⟩ := lists
  have tally := tally_of_listed regular listed
  exact ⟨tally.numbered, tally.takes.le_bound rfl rfl⟩

theorem tighter_entryCounter (image : Image) {most : Nat} (more : image.limits.maxEntries ≤ most)
    (signals : Signals) :
    (image.entryCounter signals).Tighter ((image.allowing most).entryCounter signals) where
  limits := rfl
  fewer := more
  count := rfl
  signals := rfl
  bound := by
    intro most' same
    cases same
    exact ⟨image.limits.maxEntries, more, rfl⟩

/-- A directory is refused if it has more entries than the limits allow, and is otherwise what it is
under limits that allow more. -/
theorem entries_of_allowing (regular : image.handler.Regular) {most : Nat}
    (more : image.limits.maxEntries ≤ most) {signals : Signals}
    (listed : ((image.allowing most).entries { signals }).1 = .ok table) :
    (image.entries { signals }).1
      = if table.length ≤ image.limits.maxEntries then .ok table else .error .chainTooLong := by
  obtain ⟨after, step⟩ := listed_of_entries listed
  have tally := @tally_of_listed (image.allowing most) table regular signals after step
  have count : after.count = 0 + table.length := tally.takes.count
  have law := Handler.enumerates_entries regular _ _ (image.tighter_entryCounter more signals)
  rw [show image.handler.entries _ = _ from step] at law
  match step' : image.handler.entries (image.entryCounter signals) with
  | .ok table' after' =>
    rw [step'] at law
    obtain ⟨rfl, _, _, tally'⟩ := law
    rw [entries_of_ok step', if_pos (tally'.takes.le_bound rfl rfl)]
  | .error error after' =>
    rw [step'] at law
    obtain ⟨rfl, _, overrun⟩ := law
    have many : image.limits.maxEntries < table.length := by
      rw [count, Nat.zero_add] at overrun
      rcases overrun with many | full
      · exact many
      · exact of_decide_eq_true full
    rw [entries_of_error step', if_neg (by omega)]

/-- A directory is never cut short: what the limits let pass is the same under limits that allow
more. -/
theorem entries_allowing (regular : image.handler.Regular) {most : Nat}
    (more : image.limits.maxEntries ≤ most) {signals : Signals}
    (listed : (image.entries { signals }).1 = .ok table) :
    ((image.allowing most).entries { signals }).1 = .ok table := by
  obtain ⟨after, step⟩ := listed_of_entries listed
  have law := Handler.enumerates_entries regular _ _ (image.tighter_entryCounter more signals)
  rw [step] at law
  match step' : (image.allowing most).handler.entries ((image.allowing most).entryCounter signals) with
  | .ok table' after' =>
    rw [show image.handler.entries _ = _ from step'] at law
    obtain ⟨rfl, _⟩ := law
    rw [entries_of_ok step']
  | .error error after' =>
    rw [show image.handler.entries _ = _ from step'] at law
    exact law.elim

/-- If a directory is kept, it is one that the handler came to. -/
def Recorded (image : Image) (shared : Shared) : Prop :=
  ∀ table, shared.table = some table → image.Lists table

theorem Recorded.lists (recorded : image.Recorded shared)
    (shown : (image.entries shared).1 = .ok table) : image.Lists table := by
  unfold entries at shown
  split at shown
  · rename_i kept
    cases shown
    exact recorded _ kept
  · split at shown
    · rename_i after step
      cases shown
      exact ⟨_, after, step⟩
    · cases shown

theorem Recorded.entries (recorded : image.Recorded shared) :
    image.Recorded (image.entries shared).2 := by
  unfold Image.entries
  split
  · exact recorded
  · split
    · rename_i listed after step
      rintro table same
      cases same
      exact ⟨_, after, step⟩
    · exact recorded

end Image

namespace Checkout

variable {image : Image} {checkout after : Checkout} {table : List Entry} {most : Nat}

/-- A stream of the image whose directory, if it is kept, is one that the handler came to. -/
structure Recorded (image : Image) (checkout : Checkout) : Prop where
  here : checkout.image = image
  known : image.Recorded checkout.shared

/-- No request replaces the directory that is kept by another one. -/
theorem conducts_recorded (image : Image) :
    Conducts image fun first second => first = second ∧ first.Recorded image where
  image_eq := by
    rintro _ _ ⟨rfl, recorded⟩
    exact ⟨recorded.here, recorded.here⟩
  stream_eq := by
    rintro _ _ ⟨rfl, _⟩
    rfl
  entries := by
    apply lockstep_self
    rintro checkout ⟨rfl, known⟩
    have kept := known.entries
    unfold entries
    split <;> rename_i listed <;> split at listed <;> rename_i same <;> rw [same] at kept <;>
      cases listed <;> exact ⟨rfl, kept⟩
  choose selected := lockstep_self fun _ recorded => ⟨recorded.here, recorded.known⟩
  walk cursor := lockstep_self fun _ recorded => ⟨recorded.here, recorded.known⟩
  move position _ := lockstep_self fun _ recorded => ⟨recorded.here, recorded.known⟩
  chainSize location := by
    apply lockstep_self
    rintro checkout ⟨here, known⟩
    unfold Checkout.chainSize
    split <;> rename_i listed <;> split at listed <;> cases listed <;> exact ⟨here, known⟩
  seek := by
    rintro checkout _ ⟨rfl, recorded⟩ target
    obtain ⟨same, kept, _⟩ := checkout.seek_sameChoice target
    refine ⟨rfl, rfl, same.trans recorded.here, ?_⟩
    intro table found
    exact recorded.known table (kept.symm.trans found)
  read := by
    rintro checkout _ ⟨rfl, recorded⟩ count
    obtain ⟨same, kept, _⟩ := checkout.read_sameChoice count
    refine ⟨rfl, rfl, same.trans recorded.here, ?_⟩
    intro table found
    exact recorded.known table (kept.symm.trans found)

/-- A stream is shown the directory of its image. -/
theorem shown_of_entries (shown : (checkout.image.entries checkout.shared).1 = .ok table) :
    ∃ after, entries checkout = .ok table after := by
  unfold entries
  rcases found : checkout.image.entries checkout.shared with ⟨result, shared⟩
  rw [found] at shown
  cases shown
  exact ⟨_, rfl⟩

/-- Once the directory was shown it is kept, and the stream stands where it stood. -/
theorem kept_of_entries (step : entries checkout = .ok table after) :
    after.shared.table = some table ∧ after.stream = checkout.stream := by
  unfold entries at step
  split at step
  · rename_i shared listed
    cases step
    refine ⟨?_, rfl⟩
    unfold Image.entries at listed
    split at listed
    · rename_i known
      cases listed
      exact known
    · split at listed <;> cases listed
      rfl
  · cases step

theorem entries_of_kept (kept : checkout.shared.table = some table) :
    entries checkout = .ok table checkout := by
  unfold entries Image.entries
  rw [kept]

/-- The stream with the walk through the directory behind so many entries. -/
def atCursor (checkout : Checkout) (cursor : Nat) : Checkout :=
  { checkout with stream := { checkout.stream with cursor } }

/-- The walk has no part in what the directory is. -/
theorem entries_atCursor (step : entries checkout = .ok table after) (cursor : Nat) :
    entries (checkout.atCursor cursor) = .ok table (after.atCursor cursor) := by
  unfold entries at step ⊢
  dsimp only [atCursor]
  split at step <;> cases step
  rfl

/-- The next entry is the one at the cursor. -/
theorem nextEntry_of_entries (step : entries checkout = .ok table after) :
    nextEntry checkout = match table[checkout.stream.cursor]? with
      | some entry => .ok (some entry) (after.atCursor (checkout.stream.cursor + 1))
      | none => .ok none (after.atCursor 0) := by
  obtain ⟨_, stream⟩ := kept_of_entries step
  rw [nextEntry, run_of_ok step, run_get, ← stream]
  cases table[after.stream.cursor]? <;> rfl

/-- A stream whose directory can be shown, with the walk through it behind so many entries. -/
structure Turn (table : List Entry) (passed : Nat) (checkout : Checkout) : Prop where
  cursor : checkout.stream.cursor = passed
  shown : ∃ after, entries checkout = .ok table after

theorem turn_atCursor (step : entries checkout = .ok table after) (cursor : Nat) :
    (after.atCursor cursor).Turn table cursor := by
  obtain ⟨kept, _⟩ := kept_of_entries step
  exact ⟨rfl, _, @entries_of_kept (after.atCursor cursor) table kept⟩

/-- As long as there are entries, each one comes up in its turn. -/
theorem Turn.next {passed : Nat} {entry : Entry} (turn : checkout.Turn table passed)
    (here : table[passed]? = some entry) :
    ∃ after, nextEntry checkout = .ok (some entry) after ∧ after.Turn table (passed + 1) := by
  obtain ⟨cursor, after, step⟩ := turn
  have next := nextEntry_of_entries step
  rw [cursor, here] at next
  exact ⟨_, next, turn_atCursor step (passed + 1)⟩

/-- Behind the last entry the walk comes to its end and starts again. -/
theorem Turn.finish {passed : Nat} (turn : checkout.Turn table passed)
    (spent : table[passed]? = none) :
    ∃ after, nextEntry checkout = .ok none after ∧ after.Turn table 0 := by
  obtain ⟨cursor, after, step⟩ := turn
  have next := nextEntry_of_entries step
  rw [cursor, spent] at next
  exact ⟨_, next, turn_atCursor step 0⟩

/-- What asking for one entry after another is answered, down to the end of the directory. -/
theorem Turn.serveAll {passed : Nat} (turn : checkout.Turn table passed) (left : Nat)
    (size : table.length = passed + left) :
    (checkout.serveAll (List.replicate (left + 1) .nextEntry)).1
      = ((table.drop passed).map some ++ [none]).map fun found => .ok (.next found) := by
  induction left generalizing checkout passed with
  | zero =>
    have spent : table[passed]? = none := List.getElem?_eq_none (by omega)
    obtain ⟨after, step, _⟩ := turn.finish spent
    rw [List.drop_eq_nil_of_le (by omega)]
    simp only [List.replicate, Checkout.serveAll, serve, step]
    rfl
  | succ left ih =>
    have inside : passed < table.length := by omega
    have here : table[passed]? = some table[passed] := List.getElem?_eq_getElem inside
    obtain ⟨after, step, onward⟩ := turn.next here
    have rest := ih onward (by omega)
    rw [List.drop_eq_getElem_cons inside, List.replicate_succ]
    simp only [Checkout.serveAll, serve, step]
    change _ :: (after.serveAll (List.replicate (left + 1) .nextEntry)).1 = _
    rw [rest]
    rfl

/-- How a stream serves the entries of a directory: each one under its number and nothing under any
other, and all of them in order to who starts again and asks for the next one until there is none. -/
structure Serves (checkout : Checkout) (table : List Entry) : Prop where
  byNumber : ∀ number entry, (∃ after, checkout.serve (.seekIndex number) = (.ok (.entry entry), after) ∧
    after.stream.selected = some entry) ↔ entry ∈ table ∧ entry.index = number
  inTurn : (checkout.serveAll (.rewind :: List.replicate (table.length + 1) .nextEntry)).1
    = .ok .done :: (table.map some ++ [none]).map fun found => .ok (.next found)

/-- What a stream answers that is asked for the entry with a number. -/
theorem serve_seekIndex (step : entries checkout = .ok table after) (before : Nat) :
    checkout.serve (.seekIndex (before + 1)) = match table[before]? with
      | some entry => (.ok (.entry entry), { after with
          stream := { after.stream with selected := some entry, reader := none, entryPosition := 0 } })
      | none => (.error .notFound, after) := by
  simp only [serve, seekIndex_of_entries step]
  cases table[before]? <;> rfl

theorem serves_of_entries (orderly : Orderly most table) (step : entries checkout = .ok table after) :
    checkout.Serves table where
  byNumber number entry := by
    constructor
    · rintro ⟨last, served, _⟩
      match number with
      | 0 => cases served
      | before + 1 =>
        rw [serve_seekIndex step] at served
        cases here : table[before]? with
        | none =>
          rw [here] at served
          cases served
        | some found =>
          rw [here] at served
          cases served
          exact ⟨List.mem_of_getElem? here, orderly.index_eq here⟩
    · rintro ⟨member, rfl⟩
      obtain ⟨before, here⟩ := List.mem_iff_getElem?.1 member
      rw [orderly.index_eq here, serve_seekIndex step, here]
      exact ⟨_, rfl, rfl⟩
  inTurn := by
    have turn : (checkout.atCursor 0).Turn table 0 := ⟨rfl, _, entries_atCursor step 0⟩
    have rest := turn.serveAll table.length (Nat.zero_add _).symm
    exact congrArg (.ok .done :: ·) rest

end Checkout

namespace Company

variable {image : Image} {company : Company}

theorem recorded_answer (here : company.image = image) (known : image.Recorded company.shared)
    (user : Nat) (inquiry : Inquiry) :
    (company.answer user inquiry).2.image = image ∧
      image.Recorded (company.answer user inquiry).2.shared := by
  have recorded : (company.checkout user).Recorded image := ⟨here, known⟩
  have onward := ((Checkout.conducts_recorded image).answer ⟨rfl, recorded⟩ inquiry).2.2
  exact ⟨here, onward.known⟩

/-- Whatever the users of an image do, a directory that is kept is one that the handler came to. -/
theorem recorded_answerAll (here : company.image = image) (known : image.Recorded company.shared)
    (script : List (Nat × Inquiry)) :
    (company.answerAll script).2.image = image ∧
      image.Recorded (company.answerAll script).2.shared := by
  induction script generalizing company with
  | nil => exact ⟨here, known⟩
  | cons step rest ih =>
    obtain ⟨user, inquiry⟩ := step
    obtain ⟨same, onward⟩ := recorded_answer here known user inquiry
    exact ih same onward

/-- At any time, a directory that is shown is orderly, and all users are served by it. -/
theorem orderly_of_shown (regular : image.handler.Regular) (here : company.image = image)
    (known : image.Recorded company.shared) {table : List Entry}
    (shown : (image.entries company.shared).1 = .ok table) :
    Orderly image.limits.maxEntries table ∧
      ∀ user, (company.checkout user).Serves table := by
  have orderly := (known.lists shown).orderly regular
  refine ⟨orderly, ?_⟩
  intro user
  subst here
  obtain ⟨after, step⟩ := @Checkout.shown_of_entries (company.checkout user) table shown
  exact Checkout.serves_of_entries orderly step

end Company
end RetroMedia
