import RetroMedia.Proofs.Image.Numbering
import RetroMedia.Proofs.Image.Refinement
import RetroMedia.Proofs.Vfs.Directories

/-! Numbered directories. In every format, and under all limits, the directory of an image is numbered
from one on and no larger than allowed. Streams serve its entries under their numbers and in order, and
so does a file that is listed; and limits refuse a directory that is too large as a whole. -/
namespace RetroMedia

namespace File

/-- So many steps of a listing, and the directory afterwards. -/
def nexts (file : File) : Nat → Access (List (Except Failure (Option File)) × File)
  | 0 => return ([], file)
  | count + 1 => do
    let (found, after) ← file.next
    let (more, last) ← after.nexts count
    return (found :: more, last)

/-- The directory with this listing of it going on. -/
def listingOf (file : File) (held : HeldImage) (checkout : Checkout) : File :=
  { file with listing := some (.image held checkout) }

variable {file : File} {host : Host} {alive : ImageId → Bool} {store store' : ImageStore}
  {held : HeldImage} {stream : Checkout} {table : List Entry} {passed : Nat}

theorem nexts_succ (count : Nat) :
    file.nexts (count + 1) ⟨host, alive⟩ store = EStateM.bind (file.next ⟨host, alive⟩)
      (fun (found, after) => EStateM.bind (after.nexts count ⟨host, alive⟩)
        fun (more, last) => pure (found :: more, last)) store := rfl

theorem nexts_of_next {after last : File} {found : Except Failure (Option File)}
    {more : List (Except Failure (Option File))} {count : Nat} {finish : ImageStore}
    (step : file.next ⟨host, alive⟩ store = .ok (found, after) store')
    (rest : after.nexts count ⟨host, alive⟩ store' = .ok (more, last) finish) :
    file.nexts (count + 1) ⟨host, alive⟩ store = .ok (found :: more, last) finish := by
  rw [nexts_succ, EStateM.bind, step]
  dsimp only
  rw [EStateM.bind, rest]
  rfl

theorem next_of_turn (turn : stream.Turn table passed) {entry : Entry}
    (here : table[passed]? = some entry) :
    ∃ after, (file.listingOf held stream).next ⟨host, alive⟩ store
        = .ok (.ok (some (file.ofEntry held entry)), file.listingOf held after) store ∧
      after.Turn table (passed + 1) := by
  obtain ⟨after, step, onward⟩ := turn.next here
  refine ⟨after, ?_, onward⟩
  simp only [next, listingOf, advance, step]
  rfl

theorem next_of_finish (turn : stream.Turn table passed) (spent : table[passed]? = none) :
    (file.listingOf held stream).next ⟨host, alive⟩ store
      = .ok (.ok none, { file with listing := none }) store := by
  obtain ⟨after, step, _⟩ := turn.finish spent
  simp only [next, listingOf, advance, step]

/-- What the steps of a listing that is going on come to, down to the end of the directory. -/
theorem nexts_of_turn (turn : stream.Turn table passed) (left : Nat)
    (size : table.length = passed + left) :
    (file.listingOf held stream).nexts (left + 1) ⟨host, alive⟩ store
      = .ok ((((table.drop passed).map fun entry => some (file.ofEntry held entry)) ++ [none]).map .ok,
          { file with listing := none }) store := by
  induction left generalizing stream passed with
  | zero =>
    have spent : table[passed]? = none := List.getElem?_eq_none (by omega)
    rw [List.drop_eq_nil_of_le (by omega)]
    exact nexts_of_next (next_of_finish turn spent) rfl
  | succ left ih =>
    have inside : passed < table.length := by omega
    obtain ⟨after, step, onward⟩ := next_of_turn turn (List.getElem?_eq_getElem inside)
    rw [List.drop_eq_getElem_cons inside]
    exact nexts_of_next step (ih onward (by omega))

/-- A container that is listed from its beginning comes up with the files of its entries, in order, and
then with nothing. -/
theorem nexts_of_image (idle : file.listing = none)
    (opened : file.image ⟨host, alive⟩ store = .ok held store')
    (shown : (held.image.entries {}).1 = .ok table) :
    file.nexts (table.length + 1) ⟨host, alive⟩ store
      = .ok (((table.map fun entry => some (file.ofEntry held entry)) ++ [none]).map .ok, file)
          store' := by
  have begins : file.next ⟨host, alive⟩ store
      = (file.listingOf held (checkout held)).next ⟨host, alive⟩ store' := by
    rw [next_eq, next_eq, begun, begun, idle,
      startListing_of_container (isHostDirectory_of_image opened), opened]
    rfl
  have ended : { file with listing := none } = file := by rw [← idle]
  have turn : (checkout held).Turn table 0 := ⟨rfl, Checkout.shown_of_entries shown⟩
  have rest := @nexts_of_turn file host alive store' held _ table 0 turn table.length
    (Nat.zero_add _).symm
  rw [nexts_succ, EStateM.bind] at rest ⊢
  rw [begins, rest, ended]
  rfl

end File

/-- The directory of an image, in every format and under all limits. Whatever the users of the image do
and the flag does meanwhile, a directory that is shown is numbered from one on and no larger than
allowed, and every stream serves its entries under their numbers and in order. A file that is this image
is listed as the files of these entries, in the same order. And limits that allow fewer entries refuse a
directory that has more of them, and show any other as it is. -/
theorem directory_numbered_within_limits {url : String} {container : Container}
    {format : Option Format} {limits : Limits} {image : Image}
    (opened : Image.open url container format limits = .ok image) :
    (∀ signals script table,
      let company := (Company.answerAll { image, shared := { signals } } script).2
      (image.entries company.shared).1 = .ok table →
        Orderly limits.maxEntries table ∧ ∀ user, (company.checkout user).Serves table) ∧
    (∀ (file : File) host alive store store' (held : HeldImage) table, file.listing = none →
      file.image ⟨host, alive⟩ store = .ok held store' → held.image = image →
      (image.entries {}).1 = .ok table →
        Orderly limits.maxEntries table ∧ file.nexts (table.length + 1) ⟨host, alive⟩ store
          = .ok (((table.map fun entry => some (file.ofEntry held entry)) ++ [none]).map .ok, file)
              store') ∧
    ∀ most ≥ limits.maxEntries, ∃ wide,
      Image.open url container format (limits.allowing most) = .ok wide ∧ ∀ signals table,
        ((wide.entries { signals }).1 = .ok table → (image.entries { signals }).1
          = if table.length ≤ limits.maxEntries then .ok table else .error .chainTooLong) ∧
        ((image.entries { signals }).1 = .ok table → (wide.entries { signals }).1 = .ok table) := by
  have regular := Image.regular_of_open opened
  have fresh (signals : Signals) : image.Recorded { signals } := by
    intro table never
    cases never
  obtain ⟨rfl, -⟩ := Image.open_allowing opened 0
  refine ⟨?_, ?_, ?_⟩
  · intro signals script table company shown
    obtain ⟨here, known⟩ := @Company.recorded_answerAll image { image, shared := { signals } } rfl
      (fresh signals) script
    exact Company.orderly_of_shown regular here known shown
  · rintro file host alive store store' held table idle reached rfl shown
    exact ⟨((fresh _).lists shown).orderly regular, File.nexts_of_image idle reached shown⟩
  · intro most more
    refine ⟨image.allowing most, (Image.open_allowing opened most).2, ?_⟩
    intro signals table
    exact ⟨Image.entries_of_allowing regular more, Image.entries_allowing regular more⟩

/-- A host with a tape in its root directory. -/
def Host.ofTape : Host := { root := .directory [("tape.t64", .file Tape.ofOneFile)] }

/-- That tape as a file. -/
def File.ofTape : File := .ofHost (.standard {}) (HostPath.ofText "/tape.t64")

/-- A tape with one file, whose directory is shown to two users and listed as a file is. It is too large
for limits that allow no entry at all. -/
theorem directory_numbered_within_limits_of_tape :
    ∃ image held store narrow entry,
      Image.open "/tape.t64" Tape.ofOneFile (some .t64) {} = .ok image ∧
      File.ofTape.image ⟨.ofTape, fun _ => false⟩ {} = .ok held store ∧ held.image = image ∧
      (image.entries {}).1 = .ok [entry] ∧ Orderly 4096 [entry] ∧
      ((Company.answerAll { image } [(0, .entries), (1, .request (.seekIndex 1))]).2.checkout
        1).Serves [entry] ∧
      File.ofTape.nexts 2 ⟨.ofTape, fun _ => false⟩ {}
        = .ok ([.ok (some (File.ofTape.ofEntry held entry)), .ok none], .ofTape) store ∧
      Image.open "/tape.t64" Tape.ofOneFile (some .t64) { maxEntries := 0 } = .ok narrow ∧
      (narrow.entries {}).1 = .error .chainTooLong := by
  obtain ⟨image, held, store, narrow, entry, opened, reached, same, shown, kept, opened'⟩ :
      ∃ image held store narrow entry,
        Image.open "/tape.t64" Tape.ofOneFile (some .t64) {} = .ok image ∧
        File.ofTape.image ⟨.ofTape, fun _ => false⟩ {} = .ok held store ∧ held.image = image ∧
        (image.entries {}).1 = .ok [entry] ∧
        (image.entries (Company.answerAll { image }
          [(0, .entries), (1, .request (.seekIndex 1))]).2.shared).1 = .ok [entry] ∧
        Image.open "/tape.t64" Tape.ofOneFile (some .t64) { maxEntries := 0 } = .ok narrow :=
    ⟨_, _, _, _, _, rfl, rfl, rfl, rfl, rfl, rfl⟩
  obtain ⟨served, listed, _⟩ := directory_numbered_within_limits opened
  obtain ⟨orderly, serves⟩ :=
    served {} [(0, .entries), (1, .request (.seekIndex 1))] [entry] kept
  have steps := (listed .ofTape .ofTape (fun _ => false) {} store held [entry] rfl reached same
    shown).2
  obtain ⟨_, _, bounded⟩ := directory_numbered_within_limits opened'
  obtain ⟨wide, again, law⟩ := bounded 4096 (Nat.zero_le _)
  cases opened.symm.trans again
  exact ⟨image, held, store, narrow, entry, opened, reached, same, shown, orderly,
    serves 1, steps, opened', (law {} [entry]).1 shown⟩

end RetroMedia
