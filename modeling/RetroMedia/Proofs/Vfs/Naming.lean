import RetroMedia.Proofs.Image.Request
import RetroMedia.Proofs.Text.Wildcard
import RetroMedia.Proofs.Vfs.Plain

/-! Names as a directory shows them. A stored name may be shown with characters that stand for more than
themselves, so a name that is given back as it was shown is a pattern again: it leads to the first entry
that it fits, which may be another one than it was shown for. -/
namespace RetroMedia

open Wildcard (SameName)

/-- The first entry of a directory, at a place in it, whose name fits a pattern. -/
structure FirstFit (caseSensitive : Bool) (table : List Entry) (pattern : String) (first : Nat)
    (found : Entry) : Prop where
  here : table[first]? = some found
  fits : Wildcard.fits pattern found.name caseSensitive = true
  earliest : ∀ place < first, ∀ other, table[place]? = some other →
    Wildcard.fits pattern other.name caseSensitive = false

/-- Every entry that a name fits only as a pattern comes behind an entry of the very name. -/
def Unmasked (caseSensitive : Bool) (table : List Entry) (name : String) : Prop :=
  ∀ (place : Nat) (other : Entry), table[place]? = some other →
    Wildcard.fits name other.name caseSensitive = true → ¬ SameName caseSensitive name other.name →
    ∃ earlier < place, ∃ same : Entry, table[earlier]? = some same ∧
      SameName caseSensitive name same.name

/-- No two entries have the same name. -/
def Distinct (caseSensitive : Bool) (table : List Entry) : Prop :=
  ∀ (place place' : Nat) (entry entry' : Entry), table[place]? = some entry →
    table[place']? = some entry' → SameName caseSensitive entry.name entry'.name →
    place = place'

section FirstFit

variable {caseSensitive : Bool} {table : List Entry} {pattern : String} {first : Nat} {found : Entry}

/-- Where some entry fits, there is a first one, which is not behind it. -/
theorem exists_firstFit {place : Nat} {entry : Entry} (here : table[place]? = some entry)
    (fits : Wildcard.fits pattern entry.name caseSensitive = true) :
    ∃ first found, first ≤ place ∧ FirstFit caseSensitive table pattern first found := by
  induction place using Nat.strongRecOn generalizing entry with
  | ind place ih =>
    by_cases more : ∃ earlier < place, ∃ other, table[earlier]? = some other ∧
        Wildcard.fits pattern other.name caseSensitive = true
    · obtain ⟨earlier, before, other, there, fits'⟩ := more
      obtain ⟨first, found, within, law⟩ := ih earlier before there fits'
      exact ⟨first, found, Nat.le_trans within (Nat.le_of_lt before), law⟩
    · refine ⟨place, entry, Nat.le_refl place, here, fits, ?_⟩
      intro earlier before other there
      rw [Bool.eq_false_iff]
      exact fun fits' => more ⟨earlier, before, other, there, fits'⟩

namespace FirstFit

variable (law : FirstFit caseSensitive table pattern first found)
include law

theorem find?_eq :
    table.find? (fun entry => Wildcard.fits pattern entry.name caseSensitive) = some found := by
  obtain ⟨within, same⟩ := List.getElem?_eq_some_iff.1 law.here
  refine List.find?_eq_some_iff_getElem.2 ⟨law.fits, first, within, same, ?_⟩
  intro place before
  rw [law.earliest place before _ (List.getElem?_eq_getElem (Nat.lt_trans before within))]
  rfl

/-- No entry before it has the very name. -/
theorem not_sameName {place : Nat} (before : place < first) {other : Entry}
    (there : table[place]? = some other) : ¬ SameName caseSensitive pattern other.name := by
  intro same
  have fits := Wildcard.fits_of_sameName same
  rw [law.earliest place before other there] at fits
  cases fits

/-- The entry has the very name, unless it masks all that have it. -/
theorem sameName_iff :
    SameName caseSensitive pattern found.name ↔ Unmasked caseSensitive table pattern := by
  constructor
  · intro same place other there fits different
    refine ⟨first, ?_, found, law.here, same⟩
    rcases Nat.lt_trichotomy place first with before | rfl | behind
    · rw [law.earliest place before other there] at fits
      cases fits
    · cases law.here.symm.trans there
      exact absurd same different
    · exact behind
  · intro unmasked
    by_contra different
    obtain ⟨earlier, before, same, there, equal⟩ := unmasked first found law.here law.fits different
    exact law.not_sameName before there equal

end FirstFit

/-- A name without wild characters is masked by nothing. -/
theorem unmasked_of_plain (plain : Wildcard.Plain pattern) :
    Unmasked caseSensitive table pattern := by
  intro place other there fits different
  rw [Wildcard.fits_eq_of_plain plain, beq_iff_eq] at fits
  exact absurd fits different

end FirstFit

namespace Checkout

variable {checkout after : Checkout} {table : List Entry}

theorem image_of_entries (listed : entries checkout = .ok table after) :
    after.image = checkout.image := by
  unfold entries at listed
  split at listed
  · cases listed
    rfl
  · cases listed

/-- A pattern selects the first entry that it fits, as the number of this entry does. -/
theorem seekEntry_of_firstFit (listed : entries checkout = .ok table after) {pattern : String}
    {first : Nat} {found : Entry}
    (law : FirstFit checkout.image.handler.caseSensitive table pattern first found) :
    ∃ settled : Checkout, settled.stream.selected = some found ∧
      seekEntry pattern checkout = .ok found settled ∧
      seekIndex (first + 1) checkout = .ok found settled := by
  rw [seekEntry_of_entries listed, seekIndex_of_entries listed, image_of_entries listed, law.find?_eq,
    law.here]
  exact ⟨_, rfl, rfl, rfl⟩

end Checkout

namespace File

/-- In a container, a pattern leads to the file of the first entry that it fits. -/
theorem child_of_firstFit {file : File} {surroundings : Surroundings} {store after : ImageStore}
    {held : HeldImage} (opened : file.image surroundings store = .ok held after) {table : List Entry}
    {listing : Checkout} (listed : Checkout.entries (checkout held) = .ok table listing)
    {pattern : String} {first : Nat} {found : Entry}
    (law : FirstFit held.image.handler.caseSensitive table pattern first found) :
    file.child pattern surroundings store = .ok (file.ofEntry held found) after := by
  obtain ⟨settled, _, step, _⟩ := Checkout.seekEntry_of_firstFit listed law
  rw [child_of_container (isHostDirectory_of_image opened), opened]
  dsimp only
  rw [step]

end File

/-- A name that a directory shows leads to an entry that it fits as a pattern, and to the first one of
them: to look for the name selects what the number of this entry selects, and as the name of a child it
leads to the same entry. The entry has the very name, and is the first one that does, if and only if no
other entry comes before all of that name which the name fits as a pattern. So it is if there is no wild
character in the name; and where, besides, the names are distinct, the name and the number of its entry
select the same. -/
theorem listed_name_resolves {checkout after : Checkout} {table : List Entry}
    (listed : Checkout.entries checkout = .ok table after) {place : Nat} {entry : Entry}
    (here : table[place]? = some entry) :
    ∃ first found, first ≤ place ∧
      FirstFit checkout.image.handler.caseSensitive table entry.name first found ∧
      (∃ settled : Checkout, settled.stream.selected = some found ∧
        Checkout.seekEntry entry.name checkout = .ok found settled ∧
        Checkout.seekIndex (first + 1) checkout = .ok found settled) ∧
      (∀ (file : File) (surroundings : Surroundings) (store store' : ImageStore) (held : HeldImage)
        (listing : Checkout), file.image surroundings store = .ok held store' →
        held.image = checkout.image → Checkout.entries (File.checkout held) = .ok table listing →
        file.child entry.name surroundings store = .ok (file.ofEntry held found) store') ∧
      (SameName checkout.image.handler.caseSensitive entry.name found.name ↔
        Unmasked checkout.image.handler.caseSensitive table entry.name) ∧
      (∀ earlier < first, ∀ other, table[earlier]? = some other →
        ¬ SameName checkout.image.handler.caseSensitive entry.name other.name) ∧
      (Wildcard.Plain entry.name →
        Unmasked checkout.image.handler.caseSensitive table entry.name) ∧
      (Distinct checkout.image.handler.caseSensitive table →
        Unmasked checkout.image.handler.caseSensitive table entry.name →
        Checkout.seekEntry entry.name checkout = Checkout.seekIndex (place + 1) checkout) := by
  obtain ⟨first, found, within, law⟩ := exists_firstFit here (Wildcard.fits_of_sameName rfl)
  obtain ⟨settled, selected, named, numbered⟩ := Checkout.seekEntry_of_firstFit listed law
  refine ⟨first, found, within, law, ⟨settled, selected, named, numbered⟩, ?_, law.sameName_iff,
    fun earlier before other there => law.not_sameName before there, unmasked_of_plain, ?_⟩
  · intro file surroundings store store' held listing opened same listed'
    rw [← same] at law
    exact File.child_of_firstFit opened listed' law
  · intro distinct unmasked
    have equal := law.sameName_iff.2 unmasked
    obtain rfl := distinct place first entry found here law.here equal
    rw [named, numbered]

/-- A tape with two files. The second byte of the second name has no rendition and is shown as a
question mark. -/
def Tape.ofTwoNames : Container :=
  .ofBytes (signature ++ List.replicate 29 0 ++ [0, 0, 2, 0, 2, 0] ++ List.replicate 26 0
    ++ [1, 0x82, 0x01, 0x08, 0x02, 0x08, 0, 0, 0x80, 0, 0, 0, 0, 0, 0, 0, 0x41, 0x42]
    ++ List.replicate 14 0x20
    ++ [1, 0x82, 0x00, 0x10, 0x02, 0x10, 0, 0, 0x81, 0, 0, 0, 0, 0, 0, 0, 0x41, 0x01]
    ++ List.replicate 14 0x20 ++ [7, 8, 9])

set_option maxRecDepth 4000 in
/-- The first file of the tape is found under its name, in which nothing is wild. -/
theorem listed_name_resolves_of_tape :
    ∃ image table after entry, Image.open "tape" Tape.ofTwoNames none {} = .ok image ∧
      Checkout.entries { image } = .ok table after ∧ table[0]? = some entry ∧ entry.name = "AB" ∧
      ∃ found settled, Checkout.seekEntry "AB" { image } = .ok found settled ∧
        SameName image.handler.caseSensitive "AB" found.name := by
  obtain ⟨image, table, after, entry, opened, listed, here, named⟩ : ∃ image table after entry,
      Image.open "tape" Tape.ofTwoNames none {} = .ok image ∧
        Checkout.entries { image } = .ok table after ∧ table[0]? = some entry ∧ entry.name = "AB" :=
    ⟨_, _, _, _, rfl, rfl, rfl, by decide⟩
  obtain ⟨first, found, _, _, ⟨settled, _, step, _⟩, _, same, _, unmasked, _⟩ :=
    listed_name_resolves listed here
  rw [named] at step same unmasked
  exact ⟨image, table, after, entry, opened, listed, here, named, found, settled, step,
    same.2 (unmasked (by simp [Wildcard.Plain]))⟩

set_option maxRecDepth 4000 in
/-- The second file of the tape is shown under a name of its own and yet not found under it: the name
leads to the first file, which holds other bytes. -/
theorem shown_name_misleads :
    ∃ image table after other entry, Image.open "tape" Tape.ofTwoNames none {} = .ok image ∧
      Checkout.entries { image } = .ok table after ∧ table = [other, entry] ∧
      ¬ SameName image.handler.caseSensitive entry.name other.name ∧
      (∃ settled, Checkout.seekEntry entry.name { image } = .ok other settled ∧
        (settled.read 9).1 = .ok [0x01, 0x08]) ∧
      ∃ settled, Checkout.seekIndex 2 { image } = .ok entry settled ∧
        (settled.read 9).1 = .ok [0x00, 0x10] :=
  ⟨_, _, _, _, _, rfl, rfl, rfl, by decide, ⟨_, rfl, rfl⟩, ⟨_, rfl, rfl⟩⟩

end RetroMedia
