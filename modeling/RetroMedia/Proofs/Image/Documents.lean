import RetroMedia.Proofs.Image.Request
import RetroMedia.Proofs.Json.Paths
import RetroMedia.Proofs.Progress.Counting
import RetroMedia.Proofs.Text.Wildcard

/-! Documents as images. Each member of a document is found under its name, and nothing else is. -/
namespace RetroMedia

namespace Document

/-- The entries of a document, in order. -/
def table (document : Document) : List Entry := document.members.mapIdx entryOf

theorem listMembers_eq (position : Nat) (members : List (String × Json)) :
    listMembers position members
      = Walk.counted (.ok (members.mapIdx fun place => entryOf (position + place))) members.length := by
  induction members generalizing position with
  | nil => rfl
  | cons member members ih =>
    have rest := Walk.counted_bind
      (.ok (members.mapIdx fun place => entryOf (position + 1 + place))) members.length
      fun more => .ok (entryOf position member :: more)
    have numbers : (fun place => entryOf (position + (place + 1)))
        = fun place => entryOf (position + 1 + place) := by
      funext place
      rw [Nat.add_assoc, Nat.add_comm 1 place]
    rw [listMembers, List.length_cons, Walk.counted_succ, ih, List.mapIdx_cons, numbers]
    exact congrArg (Progress.tick >>= fun _ => ·) rest

/-- A document of no more members than allowed is listed, as long as nobody interferes. -/
theorem entries_of_room {document : Document} {progress : Progress} {bound : Nat}
    (limited : progress.bound = some bound) (room : progress.count + document.members.length ≤ bound)
    (calm : progress.signals.Calm) :
    ∃ after, document.entries progress = .ok document.table after := by
  have fits : ∀ bound, progress.bound = some bound →
      progress.count + document.members.length ≤ bound := by
    intro other same
    rw [limited] at same
    cases same
    exact room
  obtain ⟨after, _, ⟨_, step⟩ | ⟨stopped, _⟩⟩ := Walk.counted_cases (.ok document.table) fits
  · refine ⟨after, ?_⟩
    rw [entries, listMembers_eq]
    simp only [Nat.zero_add]
    exact step
  · exact absurd stopped calm.not_interrupted

end Document

namespace Checkout

variable {image : Image} {document : Document} {name : String}

/-- A name is looked up among the members of a document. -/
theorem seekEntry_of_document (same : image.handler = .document document)
    (room : document.members.length ≤ image.limits.maxEntries) (plain : Wildcard.Plain name) :
    (∃ position inner after, document.members[position]? = some (name, inner) ∧
        seekEntry name { image } = .ok (Document.entryOf position (name, inner)) after) ∨
      (∀ inner, (name, inner) ∉ document.members) ∧
        ∃ after, seekEntry name { image } = .error .notFound after := by
  obtain ⟨after, listed⟩ := @Document.entries_of_room document (image.entryCounter {})
    image.limits.maxEntries rfl (by simpa [Image.entryCounter] using room) Signals.calm_quiet
  have step : image.handler.entries (image.entryCounter {}) = .ok document.table after := by
    rw [same]
    exact listed
  have looked := seekEntry_of_entries (@entries_of_listed { image } _ _ rfl step) name
  rw [looked]
  have sensitive : image.handler.caseSensitive = true := by
    rw [same]
    rfl
  dsimp only
  simp only [sensitive, Wildcard.fits_of_plain plain]
  cases found : document.table.find? fun entry => name == entry.name with
  | some entry =>
    obtain ⟨position, inside, rfl⟩ := List.mem_mapIdx.1 (List.mem_of_find?_eq_some found)
    have named : name = document.members[position].1 :=
      beq_iff_eq.1 (List.find?_some (p := fun entry : Entry => name == entry.name) found)
    rw [named]
    exact .inl ⟨position, document.members[position].2, _, List.getElem?_eq_getElem inside, rfl⟩
  | none =>
    refine .inr ⟨?_, _, rfl⟩
    intro inner listed
    obtain ⟨position, inside, here⟩ := List.getElem_of_mem listed
    have other := List.find?_eq_none.1 found _ (List.mem_mapIdx.2 ⟨position, inside, rfl⟩)
    rw [here] at other
    exact other (beq_self_eq_true name)

end Checkout
end RetroMedia
