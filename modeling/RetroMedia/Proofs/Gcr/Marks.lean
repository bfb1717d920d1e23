import RetroMedia.Proofs.Checked.Track

/-! The sync marks of a track. Whatever bytes a track holds, the search for a sector is decided by the
marks that one revolution comes to: the first one behind which the sector's header and its data
stand, or else whether its header stands behind any. Main statement: the search comes to just that,
within half as many steps as there are bytes and without a look past the two copies of the track. -/
namespace RetroMedia.Gcr

theorem findSync_found {track : Bytes} {position after : Nat}
    (found : findSync track position = some after) :
    position + 2 ≤ after ∧ after < track.length ∧
      nextSync (track.drop position) position = some (after, track.drop after) := by
  unfold findSync at found
  obtain ⟨⟨_, rest⟩, here, rfl⟩ := Option.map_eq_some_iff.1 found
  obtain ⟨ahead, inside, rfl⟩ := nextSync_drop here
  exact ⟨ahead, inside, here⟩

theorem findSync_eq_none_iff {track : Bytes} {position : Nat} :
    findSync track position = none ↔ nextSync (track.drop position) position = none :=
  Option.map_eq_none_iff

namespace Track

/-- Does a header of the sector stand at a position? -/
def namedAt (track : Track) (number sector : UInt8) (position : Nat) : Bool :=
  (SectorHeader.decode? (track.doubled.drop position)).any (·.names number sector)

/-- The data block behind the mark that follows the header at a position. -/
def dataAt (track : Track) (position : Nat) : Option SectorData :=
  (findSync track.doubled (position + headerSize)).bind fun start =>
    SectorData.decode? (track.doubled.drop start)

/-- The data of the sector whose header stands at a position. -/
def foundAt (track : Track) (number sector : UInt8) (position : Nat) : Option SectorData :=
  if track.namedAt number sector position then track.dataAt position else none

/-- What is found at the first of some positions, or why nothing is. -/
def verdict (track : Track) (number sector : UInt8) (headerSeen : Bool) (positions : List Nat) :
    Except MediaError SectorData :=
  match positions.findSome? (track.foundAt number sector) with
  | some data => .ok data
  | none => .error (missing (headerSeen || positions.any (track.namedAt number sector)))

variable (track : Track) (number sector : UInt8)

/-- What stands behind a mark, in terms of its position. -/
theorem sectorAt_eq (position : Nat) :
    sectorAt number sector position (track.doubled.drop position)
      = if track.namedAt number sector position then some (track.dataAt position) else none := by
  unfold sectorAt namedAt dataAt
  cases SectorHeader.decode? (track.doubled.drop position) with
  | none => rfl
  | some header =>
    dsimp only [Option.any]
    split
    · cases found : findSync track.doubled (position + headerSize) with
      | none =>
        rw [List.drop_drop, findSync_eq_none_iff.1 found]
        rfl
      | some start =>
        rw [List.drop_drop, (findSync_found found).2.2]
        rfl
    · rfl

variable {track number sector}

/-- What stands at the first of some positions decides how the others are looked at. -/
theorem verdict_cons (headerSeen : Bool) (position : Nat) (positions : List Nat) :
    track.verdict number sector headerSeen (position :: positions)
      = match sectorAt number sector position (track.doubled.drop position) with
        | some (some data) => .ok data
        | some none => track.verdict number sector true positions
        | none => track.verdict number sector headerSeen positions := by
  rw [sectorAt_eq, verdict, List.findSome?_cons, List.any_cons, foundAt]
  cases named : track.namedAt number sector position with
  | false => simp [verdict]
  | true => cases track.dataAt position <;> simp [verdict]

end Track
end RetroMedia.Gcr
