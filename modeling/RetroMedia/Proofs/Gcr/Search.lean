import RetroMedia.Gcr.Track
import RetroMedia.Proofs.Gcr.Sync
import RetroMedia.Proofs.Progress.Counting

/-! The search of a track for a sector, without its counter. The counted search goes a
fixed course and comes to the same. -/
namespace RetroMedia.Gcr.Track

/-- What a search that finds nothing reports. -/
def missing (headerSeen : Bool) : MediaError := if headerSeen then .badGcr else .invalidLocation

/-- Go from sync mark to sync mark until one revolution is over. -/
def search (length : Nat) (number sector : UInt8) (position : Nat) (bytes : Bytes)
    (headerSeen : Bool) : Except MediaError SectorData :=
  if position < length then
    match _found : nextSync bytes position with
    | none => .error (missing headerSeen)
    | some (after, rest) =>
      match sectorAt number sector after rest with
      | some (some data) => .ok data
      | some none => search length number sector after rest true
      | none => search length number sector after rest headerSeen
  else .error (missing headerSeen)
termination_by bytes.length
decreasing_by all_goals exact nextSync_length_lt _found

theorem search_of_past {length position : Nat} {bytes : Bytes} {number sector : UInt8}
    {headerSeen : Bool} (past : length ≤ position) :
    search length number sector position bytes headerSeen = .error (missing headerSeen) := by
  rw [search, if_neg (Nat.not_lt.2 past)]

theorem search_of_lost {length position : Nat} {bytes : Bytes} {number sector : UInt8}
    {headerSeen : Bool}
    (inside : position < length) (lost : nextSync bytes position = none) :
    search length number sector position bytes headerSeen = .error (missing headerSeen) := by
  rw [search, if_pos inside]
  split
  · rfl
  · rename_i found
    rw [lost] at found
    cases found

theorem search_of_found {length position after : Nat} {bytes rest : Bytes} {number sector : UInt8}
    {headerSeen : Bool}
    (inside : position < length) (found : nextSync bytes position = some (after, rest)) :
    search length number sector position bytes headerSeen
      = match sectorAt number sector after rest with
        | some (some data) => .ok data
        | some none => search length number sector after rest true
        | none => search length number sector after rest headerSeen := by
  rw [search, if_pos inside]
  split
  · rename_i lost
    rw [found] at lost
    cases lost
  · rename_i same
    rw [found] at same
    cases same
    rfl

/-- What says nothing of the sector is left behind. -/
theorem search_of_unnamed {length position after : Nat} {bytes rest : Bytes} {number sector : UInt8}
    {headerSeen : Bool} (inside : position < length)
    (found : nextSync bytes position = some (after, rest))
    (other : sectorAt number sector after rest = none) :
    search length number sector position bytes headerSeen
      = search length number sector after rest headerSeen := by
  rw [search_of_found inside found, other]

/-- Where a mark is found, a step counts it and looks at what follows. -/
theorem scan_of_found {length position after : Nat} {bytes rest : Bytes}
    (number sector : UInt8) (headerSeen : Bool) (inside : position < length)
    (found : nextSync bytes position = some (after, rest)) :
    scan length number sector position bytes headerSeen = (do
      Progress.tick
      match sectorAt number sector after rest with
      | some (some data) => return data
      | some none => scan length number sector after rest true
      | none => scan length number sector after rest headerSeen) := by
  rw [scan, if_pos inside]
  congr 1
  funext _
  split
  · rename_i lost
    rw [found] at lost
    cases lost
  · rename_i same
    rw [found] at same
    cases same
    rfl

theorem scan_of_lost {length position : Nat} {bytes : Bytes} (number sector : UInt8)
    (headerSeen : Bool) (inside : position < length) (lost : nextSync bytes position = none) :
    scan length number sector position bytes headerSeen = (do
      Progress.tick
      throw (missing headerSeen)) := by
  rw [scan, if_pos inside]
  congr 1
  funext _
  split
  · rfl
  · rename_i found
    rw [lost] at found
    cases found

/-- The steps that a search counts, and what it comes to, depend on the track alone. Since a mark
takes up two bytes at least, there is no more than a step for every two bytes. -/
theorem scan_eq_counted_le (length : Nat) (number sector : UInt8) (position : Nat) (bytes : Bytes)
    (headerSeen : Bool) :
    ∃ steps, scan length number sector position bytes headerSeen
        = Walk.counted (search length number sector position bytes headerSeen) steps ∧
      2 * steps ≤ length - position + 1 := by
  fun_induction search length number sector position bytes headerSeen with
  | case1 position bytes headerSeen inside lost =>
    refine ⟨1, ?_, by omega⟩
    rw [scan_of_lost number sector headerSeen inside lost]
    rfl
  | case2 position bytes headerSeen inside after rest found data here =>
    refine ⟨1, ?_, by omega⟩
    rw [scan_of_found number sector headerSeen inside found, here]
    rfl
  | case3 position bytes headerSeen inside after rest found here ih =>
    obtain ⟨steps, same, few⟩ := ih
    obtain ⟨passed, _, long, moved, _⟩ := nextSync_found found
    refine ⟨steps + 1, ?_, by omega⟩
    rw [scan_of_found number sector headerSeen inside found, here, Walk.counted_succ, ← same]
  | case4 position bytes headerSeen inside after rest found here ih =>
    obtain ⟨steps, same, few⟩ := ih
    obtain ⟨passed, _, long, moved, _⟩ := nextSync_found found
    refine ⟨steps + 1, ?_, by omega⟩
    rw [scan_of_found number sector headerSeen inside found, here, Walk.counted_succ, ← same]
  | case5 position bytes headerSeen outside =>
    refine ⟨0, ?_, by omega⟩
    rw [scan, if_neg outside]
    rfl

theorem scan_eq_counted (length : Nat) (number sector : UInt8) (position : Nat) (bytes : Bytes)
    (headerSeen : Bool) :
    ∃ steps, scan length number sector position bytes headerSeen
      = Walk.counted (search length number sector position bytes headerSeen) steps := by
  obtain ⟨steps, same, _⟩ := scan_eq_counted_le length number sector position bytes headerSeen
  exact ⟨steps, same⟩

/-- The search of a track fails in two ways only. -/
theorem search_eq_error {length : Nat} {number sector : UInt8} {position : Nat} {bytes : Bytes}
    {headerSeen : Bool} {error : MediaError}
    (failed : search length number sector position bytes headerSeen = .error error) :
    error = .invalidLocation ∨ error = .badGcr := by
  have lost (headerSeen : Bool) (same : missing headerSeen = error) :
      error = .invalidLocation ∨ error = .badGcr := by
    subst same
    cases headerSeen
    · exact .inl rfl
    · exact .inr rfl
  fun_induction search length number sector position bytes headerSeen with
  | case1 => exact lost _ (Except.error.inj failed)
  | case2 => cases failed
  | case3 position bytes headerSeen inside after rest found here ih => exact ih failed
  | case4 position bytes headerSeen inside after rest found here ih => exact ih failed
  | case5 => exact lost _ (Except.error.inj failed)

end RetroMedia.Gcr.Track
