import RetroMedia.Gcr.Track
import RetroMedia.Proofs.Checked.Groups
import RetroMedia.Proofs.Gcr.Search
import RetroMedia.Proofs.Gcr.Sync

/-! Tracks searched with checked accesses. A machine goes along the two copies of a track by its
position, where the search itself holds on to what is left of them. -/
namespace RetroMedia.Checked

open Gcr (SectorHeader SectorData nextSync nextSync_drop)

/-- The first position behind a run of ones. -/
def skipOnes (track : Bytes) (position : Nat) : Checked (Option Nat) := do
  if _inside : position < track.length then
    if (← item track position) == 0xFF then
      let _ ← add UInt64.size position 1
      skipOnes track (position + 1)
    else return some position
  else return none
termination_by track.length - position

/-- The position after the next sync mark. -/
def findSync (track : Bytes) (position : Nat) : Checked (Option Nat) := do
  let _ ← add UInt64.size position 1
  if _inside : position + 1 < track.length then
    if Gcr.beginsSync (← item track position) (← item track (position + 1)) then
      skipOnes track (position + 1)
    else findSync track (position + 1)
  else return none
termination_by track.length - position

variable {track : Bytes}

theorem skipOnes_eq (addressable : track.length < UInt64.size) (position : Nat) :
    skipOnes track position
      = .ok ((Gcr.skipOnes (track.drop position) position).map (·.1)) := by
  induction left : track.length - position generalizing position with
  | zero =>
    rw [skipOnes, dif_neg (by omega), List.drop_eq_nil_of_le (by omega)]
    rfl
  | succ left ih =>
    have inside : position < track.length := by omega
    rw [skipOnes, dif_pos inside, List.drop_eq_getElem_cons inside, Gcr.skipOnes,
      item_eq (List.getElem?_eq_getElem inside), ok_bind]
    split
    · rw [add_eq (by omega), ok_bind, ih (position + 1) (by omega)]
    · rfl

theorem findSync_eq (addressable : track.length < UInt64.size) {position : Nat}
    (near : position + 1 < UInt64.size) :
    findSync track position = .ok ((nextSync (track.drop position) position).map (·.1)) := by
  induction left : track.length - position generalizing position with
  | zero =>
    rw [findSync, add_eq near, ok_bind, dif_neg (by omega), List.drop_eq_nil_of_le (by omega)]
    rfl
  | succ left ih =>
    have here : position < track.length := by omega
    rw [findSync, add_eq near, ok_bind, List.drop_eq_getElem_cons here]
    by_cases inside : position + 1 < track.length
    · rw [dif_pos inside, item_eq (List.getElem?_eq_getElem here), ok_bind,
        item_eq (List.getElem?_eq_getElem inside), ok_bind, List.drop_eq_getElem_cons inside,
        nextSync, ← List.drop_eq_getElem_cons inside]
      split
      · exact skipOnes_eq addressable (position + 1)
      · exact ih (by omega) (by omega)
    · rw [dif_neg inside, List.drop_eq_nil_of_le (by omega)]
      rfl

/-- Every mark that a search finds lies ahead, faults or not. -/
theorem skipOnes_le {position after : Nat} (found : skipOnes track position = .ok (some after)) :
    position ≤ after ∧ after < track.length := by
  induction left : track.length - position generalizing position with
  | zero =>
    rw [skipOnes, dif_neg (by omega)] at found
    cases found
  | succ left ih =>
    have inside : position < track.length := by omega
    rw [skipOnes, dif_pos inside, item_eq (List.getElem?_eq_getElem inside), ok_bind] at found
    split at found
    · unfold add fit at found
      split at found
      · have onward := ih found (by omega)
        omega
      · cases found
    · cases found
      exact ⟨Nat.le_refl _, inside⟩

theorem findSync_lt {position after : Nat} (found : findSync track position = .ok (some after)) :
    position < after ∧ after < track.length := by
  induction left : track.length - position generalizing position with
  | zero =>
    rw [findSync, dif_neg (by omega)] at found
    unfold add fit at found
    split at found <;> cases found
  | succ left ih =>
    rw [findSync] at found
    unfold add fit at found
    split at found
    · rw [ok_bind] at found
      split at found
      · rename_i inside
        rw [item_eq (List.getElem?_eq_getElem (by omega)), ok_bind,
          item_eq (List.getElem?_eq_getElem inside), ok_bind] at found
        split at found
        · have ahead := skipOnes_le found
          omega
        · have ahead := ih found (by omega)
          omega
      · cases found
    · cases found

/-- The data block of the sector whose header stands at a position, if the header names the wanted
sector: the outer option says whether it does. -/
def sectorAt (track : Bytes) (number sector : UInt8) (position : Nat) :
    Checked (Option (Option SectorData)) := do
  match ← readHeader track position with
  | some header =>
    if header.names number sector then
      match ← findSync track (← add UInt64.size position Gcr.headerSize) with
      | some start => return some (← readData track start)
      | none => return some none
    else return none
  | none => return none

theorem sectorAt_eq (addressable : track.length + Gcr.headerSize + 1 < UInt64.size)
    (number sector : UInt8) {position : Nat} (inside : position < track.length) :
    sectorAt track number sector position
      = .ok (Gcr.Track.sectorAt number sector position (track.drop position)) := by
  unfold sectorAt Gcr.Track.sectorAt
  rw [readHeader_eq, ok_bind]
  cases SectorHeader.decode? (track.drop position) with
  | none => rfl
  | some header =>
    dsimp only
    split
    · rw [add_eq (by omega), ok_bind, findSync_eq (by omega) (by omega), ok_bind, List.drop_drop]
      cases found : nextSync (track.drop (position + Gcr.headerSize)) (position + Gcr.headerSize) with
      | none => rfl
      | some mark =>
        obtain ⟨_, _, rest⟩ := @nextSync_drop track mark.2 (position + Gcr.headerSize) mark.1 found
        simp only [Option.map_some, Option.bind_some, readData_eq, ← rest]
        rfl
    · rfl

/-- Go from sync mark to sync mark until one revolution is over. -/
def scan (track : Bytes) (length : Nat) (number sector : UInt8) (position : Nat) (headerSeen : Bool) :
    Program Progress SectorData := do
  let missing := if headerSeen then MediaError.badGcr else .invalidLocation
  if position < length then
    tick
    match _found : findSync track position with
    | .error fault => liftM (throw fault : Checked SectorData)
    | .ok none => throw missing
    | .ok (some after) =>
      match ← sectorAt track number sector after with
      | some (some data) => return data
      | some none => scan track length number sector after true
      | none => scan track length number sector after headerSeen
  else throw missing
termination_by track.length - position
decreasing_by all_goals have := findSync_lt _found; omega

/-- The data of a sector. -/
def findSector (track : Gcr.Track) (number sector : UInt8) : Program Progress SectorData := do
  let _ ← mul UInt64.size track.bytes.length 2
  scan track.doubled track.bytes.length number sector 0 false

theorem scan_of_lost {length position : Nat} (number sector : UInt8) (headerSeen : Bool)
    (inside : position < length) (lost : findSync track position = .ok none) :
    scan track length number sector position headerSeen
      = tick >>= fun _ => throw (Gcr.Track.missing headerSeen) := by
  rw [scan, if_pos inside]
  congr 1
  funext _
  split
  · rename_i failed
    rw [lost] at failed
    cases failed
  · rfl
  · rename_i found
    rw [lost] at found
    cases found

theorem scan_of_found {length position after : Nat} (number sector : UInt8) (headerSeen : Bool)
    (inside : position < length) (found : findSync track position = .ok (some after)) :
    scan track length number sector position headerSeen = (do
      tick
      match ← sectorAt track number sector after with
      | some (some data) => return data
      | some none => scan track length number sector after true
      | none => scan track length number sector after headerSeen) := by
  rw [scan, if_pos inside]
  congr 1
  funext _
  split
  · rename_i failed
    rw [found] at failed
    cases failed
  · rename_i lost
    rw [found] at lost
    cases lost
  · rename_i same
    rw [found] at same
    cases same
    rfl

/-- A search takes at most a step for every two bytes of the revolution. -/
theorem takes_scan (addressable : track.length + Gcr.headerSize + 1 < UInt64.size) {length : Nat}
    (short : length ≤ track.length) (number sector : UInt8) (position : Nat) (headerSeen : Bool) :
    Takes ((length - position + 1) / 2) (scan track length number sector position headerSeen)
      (Gcr.Track.scan length number sector position (track.drop position) headerSeen)
      fun _ => True := by
  induction left : length - position using Nat.strongRecOn generalizing position headerSeen with
  | ind left ih =>
    by_cases inside : position < length
    · have same := @findSync_eq track (by omega) position (by omega)
      match found : nextSync (track.drop position) position with
      | none =>
        rw [found] at same
        rw [scan_of_lost number sector headerSeen inside same,
          Gcr.Track.scan_of_lost number sector headerSeen inside found]
        exact (takes_tick.bind fun _ _ => takes_throw _).mono (by omega)
      | some (after, rest) =>
        rw [found] at same
        obtain ⟨ahead, within, rfl⟩ := nextSync_drop found
        rw [scan_of_found number sector headerSeen inside same,
          Gcr.Track.scan_of_found number sector headerSeen inside found]
        have onward (seen : Bool) := ih (length - after) (by omega) after seen rfl
        have looked : Takes ((length - after + 1) / 2)
            (liftM (sectorAt track number sector after) >>= fun found => match found with
              | some (some data) => pure data
              | some none => scan track length number sector after true
              | none => scan track length number sector after headerSeen)
            (match Gcr.Track.sectorAt number sector after (track.drop after) with
              | some (some data) => return data
              | some none => Gcr.Track.scan length number sector after (track.drop after) true
              | none => Gcr.Track.scan length number sector after (track.drop after) headerSeen)
            fun _ => True := by
          apply Takes.lift (sectorAt_eq addressable number sector within)
          split
          · exact (takes_pure trivial).mono (Nat.zero_le _)
          · exact onward true
          · exact onward headerSeen
        exact (takes_tick.bind fun _ _ => looked).mono (by omega)
    · rw [scan, if_neg inside, Gcr.Track.scan, if_neg inside]
      exact (takes_throw _).mono (Nat.zero_le _)

theorem takes_findSector {track : Gcr.Track} (addressable : track.doubled.length ≤ longestArray)
    (number sector : UInt8) :
    Takes ((track.bytes.length + 1) / 2) (findSector track number sector)
      (track.findSector number sector) fun _ => True := by
  have size : track.doubled.length = track.bytes.length * 2 := by
    rw [Gcr.Track.doubled, List.length_append, Nat.mul_two]
  have wide : longestArray + Gcr.headerSize + 1 < UInt64.size := by decide
  unfold findSector Gcr.Track.findSector
  apply Takes.lift (mul_eq (by omega))
  exact takes_scan (by omega) (by omega) number sector 0 false

/-! No track is so long that an access leaves it: the word may overflow, but every access is made
where the track has been found to reach. -/

/-- The computation makes no access outside of its arrays. -/
def Inside (computation : Checked α) : Prop := computation ≠ .error .outOfBounds

theorem Inside.bind {computation : Checked α} {next : α → Checked β} (first : Inside computation)
    (rest : ∀ value, computation = .ok value → Inside (next value)) :
    Inside (computation >>= next) := by
  cases computation with
  | ok value => exact rest value rfl
  | error fault =>
    intro same
    apply first
    cases same
    rfl

end RetroMedia.Checked
