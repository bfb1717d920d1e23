import RetroMedia.Gcr.Sector
import RetroMedia.Proofs.Checked.Bytes
import RetroMedia.Proofs.Gcr.Code

/-! Group codes with checked accesses: the table of codes is looked up with five bits at a time, and the
blocks of a track are cut into groups. -/
namespace RetroMedia.Checked

open Gcr (Group Decoded SectorHeader SectorData)

/-- The nibble of each five-bit code. -/
def nibbles : List (Option Nat) := (List.range 32).map Gcr.nibbleOf?

theorem nibble_eq (packed index : Nat) :
    item nibbles (Gcr.codeAt packed index) = .ok (Gcr.nibbleOf? (Gcr.codeAt packed index)) := by
  have small : Gcr.codeAt packed index < 32 := Nat.mod_lt _ (by decide)
  apply item_eq
  rw [nibbles, List.getElem?_map, List.getElem?_range small]
  rfl

/-- One of the four bytes that five bytes hold. -/
def decodeByte (packed index : Nat) : Checked (Option UInt8) := do
  let high ← item nibbles (Gcr.codeAt packed (2 * index))
  let low ← item nibbles (Gcr.codeAt packed (2 * index + 1))
  return do return UInt8.ofNat (16 * (← high) + (← low))

theorem decodeByte_eq (packed index : Nat) : decodeByte packed index
    = .ok (Gcr.byteOf? (Gcr.codeAt packed (2 * index)) (Gcr.codeAt packed (2 * index + 1))) := by
  rw [decodeByte, nibble_eq, ok_bind, nibble_eq, ok_bind]
  rfl

/-- The group in the first five bytes of a run. -/
def decodeGroup (run : Bytes) : Checked Group := do
  let packed := Gcr.pack (← item run 0) (← item run 1) (← item run 2) (← item run 3) (← item run 4)
  let bytes ← (List.range 4).mapM (decodeByte packed)
  return {
    bytes := bytes.map (·.getD Gcr.unreadable)
    converted := (bytes.takeWhile (·.isSome)).length }

theorem decodeGroup_eq (a b c d e : UInt8) (rest : Bytes) :
    decodeGroup (a :: b :: c :: d :: e :: rest) = .ok (Gcr.decodeGroup a b c d e) := by
  have bytes := mapM_eq fun index (_ : index ∈ List.range 4) =>
    decodeByte_eq (Gcr.pack a b c d e) index
  change ((List.range 4).mapM (decodeByte (Gcr.pack a b c d e)) >>= fun bytes => _) = _
  rw [bytes]
  rfl

/-- Decode groups onto those before them. The count of good bytes stands still at the first error. -/
def decodeRuns : List Bytes → Bytes → Option Nat → Checked Decoded
  | [], plain, good => return ⟨plain, good.getD plain.length⟩
  | run :: rest, plain, good => do
    let group ← decodeGroup run
    let reached ← add UInt64.size plain.length group.converted
    decodeRuns rest (plain ++ group.bytes)
      (if group.isBad && good.isNone then some reached else good)

/-- The first `count` groups of a coded run, if it is long enough. -/
def decodeGroups (count : Nat) (coded : Bytes) : Checked (Option Decoded) := do
  let size ← mul UInt64.size count 5
  if coded.length < size then return none
  else return some (← decodeRuns (Bytes.chunks 5 count (← part coded 0 size)) [] none)

/-- Five bytes make a group. -/
theorem exists_group {coded : Bytes} (enough : 5 ≤ coded.length) :
    ∃ a b c d e rest, coded = a :: b :: c :: d :: e :: rest := by
  rcases coded with _ | ⟨a, _ | ⟨b, _ | ⟨c, _ | ⟨d, _ | ⟨e, rest⟩⟩⟩⟩⟩
  case cons.cons.cons.cons.cons => exact ⟨a, b, c, d, e, rest, rfl⟩
  all_goals simp at enough

theorem decodeGroups_none {count : Nat} {coded : Bytes} (short : coded.length < count * 5) :
    Gcr.decodeGroups count coded = none := by
  induction count generalizing coded with
  | zero => omega
  | succ count ih =>
    match coded, short with
    | a :: b :: c :: d :: e :: rest, short =>
      rw [Gcr.decodeGroups, ih (by simp at short; omega)]
      rfl
    | [], _ | [_], _ | [_, _], _ | [_, _, _], _ | [_, _, _, _], _ => rfl

/-- Groups are found wherever there are enough bytes for them. -/
theorem decodeGroups_some {count : Nat} {coded : Bytes} (enough : count * 5 ≤ coded.length) :
    ∃ decoded, Gcr.decodeGroups count coded = some decoded := by
  induction count generalizing coded with
  | zero => exact ⟨_, rfl⟩
  | succ count ih =>
    obtain ⟨a, b, c, d, e, rest, rfl⟩ := @exists_group coded (by omega)
    obtain ⟨tail, read⟩ := @ih rest (by simp at enough; omega)
    exact ⟨_, by rw [Gcr.decodeGroups, read]; rfl⟩

theorem decodeRuns_eq {count : Nat} {coded : Bytes} {decoded : Decoded}
    (found : Gcr.decodeGroups count coded = some decoded) {plain : Bytes} (good : Option Nat)
    (addressable : plain.length + 4 * count < UInt64.size) :
    decodeRuns (Bytes.chunks 5 count coded) plain good
      = .ok ⟨plain ++ decoded.bytes, good.getD (plain.length + decoded.good)⟩ := by
  induction count generalizing coded decoded plain good with
  | zero =>
    cases found
    simp [Bytes.chunks, decodeRuns]
  | succ count ih =>
    have enough : 5 ≤ coded.length := Nat.not_lt.1 fun short => by
      rw [decodeGroups_none (by omega)] at found
      cases found
    obtain ⟨a, b, c, d, e, rest, rfl⟩ := exists_group enough
    simp only [Gcr.decodeGroups, Option.bind_eq_bind, Option.bind_eq_some_iff] at found
    obtain ⟨tail, read, same⟩ := found
    cases same
    have size := Gcr.length_decodeGroup a b c d e
    generalize whole : Gcr.decodeGroup a b c d e = group at size
    have few : group.converted ≤ 4 := by
      rw [← whole]
      exact (List.takeWhile_prefix _).length_le
    rw [Bytes.chunks, decodeRuns]
    change (decodeGroup (a :: b :: c :: d :: e :: []) >>= fun group => _) = _
    rw [decodeGroup_eq, whole, ok_bind, add_eq (by omega), ok_bind]
    rw [show (a :: b :: c :: d :: e :: rest).drop 5 = rest from rfl,
      ih read _ (by rw [List.length_append, size]; omega), List.append_assoc]
    congr 2
    cases good with
    | some good => simp
    | none =>
      cases bad : group.isBad
      · simp [size]
        omega
      · simp

theorem decodeGroups_eq {count : Nat} (small : count * 5 < UInt64.size) (coded : Bytes) :
    decodeGroups count coded = .ok (Gcr.decodeGroups count coded) := by
  unfold decodeGroups
  rw [mul_eq small, ok_bind]
  by_cases short : coded.length < count * 5
  · rw [if_pos short, decodeGroups_none short]
    rfl
  · have enough : count * 5 ≤ coded.length := Nat.not_lt.1 short
    obtain ⟨decoded, found⟩ := @decodeGroups_some count (coded.take (count * 5))
      (by rw [List.length_take]; omega)
    have whole := Gcr.decodeGroups_append found (coded.drop (count * 5))
    rw [List.take_append_drop] at whole
    rw [if_neg short, part_eq (Nat.zero_le _) enough, ok_bind, Nat.sub_zero, whole]
    change ((decodeRuns (Bytes.chunks 5 count (coded.take (count * 5))) [] none) >>= _) = _
    rw [decodeRuns_eq found none (by simp; omega), ok_bind]
    simp

/-- The header block at a position of a track, if there is room for one. -/
def readHeader (track : Bytes) (position : Nat) : Checked (Option SectorHeader) := do
  if track.length < position then return none
  match ← decodeGroups 2 (track.drop position) with
  | none => return none
  | some decoded => return some {
      mark := ← item decoded.bytes 0
      checksum := ← item decoded.bytes 1
      sector := ← item decoded.bytes 2
      track := ← item decoded.bytes 3
      id1 := ← item decoded.bytes 4
      id0 := ← item decoded.bytes 5
      clean := decoded.good == decoded.bytes.length }

theorem readHeader_eq (track : Bytes) (position : Nat) :
    readHeader track position = .ok (SectorHeader.decode? (track.drop position)) := by
  unfold readHeader SectorHeader.decode?
  by_cases beyond : track.length < position
  · rw [if_pos beyond, List.drop_eq_nil_of_le (Nat.le_of_lt beyond)]
    rfl
  · rw [if_neg beyond, decodeGroups_eq (by decide)]
    cases found : Gcr.decodeGroups 2 (track.drop position) with
    | none => rfl
    | some decoded =>
      have size := Gcr.length_decodeGroups found
      simp (disch := omega) only [pure_eq, ok_bind, byte_eq]
      rfl

/-- The data block at a position of a track, if there is room for one and it bears its mark. -/
def readData (track : Bytes) (position : Nat) : Checked (Option SectorData) := do
  if track.length < position then return none
  match ← decodeGroups Gcr.dataGroups (track.drop position) with
  | none => return none
  | some decoded =>
    if (← item decoded.bytes 0) != Gcr.dataMark then return none
    let data ← part decoded.bytes 1 (1 + Gcr.sectorSize)
    let checksum ← item decoded.bytes (1 + Gcr.sectorSize)
    if whole : data.length = Gcr.sectorSize then return some {
      data
      converted := min (decoded.good - 1) Gcr.sectorSize
      checksumOk := data.parity == checksum
      length_eq := whole }
    else throw .outOfBounds

theorem readData_eq (track : Bytes) (position : Nat) :
    readData track position = .ok (SectorData.decode? (track.drop position)) := by
  unfold readData
  by_cases beyond : track.length < position
  · rw [if_pos beyond, List.drop_eq_nil_of_le (Nat.le_of_lt beyond)]
    rfl
  · have groups := @decodeGroups_eq Gcr.dataGroups (by decide) (track.drop position)
    rw [if_neg beyond]
    unfold SectorData.decode?
    split
    · rename_i lost
      rw [groups, lost]
      rfl
    · rename_i decoded found
      have size : decoded.bytes.length = 260 := Gcr.length_decodeGroups found
      rw [found] at groups
      rw [groups]
      change (item decoded.bytes 0 >>= fun _ => _) = _
      rw [byte_eq (by omega), ok_bind]
      split
      · rfl
      · have whole : 1 + Gcr.sectorSize < decoded.bytes.length := by
          rw [size]
          decide
        change (part decoded.bytes 1 (1 + Gcr.sectorSize) >>= fun _ => _) = _
        rw [part_eq (by omega) (by omega), ok_bind, byte_eq whole, ok_bind, dif_pos]
        rfl

end RetroMedia.Checked
