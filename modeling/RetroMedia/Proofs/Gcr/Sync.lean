import Mathlib.Data.List.Chain
import RetroMedia.Gcr.Sync
import RetroMedia.Proofs.Gcr.Code

/-! Coded bytes hold no sync mark: ten bits in a row always contain a whole code, and no code is all
ones. A scan therefore stops at the runs of ones between blocks and nowhere else. -/
namespace RetroMedia.Gcr

/-- No mark begins inside these bytes. -/
def NoSync (bytes : Bytes) : Prop :=
  bytes.IsChain fun first second => beginsSync first second = false

theorem beginsSync_eq_true_iff {first second : UInt8} :
    beginsSync first second = true ↔ first.toNat % 4 = 3 ∧ second = 0xFF := by
  have low : first &&& 0x03 = 0x03 ↔ first.toNat % 4 = 3 := by
    rw [← UInt8.toNat_inj, UInt8.toNat_and]
    have mask : first.toNat &&& 3 = first.toNat % 4 := Nat.and_two_pow_sub_one_eq_mod _ 2
    exact mask ▸ Iff.rfl
  simp [beginsSync, low]

theorem beginsSync_low {first second : Nat}
    (quiet : ¬ (first % 4 = 3 ∧ second % 256 = 255)) :
    beginsSync (Bytes.low first) (Bytes.low second) = false := by
  apply Bool.eq_false_iff.2
  intro begins
  obtain ⟨ones, full⟩ := beginsSync_eq_true_iff.1 begins
  have value := congrArg UInt8.toNat full
  rw [toNat_low] at ones value
  apply quiet
  constructor
  · omega
  · exact value

/-- Inside a coded group, each ten bits that could be a mark hold a whole code. -/
theorem noSync_encodeGroup (a b c d : UInt8) : NoSync (encodeGroup a b c d) := by
  obtain ⟨ah, al, bh, bl, ch, cl, dh, dl, ⟨_, _, _⟩, ⟨_, _, _⟩, ⟨_, _, _⟩, ⟨_, _, _⟩, bits⟩ :=
    groupBits_split a b c d
  rw [encodeGroup_eq, NoSync]
  simp only [List.isChain_cons_cons, List.isChain_singleton, and_true]
  refine ⟨?_, ?_, ?_, ?_⟩ <;> apply beginsSync_low <;> omega

theorem head_encodeGroup_ne (a b c d : UInt8) : ∀ byte ∈ (encodeGroup a b c d).head?, byte ≠ 0xFF := by
  obtain ⟨ah, al, bh, bl, ch, cl, dh, dl, ⟨_, _, _⟩, ⟨_, _, _⟩, ⟨_, _, _⟩, ⟨_, _, _⟩, bits⟩ :=
    groupBits_split a b c d
  rw [encodeGroup_eq]
  intro byte first full
  cases first
  have value := congrArg UInt8.toNat full
  rw [toNat_low] at value
  change _ = 255 at value
  omega

/-- Where the second part does not begin with ones, no mark begins in the first. -/
theorem NoSync.append {first second : Bytes} (quiet : NoSync first) (quiet' : NoSync second)
    (head : ∀ byte ∈ second.head?, byte ≠ 0xFF) : NoSync (first ++ second) := by
  refine List.IsChain.append quiet quiet' fun last _ next here => ?_
  apply Bool.eq_false_iff.2
  intro begins
  exact head next here (beginsSync_eq_true_iff.1 begins).2

theorem noSync_of_no_ones {bytes : Bytes} (plain : ∀ byte ∈ bytes, byte ≠ 0xFF) : NoSync bytes := by
  induction bytes with
  | nil => exact .nil
  | cons byte rest ih =>
    have quiet : NoSync rest := ih fun other member => plain other (List.mem_cons_of_mem _ member)
    exact NoSync.append (.singleton byte) quiet
      fun other here => plain other (List.mem_cons_of_mem _ (List.mem_of_mem_head? here))

theorem head_encodeGroups_ne (plain : Bytes) : ∀ byte ∈ (encodeGroups plain).head?, byte ≠ 0xFF := by
  match plain with
  | a :: b :: c :: d :: rest =>
    intro byte first
    rw [encodeGroups_cons, encodeGroup_eq] at first
    exact head_encodeGroup_ne a b c d byte (by rw [encodeGroup_eq]; exact first)
  | [] | [_] | [_, _] | [_, _, _] =>
    intro byte first
    cases first

/-- Coded bytes hold no mark. -/
theorem noSync_encodeGroups (plain : Bytes) : NoSync (encodeGroups plain) := by
  fun_induction encodeGroups plain with
  | case1 a b c d rest ih =>
    exact (noSync_encodeGroup a b c d).append ih (head_encodeGroups_ne rest)
  | case2 => exact .nil

/-- Does a mark begin at an index? -/
def MarkAt (bytes : Bytes) (index : Nat) : Prop :=
  ∃ first second, bytes[index]? = some first ∧ bytes[index + 1]? = some second ∧
    beginsSync first second = true

theorem noSync_iff {bytes : Bytes} : NoSync bytes ↔ ∀ index, ¬ MarkAt bytes index := by
  rw [NoSync, List.isChain_iff_getElem]
  constructor
  · rintro chain index ⟨first, second, here, next, begins⟩
    obtain ⟨inside, rfl⟩ := List.getElem?_eq_some_iff.1 here
    obtain ⟨inside', rfl⟩ := List.getElem?_eq_some_iff.1 next
    rw [chain index inside'] at begins
    cases begins
  · intro never index inside
    apply Bool.eq_false_iff.2
    intro begins
    exact never index ⟨_, _, List.getElem?_eq_getElem _, List.getElem?_eq_getElem _, begins⟩

theorem MarkAt.of_take {bytes : Bytes} {count index : Nat} (mark : MarkAt (bytes.take count) index) :
    MarkAt bytes index ∧ index + 1 < count := by
  obtain ⟨first, second, here, next, begins⟩ := mark
  rw [List.getElem?_take, Option.ite_none_right_eq_some] at here next
  exact ⟨⟨first, second, here.2, next.2, begins⟩, next.1⟩

theorem MarkAt.of_drop {bytes : Bytes} {count index : Nat} (mark : MarkAt (bytes.drop count) index) :
    MarkAt bytes (count + index) := by
  obtain ⟨first, second, here, next, begins⟩ := mark
  rw [List.getElem?_drop] at here next
  exact ⟨first, second, here, next, begins⟩

/-- Around the only mark in some bytes there is none. -/
theorem split_at_mark {bytes : Bytes} {index : Nat} (mark : MarkAt bytes index)
    (inside : index + 2 < bytes.length) (only : ∀ other, MarkAt bytes other → other = index) :
    ∃ front last byte rest, bytes = front ++ last :: 0xFF :: byte :: rest ∧
      bytes.drop (index + 2) = byte :: rest ∧ NoSync (front ++ [last]) ∧ last.toNat % 4 = 3 ∧
      byte ≠ 0xFF ∧ NoSync (byte :: rest) := by
  obtain ⟨last, ones, here, next, begins⟩ := mark
  obtain ⟨low, rfl⟩ := beginsSync_eq_true_iff.1 begins
  obtain ⟨early, rfl⟩ := List.getElem?_eq_some_iff.1 here
  obtain ⟨later, full⟩ := List.getElem?_eq_some_iff.1 next
  have behind : bytes.drop (index + 2) = bytes[index + 2] :: bytes.drop (index + 3) :=
    List.drop_eq_getElem_cons inside
  refine ⟨bytes.take index, bytes[index], bytes[index + 2], bytes.drop (index + 3), ?_, behind, ?_,
    low, ?_, ?_⟩
  · rw [← behind, ← full, ← List.drop_eq_getElem_cons later, ← List.drop_eq_getElem_cons early,
      List.take_append_drop]
  · rw [List.take_append_getElem]
    refine noSync_iff.2 fun other mark => ?_
    obtain ⟨there, before⟩ := mark.of_take
    have := only other there
    omega
  · intro again
    have := only (index + 1) ⟨0xFF, 0xFF, next, List.getElem?_eq_some_iff.2 ⟨inside, again⟩, by decide⟩
    omega
  · rw [← behind]
    refine noSync_iff.2 fun other mark => ?_
    have := only _ mark.of_drop
    omega

theorem skipOnes_of_run {ones position : Nat} {byte : UInt8} {rest : Bytes} (other : byte ≠ 0xFF) :
    skipOnes (List.replicate ones 0xFF ++ byte :: rest) position
      = some (position + ones, byte :: rest) := by
  induction ones generalizing position with
  | zero => simp [skipOnes, other]
  | succ ones ih =>
    rw [List.replicate_succ, List.cons_append, skipOnes, if_pos (by decide), ih]
    congr 2
    omega

/-- A scan passes over bytes without a mark and ends behind the run of ones that follows them. -/
theorem nextSync_of_run {before : Bytes} {ones position : Nat} {byte : UInt8} {rest : Bytes}
    (quiet : NoSync before) (long : 2 ≤ ones) (other : byte ≠ 0xFF) :
    nextSync (before ++ List.replicate ones 0xFF ++ byte :: rest) position
      = some (position + before.length + ones, byte :: rest) := by
  obtain ⟨ones, rfl⟩ : ∃ more, ones = more + 2 := ⟨ones - 2, by omega⟩
  induction before generalizing position with
  | nil =>
    have skip := @skipOnes_of_run (ones + 1) (position + 1) byte rest other
    rw [List.nil_append, List.replicate_succ, List.replicate_succ]
    rw [List.replicate_succ] at skip
    rw [List.cons_append, List.cons_append, nextSync, if_pos (by decide), ← List.cons_append, skip]
    simp
    omega
  | cons first before ih =>
    have onward := @ih (position + 1) quiet.tail
    cases before with
    | nil =>
      have skip := @skipOnes_of_run (ones + 2) (position + 1) byte rest other
      simp only [List.nil_append, List.replicate_succ, List.cons_append, List.length_nil,
        List.length_cons] at onward skip ⊢
      rw [nextSync]
      split
      · rw [skip]
      · rw [onward]
    | cons second before =>
      have still : beginsSync first second = false := quiet.rel
      simp only [List.cons_append, List.length_cons] at onward ⊢
      rw [nextSync, if_neg (by simp [still]), onward]
      simp
      omega

/-- A mark whose first ones are the last of a byte. -/
theorem nextSync_of_mark {front : Bytes} {last byte : UInt8} {rest : Bytes} {position : Nat}
    (quiet : NoSync (front ++ [last])) (low : last.toNat % 4 = 3) (other : byte ≠ 0xFF) :
    nextSync (front ++ last :: 0xFF :: byte :: rest) position
      = some (position + front.length + 2, byte :: rest) := by
  induction front generalizing position with
  | nil =>
    have begins : beginsSync last 0xFF = true := beginsSync_eq_true_iff.2 ⟨low, rfl⟩
    have skip := @skipOnes_of_run 1 (position + 1) byte rest other
    rw [List.nil_append, nextSync, if_pos begins]
    exact skip
  | cons first front ih =>
    have onward := @ih (position + 1) quiet.tail
    have place : position + 1 + front.length + 2 = position + (first :: front).length + 2 := by
      rw [List.length_cons]
      omega
    cases front with
    | nil =>
      have still : beginsSync first last = false := quiet.rel
      rw [← place, ← onward, List.cons_append, List.nil_append, nextSync, still]
      rfl
    | cons second front =>
      have still : beginsSync first second = false := quiet.rel
      rw [← place, ← onward, List.cons_append, List.cons_append, nextSync, still]
      rfl

/-- Where no mark begins, a scan finds none. -/
theorem nextSync_of_noSync {bytes : Bytes} (quiet : NoSync bytes) (position : Nat) :
    nextSync bytes position = none := by
  fun_induction nextSync bytes position with
  | case1 first second rest position begins =>
    have still : beginsSync first second = false := quiet.rel
    simp [still] at begins
  | case2 first second rest position begins ih => exact ih quiet.tail
  | case3 => rfl

theorem skipOnes_found {bytes rest : Bytes} {position after : Nat}
    (found : skipOnes bytes position = some (after, rest)) :
    ∃ passed < bytes.length, after = position + passed ∧ rest = bytes.drop passed := by
  fun_induction skipOnes bytes position with
  | case1 => cases found
  | case2 position byte tail ones ih =>
    obtain ⟨passed, inside, same, there⟩ := ih found
    exact ⟨passed + 1, Nat.succ_lt_succ inside, by omega, there⟩
  | case3 position byte tail other =>
    cases found
    exact ⟨0, Nat.zero_lt_succ _, rfl, rfl⟩

/-- A mark takes up two bytes at least. -/
theorem nextSync_found {bytes rest : Bytes} {position after : Nat}
    (found : nextSync bytes position = some (after, rest)) :
    ∃ passed < bytes.length, 2 ≤ passed ∧ after = position + passed ∧ rest = bytes.drop passed := by
  fun_induction nextSync bytes position with
  | case1 position first second tail begins =>
    rw [skipOnes, if_pos (beq_iff_eq.2 (beginsSync_eq_true_iff.1 begins).2)] at found
    obtain ⟨passed, inside, same, there⟩ := skipOnes_found found
    exact ⟨passed + 2, by simpa using inside, by omega, by omega, there⟩
  | case2 position first second tail other ih =>
    obtain ⟨passed, inside, _, same, there⟩ := ih found
    exact ⟨passed + 1, Nat.succ_lt_succ inside, by omega, by omega, there⟩
  | case3 => cases found

/-- A mark is found further on, and what follows it is the rest of the track. -/
theorem nextSync_drop {track rest : Bytes} {position after : Nat}
    (found : nextSync (track.drop position) position = some (after, rest)) :
    position + 2 ≤ after ∧ after < track.length ∧ rest = track.drop after := by
  obtain ⟨passed, inside, long, rfl, rfl⟩ := nextSync_found found
  rw [List.length_drop] at inside
  refine ⟨by omega, by omega, ?_⟩
  rw [List.drop_drop]

theorem skipOnes_append {bytes rest : Bytes} {position after : Nat}
    (found : skipOnes bytes position = some (after, rest)) (more : Bytes) :
    skipOnes (bytes ++ more) position = some (after, rest ++ more) := by
  induction bytes generalizing position with
  | nil => cases found
  | cons byte bytes ih =>
    by_cases ones : byte = 0xFF
    · simp only [List.cons_append, skipOnes, ones] at found ⊢
      exact ih found
    · simp [skipOnes, ones] at found ⊢
      simp [← found.1, ← found.2]

/-- What follows does not change where a scan stops. -/
theorem nextSync_append {bytes rest : Bytes} {position after : Nat}
    (found : nextSync bytes position = some (after, rest)) (more : Bytes) :
    nextSync (bytes ++ more) position = some (after, rest ++ more) := by
  fun_induction nextSync bytes position with
  | case1 first second tail position begins =>
    have skipped := skipOnes_append found more
    simpa [nextSync, begins] using skipped
  | case2 first second tail position begins ih =>
    have onward := ih found
    simpa [nextSync, begins] using onward
  | case3 => cases found

end RetroMedia.Gcr
