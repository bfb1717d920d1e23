import Mathlib.Order.Bounds.Defs
import RetroMedia.Proofs.Gcr.Marks

/-! Where the scanner for sync marks stops. The positions it comes to are those behind ten ones that
no further byte of ones follows. In coded bytes there are none, and where runs of ones, coded blocks
and gaps follow each other in any order, they are the ends of the runs. -/
namespace RetroMedia.Gcr

/-- Ten ones end at a position, and the byte there is none of ones. -/
def SyncEnd (bytes : Bytes) (position : Nat) : Prop :=
  ∃ index byte, position = index + 2 ∧ MarkAt bytes index ∧ bytes[position]? = some byte ∧
    byte ≠ 0xFF

theorem SyncEnd.not_ones {bytes : Bytes} {position : Nat} (ends : SyncEnd bytes position) :
    bytes[position]? ≠ some 0xFF := by
  obtain ⟨_, byte, _, _, here, other⟩ := ends
  rw [here]
  simpa using other

theorem SyncEnd.ones_before {bytes : Bytes} {position : Nat} (ends : SyncEnd bytes (position + 1)) :
    bytes[position]? = some 0xFF := by
  obtain ⟨index, _, same, ⟨_, _, _, next, begins⟩, _⟩ := ends
  obtain rfl : position = index + 1 := by omega
  rw [next, (beginsSync_eq_true_iff.1 begins).2]

theorem SyncEnd.two_le {bytes : Bytes} {position : Nat} (ends : SyncEnd bytes position) :
    2 ≤ position := by
  obtain ⟨index, _, rfl, _⟩ := ends
  exact Nat.le_add_left 2 index

theorem markAt_drop_iff {bytes : Bytes} {start index : Nat} :
    MarkAt (bytes.drop start) index ↔ MarkAt bytes (start + index) := by
  simp only [MarkAt, List.getElem?_drop, Nat.add_assoc]

theorem syncEnd_drop_iff {bytes : Bytes} {start position : Nat} :
    SyncEnd (bytes.drop start) position ↔ SyncEnd bytes (start + position) ∧ 2 ≤ position := by
  constructor
  · intro ends
    have far := ends.two_le
    obtain ⟨index, byte, rfl, mark, here, other⟩ := ends
    rw [List.getElem?_drop] at here
    exact ⟨⟨start + index, byte, rfl, markAt_drop_iff.1 mark, here, other⟩, far⟩
  · rintro ⟨⟨index, byte, same, mark, here, other⟩, far⟩
    obtain ⟨place, rfl⟩ : ∃ place, position = place + 2 := ⟨position - 2, by omega⟩
    obtain rfl : index = start + place := by omega
    exact ⟨place, byte, rfl, markAt_drop_iff.2 mark, by rwa [List.getElem?_drop], other⟩

/-- Skipping stops at the first byte that is none of ones. -/
theorem skipOnes_stops (bytes : Bytes) (position : Nat) :
    match skipOnes bytes position with
    | none => ∀ byte ∈ bytes, byte = 0xFF
    | some (after, _) => ∃ passed byte, after = position + passed ∧ bytes[passed]? = some byte ∧
        byte ≠ 0xFF ∧ ∀ index < passed, bytes[index]? = some 0xFF := by
  fun_induction skipOnes bytes position with
  | case1 => simp
  | case2 byte rest position ones ih =>
    obtain rfl : byte = 0xFF := by simpa using ones
    split at ih
    · simpa using ih
    · obtain ⟨passed, other, rfl, here, differs, before⟩ := ih
      refine ⟨passed + 1, other, by omega, by simpa using here, differs, ?_⟩
      intro index early
      cases index with
      | zero => rfl
      | succ index => simpa using before index (by omega)
  | case3 byte rest position other =>
    exact ⟨0, byte, rfl, rfl, by simpa using other, fun _ never => by omega⟩

/-- No mark at the first byte: all ends lie in the bytes behind it. -/
theorem syncEnd_cons_iff {first second : UInt8} {rest : Bytes}
    (still : beginsSync first second = false) {position : Nat} :
    SyncEnd (first :: second :: rest) (position + 1) ↔ SyncEnd (second :: rest) position := by
  constructor
  · rintro ⟨index, byte, same, mark, here, other⟩
    cases index with
    | zero =>
      obtain ⟨_, _, one, two, begins⟩ := mark
      cases one
      cases two
      simp [still] at begins
    | succ index => exact ⟨index, byte, by omega, mark, here, other⟩
  · rintro ⟨index, byte, rfl, mark, here, other⟩
    exact ⟨index + 1, byte, rfl, mark, here, other⟩

/-- A scan stops at the first end of a mark. -/
theorem nextSync_least (bytes : Bytes) (position : Nat) :
    match nextSync bytes position with
    | none => ∀ place, ¬ SyncEnd bytes place
    | some (after, _) => ∃ passed, after = position + passed ∧
        IsLeast {place | SyncEnd bytes place} passed := by
  fun_induction nextSync bytes position with
  | case1 first second rest position begins =>
    obtain ⟨low, rfl⟩ := beginsSync_eq_true_iff.1 begins
    have stops := skipOnes_stops (0xFF :: rest) (position + 1)
    split at stops
    · rintro place ⟨index, byte, rfl, _, here, other⟩
      have behind : (0xFF :: rest)[index + 1]? = some byte := here
      exact other (stops byte (List.mem_of_getElem? behind))
    · obtain ⟨passed, byte, rfl, here, other, before⟩ := stops
      obtain ⟨passed, rfl⟩ : ∃ less, passed = less + 1 := by
        cases passed with
        | zero => cases here; exact absurd rfl other
        | succ less => exact ⟨less, rfl⟩
      refine ⟨passed + 2, by omega, ⟨passed, byte, rfl, ?_, here, other⟩, ?_⟩
      · have last := before passed (Nat.lt_succ_self _)
        cases passed with
        | zero => exact ⟨first, 0xFF, rfl, rfl, begins⟩
        | succ less =>
          exact ⟨0xFF, 0xFF, before less (by omega), last, by decide⟩
      · intro place ends
        apply Nat.le_of_not_lt
        intro early
        have far := ends.two_le
        obtain ⟨less, rfl⟩ : ∃ less, place = less + 1 := ⟨place - 1, by omega⟩
        exact ends.not_ones (before less (by omega))
  | case2 first second rest position begins ih =>
    have still : beginsSync first second = false := by simpa using begins
    split at ih
    · intro place ends
      have far := ends.two_le
      obtain ⟨less, rfl⟩ : ∃ less, place = less + 1 := ⟨place - 1, by omega⟩
      exact ih less ((syncEnd_cons_iff still).1 ends)
    · obtain ⟨passed, rfl, here, least⟩ := ih
      refine ⟨passed + 1, by omega, (syncEnd_cons_iff still).2 here, ?_⟩
      intro place ends
      have far := SyncEnd.two_le ends
      obtain ⟨less, rfl⟩ : ∃ less, place = less + 1 := ⟨place - 1, by omega⟩
      exact Nat.succ_le_succ (least ((syncEnd_cons_iff still).1 ends))
  | case3 bytes position short =>
    rintro place ⟨index, byte, rfl, mark, here, _⟩
    obtain ⟨inside, _⟩ := List.getElem?_eq_some_iff.1 here
    obtain ⟨first, second, rest, rfl⟩ : ∃ first second rest, bytes = first :: second :: rest := by
      cases bytes with
      | nil => exact absurd inside (Nat.not_lt_zero _)
      | cons first rest =>
        cases rest with
        | nil => exact absurd inside (by simp)
        | cons second rest => exact ⟨first, second, rest, rfl⟩
    exact short first second rest rfl

/-- The scan from a position comes to the first end of a mark that begins there or behind it. -/
theorem findSync_least (bytes : Bytes) (start : Nat) :
    match findSync bytes start with
    | none => ∀ place, SyncEnd bytes place → ¬ start + 2 ≤ place
    | some after => IsLeast {place | SyncEnd bytes place ∧ start + 2 ≤ place} after := by
  have least := nextSync_least (bytes.drop start) start
  have shift {place : Nat} (ends : SyncEnd bytes place) (far : start + 2 ≤ place) :
      SyncEnd (bytes.drop start) (place - start) := by
    rw [syncEnd_drop_iff, Nat.add_sub_cancel' (by omega)]
    exact ⟨ends, by omega⟩
  unfold findSync
  split at least
  · rename_i none
    rw [none]
    intro place ends far
    exact least _ (shift ends far)
  · rename_i after rest found
    obtain ⟨passed, rfl, here, first⟩ := least
    rw [found, Option.map_some]
    obtain ⟨ends, far⟩ := syncEnd_drop_iff.1 here
    refine ⟨⟨ends, by omega⟩, ?_⟩
    rintro place ⟨ends', far'⟩
    have := first (shift ends' far')
    dsimp only
    omega

/-- The positions behind the sync marks, each looked for from the one before. -/
def syncsFrom (bytes : Bytes) (position : Nat) : List Nat :=
  match _found : findSync bytes position with
  | none => []
  | some after => after :: syncsFrom bytes after
termination_by bytes.length - position
decreasing_by have := findSync_found _found; omega

/-- The scans come to the ends of marks, to all of them and in order. -/
theorem mem_syncsFrom_iff (bytes : Bytes) (start : Nat) :
    (syncsFrom bytes start).Pairwise (· < ·) ∧
      ∀ position, position ∈ syncsFrom bytes start ↔
        SyncEnd bytes position ∧ start + 2 ≤ position := by
  fun_induction syncsFrom bytes start with
  | case1 start none =>
    have least := findSync_least bytes start
    rw [none] at least
    exact ⟨.nil, fun position => iff_of_false nofun fun ⟨ends, far⟩ => least position ends far⟩
  | case2 start after found ih =>
    have least := findSync_least bytes start
    rw [found] at least
    obtain ⟨⟨here, far⟩, first⟩ := least
    obtain ⟨ordered, others⟩ := ih
    refine ⟨List.pairwise_cons.2 ⟨fun position member => ?_, ordered⟩, fun position => ?_⟩
    · have := ((others position).1 member).2
      omega
    · rw [List.mem_cons, others]
      constructor
      · rintro (rfl | ⟨ends, behind⟩)
        · exact ⟨here, far⟩
        · exact ⟨ends, by omega⟩
      · rintro ⟨ends, behind⟩
        have before := first ⟨ends, behind⟩
        by_cases same : position = after
        · exact .inl same
        · -- The byte right behind a mark is none of ones, so no other mark ends behind that byte.
          refine .inr ⟨ends, ?_⟩
          by_contra near
          obtain rfl : position = after + 1 := by omega
          exact here.not_ones ends.ones_before

/-! ## Runs of ones, coded blocks and gaps -/

/-- What a track is made of. -/
inductive Part where
  | ones (count : Nat) (long : 2 ≤ count)
  | block (plain coded : Bytes) (written : encode plain = .ok coded)
  | gap (bytes : Bytes) (quiet : ∀ byte ∈ bytes, byte ≠ 0xFF)

def Part.bytes : Part → Bytes
  | ones count _ => List.replicate count 0xFF
  | block _ coded _ => coded
  | gap bytes _ => bytes

/-- Parts in a row. -/
def written (parts : List Part) : Bytes := parts.flatMap Part.bytes

@[simp] theorem written_nil : written [] = [] := rfl

@[simp] theorem written_cons (part : Part) (parts : List Part) :
    written (part :: parts) = part.bytes ++ written parts := rfl

@[simp] theorem written_append (first second : List Part) :
    written (first ++ second) = written first ++ written second := List.flatMap_append

/-- A run of ones ends at a position. Ones that follow at once belong to the run, and a run that
nothing follows does not end. -/
def EndsRun (parts : List Part) (position : Nat) : Prop :=
  ∃ before count long after, parts = before ++ .ones count long :: after ∧
    position = (written before).length + count ∧ ∃ byte ∈ (written after).head?, byte ≠ 0xFF

/-- A position lies between the first and the last byte of a run. -/
def InsideRun (parts : List Part) (position : Nat) : Prop :=
  ∃ before count long after, parts = before ++ .ones count long :: after ∧
    (written before).length < position ∧ position < (written before).length + count

theorem eq_encodeGroups {plain coded : Bytes} (written : encode plain = .ok coded) :
    coded = encodeGroups plain := by
  unfold encode at written
  split at written <;> cases written
  rfl

/-- Every byte belongs to a part. -/
theorem exists_part {parts : List Part} {index : Nat} (inside : index < (written parts).length) :
    ∃ before part after place, parts = before ++ part :: after ∧
      index = (written before).length + place ∧ place < part.bytes.length := by
  induction parts generalizing index with
  | nil => cases inside
  | cons part parts ih =>
    by_cases here : index < part.bytes.length
    · exact ⟨[], part, parts, index, rfl, by simp, here⟩
    · rw [written_cons, List.length_append] at inside
      obtain ⟨before, other, after, place, rfl, same, within⟩ :=
        @ih (index - part.bytes.length) (by omega)
      refine ⟨part :: before, other, after, place, rfl, ?_, within⟩
      rw [written_cons, List.length_append]
      omega
theorem getElem?_written (before : List Part) (part : Part) (after : List Part) (place : Nat) :
    (written (before ++ part :: after))[(written before).length + place]?
      = (part.bytes ++ written after)[place]? := by
  rw [written_append, written_cons, List.getElem?_append_right (Nat.le_add_right _ _),
    Nat.add_sub_cancel_left]

/-- Where a mark ends in parts that follow each other, a run of ones ends. -/
theorem EndsRun.of_syncEnd {parts : List Part} {position : Nat}
    (ends : SyncEnd (written parts) position) : EndsRun parts position := by
  have far := ends.two_le
  obtain ⟨last, rfl⟩ : ∃ last, position = last + 1 := ⟨position - 1, by omega⟩
  obtain ⟨inside, _⟩ := List.getElem?_eq_some_iff.1 ends.ones_before
  obtain ⟨before, part, after, place, rfl, rfl, within⟩ := exists_part inside
  have held : part.bytes[place]? = some 0xFF := by
    rw [← ends.ones_before, getElem?_written, List.getElem?_append_left within]
  cases part with
  | gap bytes quiet => exact absurd rfl (quiet 0xFF (List.mem_of_getElem? held))
  | block plain coded coding =>
    -- A coded block does not begin with ones, so the whole mark would lie inside of it.
    obtain rfl := eq_encodeGroups coding
    cases place with
    | zero =>
      have first : (0xFF : UInt8) ∈ (encodeGroups plain).head? := by
        rw [List.head?_eq_getElem?]
        exact held
      exact absurd rfl (head_encodeGroups_ne plain 0xFF first)
    | succ place =>
      obtain ⟨index, _, same, ⟨low, ones, one, two, begins⟩, _⟩ := ends
      obtain rfl : index = (written before).length + place := by omega
      rw [getElem?_written, List.getElem?_append_left (Nat.lt_of_succ_lt within)] at one
      rw [Nat.add_assoc, getElem?_written, List.getElem?_append_left within] at two
      exact absurd ⟨low, ones, one, two, begins⟩ (noSync_iff.1 (noSync_encodeGroups plain) place)
  | ones count long =>
    obtain ⟨_, byte, _, _, here, other⟩ := ends
    rw [Nat.add_assoc, getElem?_written] at here
    have full : place + 1 = count := by
      rw [Part.bytes, List.length_replicate] at within
      by_contra short
      rw [List.getElem?_append_left (by simp [Part.bytes]; omega), Part.bytes,
        List.getElem?_replicate_of_lt (by omega)] at here
      exact other (Option.some.inj here).symm
    subst full
    refine ⟨before, place + 1, long, after, rfl, Nat.add_assoc .., byte, ?_, other⟩
    rw [List.getElem?_append_right (by simp [Part.bytes])] at here
    simpa [Part.bytes, List.head?_eq_getElem?] using here

/-- Where a run of ones ends, a mark ends. -/
theorem EndsRun.syncEnd {parts : List Part} {position : Nat} (ends : EndsRun parts position) :
    SyncEnd (written parts) position := by
  obtain ⟨before, count, long, after, rfl, rfl, byte, first, other⟩ := ends
  obtain ⟨less, rfl⟩ : ∃ less, count = less + 2 := ⟨count - 2, by omega⟩
  have ones (place : Nat) (short : place < less + 2) :
      (written (before ++ .ones (less + 2) long :: after))[(written before).length + place]?
        = some 0xFF := by
    rw [getElem?_written, Part.bytes, List.getElem?_append_left (by simpa using short),
      List.getElem?_replicate_of_lt short]
  refine ⟨(written before).length + less, byte, rfl, ⟨0xFF, 0xFF, ones less (by omega),
    ones (less + 1) (by omega), by decide⟩, ?_, other⟩
  rw [getElem?_written, Part.bytes, List.getElem?_append_right (by simp)]
  simpa [List.head?_eq_getElem?] using first

theorem endsRun_iff_syncEnd {parts : List Part} {position : Nat} :
    SyncEnd (written parts) position ↔ EndsRun parts position :=
  ⟨EndsRun.of_syncEnd, EndsRun.syncEnd⟩

/-- A scan that does not begin inside of a run comes to no end of a run too late. -/
theorem EndsRun.ahead {parts : List Part} {start position : Nat} (ends : EndsRun parts position)
    (outside : ¬ InsideRun parts start) : start + 2 ≤ position ↔ start < position := by
  obtain ⟨before, count, long, after, rfl, rfl, _⟩ := ends
  refine ⟨fun far => by omega, fun early => ?_⟩
  by_contra near
  exact outside ⟨before, count, long, after, rfl, by omega, early⟩

/-- Coded bytes hold no sync mark, wherever a scan begins. In runs of ones, coded blocks and gaps,
scans from one mark to the next come in order to the ends of the runs of which two bytes of ones lie
ahead, and so to all that lie ahead of a scan that does not begin inside of a run. -/
theorem syncs_at_run_ends :
    (∀ plain : Bytes, plain.length % 4 = 0 →
      ∃ coded, encode plain = .ok coded ∧ ∀ start, findSync coded start = none) ∧
    ∀ (parts : List Part) (start : Nat),
      (syncsFrom (written parts) start).Pairwise (· < ·) ∧
      (∀ position, position ∈ syncsFrom (written parts) start ↔
        EndsRun parts position ∧ start + 2 ≤ position) ∧
      (¬ InsideRun parts start → ∀ position, position ∈ syncsFrom (written parts) start ↔
        EndsRun parts position ∧ start < position) := by
  refine ⟨fun plain whole => ⟨encodeGroups plain, if_pos whole, fun start => ?_⟩,
    fun parts start => ?_⟩
  · rw [findSync_eq_none_iff]
    exact nextSync_of_noSync ((noSync_encodeGroups plain).suffix (List.drop_suffix start _)) start
  · obtain ⟨ordered, found⟩ := mem_syncsFrom_iff (written parts) start
    have ends (position : Nat) : position ∈ syncsFrom (written parts) start ↔
        EndsRun parts position ∧ start + 2 ≤ position := by rw [found, endsRun_iff_syncEnd]
    refine ⟨ordered, ends, fun outside position => ?_⟩
    rw [ends]
    exact and_congr_right fun here => here.ahead outside

theorem long_two : 2 ≤ 2 := Nat.le_refl 2

theorem long_three : 2 ≤ 3 := Nat.le_succ 2

theorem encode_shortBlock : encode [0, 5, 0xE0, 0] = .ok [0x52, 0x94, 0xFF, 0x29, 0x4A] := rfl

theorem quiet_0x57 : ∀ quiet ∈ ([0x57] : Bytes), quiet ≠ 0xFF :=
  List.forall_mem_singleton.2 (by decide)

theorem quiet_0x55 : ∀ quiet ∈ ([0x55] : Bytes), quiet ≠ 0xFF :=
  List.forall_mem_singleton.2 (by decide)

/-- A short track. Its block holds a byte of ones, in the middle of two codes. -/
def shortTrack : List Part :=
  [.ones 2 long_two, .block [0, 5, 0xE0, 0] [0x52, 0x94, 0xFF, 0x29, 0x4A] encode_shortBlock,
    .gap [0x57] quiet_0x57, .ones 3 long_three, .gap [0x55] quiet_0x55]

/-- The runs of this track end behind two bytes and behind eleven. -/
theorem syncs_at_run_ends_of_block :
    (∃ coded, encode [0, 5, 0xE0, 0] = .ok coded ∧ ∀ start, findSync coded start = none) ∧
      ¬ InsideRun shortTrack 0 ∧ 2 ∈ syncsFrom (written shortTrack) 0 ∧
      11 ∈ syncsFrom (written shortTrack) 0 := by
  have outside : ¬ InsideRun shortTrack 0 :=
    fun ⟨_, _, _, _, _, early, _⟩ => Nat.not_lt_zero _ early
  have first : EndsRun shortTrack 2 := ⟨[], 2, by decide, _, rfl, rfl, 0x52, rfl, by decide⟩
  have second : EndsRun shortTrack 11 :=
    ⟨shortTrack.take 3, 3, by decide, _, rfl, rfl, 0x55, rfl, by decide⟩
  obtain ⟨quiet, found⟩ := syncs_at_run_ends
  have ends := (found shortTrack 0).2.2 outside
  exact ⟨quiet _ rfl, outside, (ends 2).2 ⟨first, by decide⟩, (ends 11).2 ⟨second, by decide⟩⟩

end RetroMedia.Gcr
