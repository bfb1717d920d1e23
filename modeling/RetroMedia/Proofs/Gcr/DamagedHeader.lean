import Mathlib.Tactic.IntervalCases
import RetroMedia.Proofs.Gcr.Inverse

/-! Headers with a damaged code. A code of all ones can make a sync mark inside a header, and what
stands behind it is then taken for a header as well; but never for one of the same track. Main
statements: a damaged header holds one mark at most and hides no header of its track, and where it
names another sector its checksum is wrong. -/
namespace RetroMedia.Gcr

theorem toNat_eq_of_begins {first second : UInt8} (begins : beginsSync first second = true) :
    first.toNat % 4 = 3 ∧ second.toNat = 255 := by
  obtain ⟨low, rfl⟩ := beginsSync_eq_true_iff.1 begins
  exact ⟨low, rfl⟩

/-- What a block says if it is taken for a header, in the codes of its first group. -/
theorem SectorHeader.fields_of_decode? {coded : Bytes} {header : SectorHeader}
    (read : SectorHeader.decode? coded = some header) :
    ∃ a b c d e rest, coded = a :: b :: c :: d :: e :: rest ∧
      header.mark = (byteOf? (a.toNat / 8) (a.toNat % 8 * 4 + b.toNat / 64)).getD unreadable ∧
      header.track = (byteOf? (d.toNat % 4 * 8 + e.toNat / 32) (e.toNat % 32)).getD unreadable := by
  simp only [SectorHeader.decode?, Option.bind_eq_bind, Option.bind_eq_some_iff] at read
  obtain ⟨decoded, groups, same⟩ := read
  cases same
  rcases coded with _ | ⟨a, _ | ⟨b, _ | ⟨c, _ | ⟨d, _ | ⟨e, rest⟩⟩⟩⟩⟩
  case nil | cons.nil | cons.cons.nil | cons.cons.cons.nil | cons.cons.cons.cons.nil => cases groups
  simp only [decodeGroups, Option.bind_eq_bind, Option.bind_eq_some_iff] at groups
  obtain ⟨tail, _, same⟩ := groups
  cases same
  have ha := a.toNat_lt
  have hb := b.toNat_lt
  have hc := c.toNat_lt
  have hd := d.toNat_lt
  have he := e.toNat_lt
  have digit (packed index : Nat) : codeAt packed index = packed / 32 ^ (7 - index) % 32 := rfl
  have c0 : codeAt (pack a b c d e) 0 = a.toNat / 8 := by rw [digit, pack]; omega
  have c1 : codeAt (pack a b c d e) 1 = a.toNat % 8 * 4 + b.toNat / 64 := by
    rw [digit, pack]; omega
  have c6 : codeAt (pack a b c d e) 6 = d.toNat % 4 * 8 + e.toNat / 32 := by
    rw [digit, pack]; omega
  have c7 : codeAt (pack a b c d e) 7 = e.toNat % 32 := by rw [digit, pack]; omega
  refine ⟨a, b, c, d, e, rest, rfl, ?_, ?_⟩
  · rw [← c0, ← c1]
    rfl
  · rw [← c6, ← c7]
    rfl

/-- The mark of a header is made of two certain codes. -/
theorem eq_of_headerMark {high low : Nat}
    (mark : (byteOf? high low).getD unreadable = headerMark) : high = 10 ∧ low = 9 := by
  unfold byteOf? at mark
  cases first : nibbleOf? high with
  | none => simp [first, unreadable, headerMark] at mark
  | some h =>
    cases second : nibbleOf? low with
    | none => simp [first, second, unreadable, headerMark] at mark
    | some l =>
      obtain ⟨rfl, h_lt⟩ := codeOf_of_nibbleOf? first
      obtain ⟨rfl, l_lt⟩ := codeOf_of_nibbleOf? second
      simp only [first, second, Option.bind_eq_bind, Option.bind_some, Option.pure_def,
        Option.getD_some] at mark
      have value : 16 * h + l = 8 := by
        have number := congrArg UInt8.toNat mark
        rw [UInt8.toNat_ofNat', headerMark] at number
        change (16 * h + l) % 256 = 8 at number
        omega
      obtain rfl : h = 0 := by omega
      obtain rfl : l = 8 := by omega
      exact ⟨rfl, rfl⟩

/-- Bytes in which no mark stands, or a single one, and behind it no header of the track. -/
def Mute (number : UInt8) (bytes : Bytes) : Prop :=
  NoSync bytes ∨ ∃ front last byte rest, bytes = front ++ last :: 0xFF :: byte :: rest ∧
    NoSync (front ++ [last]) ∧ last.toNat % 4 = 3 ∧ byte ≠ 0xFF ∧ NoSync (byte :: rest) ∧
    ∀ tail header, SectorHeader.decode? (byte :: rest ++ tail) = some header →
      header.mark = headerMark → header.track ≠ number

/-- The codes `w` of the header of a track, the one at `place` of which may be anything: two for its
mark, two for each of the checksum, the sector, the track and the two of the id, and four for the
filling. -/
structure HeaderRow (number : UInt8) (place : Nat) (w : Nat → Nat) : Prop where
  small : ∀ index < 16, w index < 32
  known : ∀ index < 16, index ≠ place → (nibbleOf? (w index)).isSome = true
  mark : 1 ≠ place → w 1 = 9
  track : 6 ≠ place → 7 ≠ place → byteOf? (w 6) (w 7) = some number
  filling : (12 ≠ place → w 12 = 10) ∧ (13 ≠ place → w 13 = 21) ∧ (14 ≠ place → w 14 = 10)

variable {number : UInt8} {place : Nat} {w : Nat → Nat}

/-- Only the code that may be anything can be all ones. -/
theorem HeaderRow.eq_place (row : HeaderRow number place w) {index : Nat} (inside : index < 16)
    (ones : w index = 31) : index = place := by
  by_contra other
  have known := row.known index inside other
  rw [ones] at known
  cases known

/-- A code that stands for a nibble is not any number. -/
theorem HeaderRow.bounds (row : HeaderRow number place w) {index : Nat} (inside : index < 16)
    (other : index ≠ place) : 9 ≤ w index ∧ w index ≤ 30 ∧ w index ≠ 20 := by
  have all : ∀ nibble < 16, 9 ≤ codeOf nibble ∧ codeOf nibble ≤ 30 ∧ codeOf nibble ≠ 20 := by decide
  obtain ⟨nibble, found⟩ := Option.isSome_iff_exists.1 (row.known index inside other)
  obtain ⟨same, small⟩ := codeOf_of_nibbleOf? found
  exact same ▸ all nibble small

/-- The ten bytes of a header by its codes. -/
def rowByte (w : Nat → Nat) (index : Nat) : UInt8 :=
  Bytes.byte (writeCodes ((List.range 16).map w)) index

theorem writeCodes_row (w : Nat → Nat) :
    writeCodes ((List.range 16).map w) = (List.range 10).map (rowByte w) := rfl

theorem toNat_rowByte (w : Nat → Nat) :
    (rowByte w 0).toNat = (w 0 * 8 + w 1 / 4) % 256 ∧
      (rowByte w 1).toNat = (w 1 * 64 + w 2 * 2 + w 3 / 16) % 256 ∧
      (rowByte w 2).toNat = (w 3 * 16 + w 4 / 2) % 256 ∧
      (rowByte w 3).toNat = (w 4 * 128 + w 5 * 4 + w 6 / 8) % 256 ∧
      (rowByte w 4).toNat = (w 6 * 32 + w 7) % 256 ∧
      (rowByte w 5).toNat = (w 8 * 8 + w 9 / 4) % 256 ∧
      (rowByte w 6).toNat = (w 9 * 64 + w 10 * 2 + w 11 / 16) % 256 ∧
      (rowByte w 7).toNat = (w 11 * 16 + w 12 / 2) % 256 ∧
      (rowByte w 8).toNat = (w 12 * 128 + w 13 * 4 + w 14 / 8) % 256 ∧
      (rowByte w 9).toNat = (w 14 * 32 + w 15) % 256 :=
  ⟨toNat_low _, toNat_low _, toNat_low _, toNat_low _, toNat_low _, toNat_low _, toNat_low _,
    toNat_low _, toNat_low _, toNat_low _⟩

/-- A mark needs a code of all ones, in the right place and between the right codes. -/
theorem HeaderRow.place_of_mark (row : HeaderRow number place w) {index : Nat} (inside : index < 9)
    (begins : beginsSync (rowByte w index) (rowByte w (index + 1)) = true) :
    index = 1 ∧ place = 3 ∨ index = 2 ∧ place = 5 ∨ index = 4 ∧ place = 8 ∨
      index = 5 ∧ place = 10 := by
  have ones {code : Nat} (early : code < 16) (all : w code = 31) : place = code :=
    (row.eq_place early all).symm
  obtain ⟨filling12, filling13, filling14⟩ := row.filling
  have s1 := row.small 1 (by decide)
  have s2 := row.small 2 (by decide)
  have s3 := row.small 3 (by decide)
  have s4 := row.small 4 (by decide)
  have s5 := row.small 5 (by decide)
  have s6 := row.small 6 (by decide)
  have s7 := row.small 7 (by decide)
  have s8 := row.small 8 (by decide)
  have s9 := row.small 9 (by decide)
  have s10 := row.small 10 (by decide)
  have s11 := row.small 11 (by decide)
  have s12 := row.small 12 (by decide)
  have s13 := row.small 13 (by decide)
  have s14 := row.small 14 (by decide)
  have s15 := row.small 15 (by decide)
  obtain ⟨low, full⟩ := toNat_eq_of_begins begins
  -- The byte of ones holds a whole code, so that is the damaged one; in five of the nine places one that
  -- is not damaged would have to begin or end with ones as well.
  interval_cases index <;> simp only [Nat.reduceAdd, Nat.zero_add, toNat_rowByte w] at low full
  · have here := ones (show 2 < 16 by decide) (by omega)
    have other := row.mark (by omega)
    omega
  · exact .inl ⟨rfl, ones (by decide) (by omega)⟩
  · exact .inr (.inl ⟨rfl, ones (by decide) (by omega)⟩)
  · have here := ones (show 6 < 16 by decide) (by omega)
    have there := ones (show 7 < 16 by decide) (by omega)
    omega
  · exact .inr (.inr (.inl ⟨rfl, ones (by decide) (by omega)⟩))
  · exact .inr (.inr (.inr ⟨rfl, ones (by decide) (by omega)⟩))
  · have here := ones (show 11 < 16 by decide) (by omega)
    omega
  · have here := ones (show 13 < 16 by decide) (by omega)
    omega
  · have here := ones (show 14 < 16 by decide) (by omega)
    have there := ones (show 15 < 16 by decide) (by omega)
    omega

/-- What stands behind a mark in a damaged header is no header of its track: the codes that such a
header would begin with stand for nothing, or they say in the place of the track what its own number
is, and that is not what the filling bytes say there. -/
theorem HeaderRow.not_header_behind (row : HeaderRow number place w) {index : Nat}
    (inside : index < 9) (begins : beginsSync (rowByte w index) (rowByte w (index + 1)) = true)
    {tail : Bytes} {header : SectorHeader}
    (read : SectorHeader.decode? (((List.range 10).map (rowByte w)).drop (index + 2) ++ tail)
      = some header) (mark : header.mark = headerMark) : header.track ≠ number := by
  obtain ⟨a, b, c, d, e, rest, bytes, first, track⟩ := SectorHeader.fields_of_decode? read
  obtain ⟨high, low⟩ := eq_of_headerMark (first ▸ mark)
  have second := b.toNat_lt
  have small := row.small
  obtain ⟨ones, full⟩ := toNat_eq_of_begins begins
  have placed := row.place_of_mark inside begins
  have head : rowByte w (index + 2) = a ∧ rowByte w (index + 3) = b := by
    rcases placed with ⟨rfl, _⟩ | ⟨rfl, _⟩ | ⟨rfl, _⟩ | ⟨rfl, _⟩ <;>
      exact ⟨congrArg (Bytes.byte · 0) bytes, congrArg (Bytes.byte · 1) bytes⟩
  rw [← head.1, ← head.2] at low
  rw [← head.1] at high
  rcases placed with ⟨rfl, at3⟩ | ⟨rfl, at5⟩ | ⟨rfl, at8⟩ | ⟨rfl, at10⟩
  case inl =>
    -- code 5 would stand for nothing
    have bounds := row.bounds (show 5 < 16 by decide) (by omega)
    have six := small 6 (by decide)
    simp only [Nat.reduceAdd, toNat_rowByte w] at high low
    omega
  case inr.inl =>
    -- the codes of the track's own number would be 26 and 18
    have fourth : rowByte w 7 = d := congrArg (Bytes.byte · 3) bytes
    have fifth : rowByte w 8 = e := congrArg (Bytes.byte · 4) bytes
    obtain ⟨filling12, filling13, filling14⟩ := row.filling
    have five_lt := small 5 (by decide)
    have six_lt := small 6 (by decide)
    have seven_lt := small 7 (by decide)
    simp only [Nat.reduceAdd, toNat_rowByte w] at high low full
    have six : w 6 = 26 := by omega
    have seven : w 7 = 18 := by omega
    have own := row.track (by omega) (by omega)
    rw [six, seven] at own
    have number_eq : number = 0xA2 := by cases own; decide
    have coded : d.toNat % 4 * 8 + e.toNat / 32 = 10 ∧ e.toNat % 32 = 21 := by
      rw [← fourth, ← fifth]
      simp only [toNat_rowByte w]
      omega
    rw [coded.1, coded.2] at track
    rw [track, number_eq]
    decide
  case inr.inr.inl =>
    -- code 11 would stand for nothing
    have bounds := row.bounds (show 11 < 16 by decide) (by omega)
    have filling := row.filling.1 (by omega)
    have nine := small 9 (by decide)
    have ten := small 10 (by decide)
    simp only [Nat.reduceAdd, toNat_rowByte w] at high low
    omega
  case inr.inr.inr =>
    -- its mark would end in the filling, and is not like that
    have filling := row.filling.1 (by omega)
    simp only [Nat.reduceAdd, toNat_rowByte w] at high low
    omega

/-- A damaged header does not begin with ones, so it does not lengthen the mark before it. -/
theorem HeaderRow.head_ne (row : HeaderRow number place w) : rowByte w 0 ≠ 0xFF := by
  intro full
  have value := congrArg UInt8.toNat full
  have first := row.small 0 (by decide)
  have second := row.small 1 (by decide)
  change _ = 255 at value
  simp only [toNat_rowByte w] at value
  have here := row.eq_place (show 0 < 16 by decide) (by omega)
  have mark := row.mark (by omega)
  omega

/-- A mark in a header and the gap behind it begins in the header. -/
theorem mark_in_row {gap : Bytes} (quiet : ∀ byte ∈ gap, byte ≠ 0xFF) {index : Nat}
    (mark : MarkAt ((List.range 10).map (rowByte w) ++ gap) index) :
    index < 9 ∧ beginsSync (rowByte w index) (rowByte w (index + 1)) = true := by
  obtain ⟨first, second, here, next, begins⟩ := mark
  obtain ⟨_, rfl⟩ := beginsSync_eq_true_iff.1 begins
  have size : ((List.range 10).map (rowByte w)).length = 10 := by simp
  by_cases inside : index + 1 < 10
  · rw [List.getElem?_append_left (by omega), List.getElem?_map, List.getElem?_range (by omega)]
      at here next
    cases here
    exact ⟨by omega, Option.some.inj next ▸ begins⟩
  · rw [List.getElem?_append_right (by omega)] at next
    exact absurd rfl (quiet _ (List.mem_of_getElem? next))

/-- A scan finds one mark at most in a damaged header, and behind it no header of its track. -/
theorem HeaderRow.mute (row : HeaderRow number place w) {gap : Bytes}
    (quiet : ∀ byte ∈ gap, byte ≠ 0xFF) :
    Mute number (writeCodes ((List.range 16).map w) ++ gap) := by
  rw [writeCodes_row]
  by_cases silent : NoSync ((List.range 10).map (rowByte w) ++ gap)
  case pos => exact .inl silent
  obtain ⟨index, mark⟩ : ∃ index, MarkAt ((List.range 10).map (rowByte w) ++ gap) index := by
    by_contra never
    exact silent (noSync_iff.2 fun index mark => never ⟨index, mark⟩)
  obtain ⟨inside, begins⟩ := mark_in_row quiet mark
  have placed := row.place_of_mark inside begins
  have only (other : Nat) (there : MarkAt ((List.range 10).map (rowByte w) ++ gap) other) :
      other = index := by
    obtain ⟨inside', begins'⟩ := mark_in_row quiet there
    have placed' := row.place_of_mark inside' begins'
    omega
  obtain ⟨front, last, byte, rest, bytes, behind, before, low, other, after⟩ :=
    split_at_mark mark (by simp; omega) only
  refine .inr ⟨front, last, byte, rest, bytes, before, low, other, after, fun tail header read => ?_⟩
  rw [← behind, List.drop_append_of_le_length (by simp; omega), List.append_assoc] at read
  exact row.not_header_behind inside begins read

/-- The byte that two codes of a row are read as. -/
def readingOf (w : Nat → Nat) (index : Nat) : UInt8 :=
  (byteOf? (w (2 * index)) (w (2 * index + 1))).getD unreadable

/-- What a header says by its codes. -/
theorem decode?_row (small : ∀ index < 16, w index < 32) (tail : Bytes) :
    ∃ header, SectorHeader.decode? (writeCodes ((List.range 16).map w) ++ tail) = some header ∧
      header.mark = readingOf w 0 ∧ header.checksum = readingOf w 1 ∧
      header.sector = readingOf w 2 ∧ header.track = readingOf w 3 ∧
      header.id1 = readingOf w 4 ∧ header.id0 = readingOf w 5 := by
  have row : ∀ code ∈ (List.range 16).map w, code < 32 := by
    intro code member
    obtain ⟨index, inside, rfl⟩ := List.mem_map.1 member
    exact small index (List.mem_range.1 inside)
  have read := readCodes_writeCodes row (by simp)
  have same (index : Nat) :
      readingOf (fun place => (readCodes (writeCodes ((List.range 16).map w))).getD place 0) index
        = readingOf (fun place => ((List.range 16).map w).getD place 0) index := by rw [read]
  exact ⟨_, rfl, same 0, same 1, same 2, same 3, same 4, same 5⟩

/-- The codes of a header as it is written. -/
def headerCodes (number sector id1 id0 : UInt8) : List Nat :=
  (headerBlock number sector id1 id0).flatMap codesOf

/-- The codes of a header, the one at `place` replaced. -/
def damagedCode (number sector id1 id0 : UInt8) (place code index : Nat) : Nat :=
  ((headerCodes number sector id1 id0).set place code).getD index 0

section Written

variable {sector id1 id0 : UInt8} {code : Nat}

@[simp] theorem length_headerCodes : (headerCodes number sector id1 id0).length = 16 := rfl

theorem known_of_mem_headerCodes {code : Nat} (member : code ∈ headerCodes number sector id1 id0) :
    code < 32 ∧ (nibbleOf? code).isSome = true := by
  obtain ⟨byte, _, among⟩ := List.mem_flatMap.1 member
  obtain ⟨nibble, small, rfl⟩ := mem_codesOf among
  rw [nibbleOf?_codeOf small]
  exact ⟨Nat.lt_succ_of_lt (codeOf_lt small), rfl⟩

theorem damagedCode_of_ne {index : Nat} (other : index ≠ place) :
    damagedCode number sector id1 id0 place code index
      = (headerCodes number sector id1 id0).getD index 0 := by
  rw [damagedCode, List.getD_eq_getElem?_getD, List.getElem?_set_ne other.symm,
    List.getD_eq_getElem?_getD]

/-- The bytes of a header with a damaged code. -/
theorem replaceCode_header :
    replaceCode (encodeGroups (headerBlock number sector id1 id0)) place code
      = writeCodes ((List.range 16).map (damagedCode number sector id1 id0 place code)) := by
  have small : ∀ code ∈ headerCodes number sector id1 id0, code < 32 :=
    fun code member => (known_of_mem_headerCodes member).1
  rw [replaceCode, encodeGroups_eq_writeCodes, ← headerCodes,
    readCodes_writeCodes small (by rw [length_headerCodes])]
  congr 1
  refine List.ext_getElem (by simp) fun index here there => ?_
  simp [damagedCode, List.getD_eq_getElem?_getD, List.getElem?_eq_getElem here]

/-- The two codes of each byte. -/
theorem codes_of_byte (plain : Bytes) {index : Nat} (inside : index < plain.length) :
    (plain.flatMap codesOf).getD (2 * index) 0 = codeOf ((Bytes.byte plain index).toNat / 16) ∧
      (plain.flatMap codesOf).getD (2 * index + 1) 0
        = codeOf ((Bytes.byte plain index).toNat % 16) := by
  induction plain generalizing index with
  | nil => cases inside
  | cons byte plain ih =>
    cases index with
    | zero => exact ⟨rfl, rfl⟩
    | succ index => exact ih (Nat.lt_of_succ_lt_succ inside)

theorem byteOf?_nibbles (byte : UInt8) :
    byteOf? (codeOf (byte.toNat / 16)) (codeOf (byte.toNat % 16)) = some byte := by
  have small := byte.toNat_lt
  have whole : 16 * (byte.toNat / 16) + byte.toNat % 16 = byte.toNat := by omega
  rw [byteOf?_codeOf (by omega) (by omega), whole, UInt8.ofNat_toNat]

/-- A header that was written keeps the codes of its track, if another one is replaced. -/
theorem headerRow_damagedCode (small : code < 32) :
    HeaderRow number place (damagedCode number sector id1 id0 place code) where
  small index inside := by
    have bound : index < ((headerCodes number sector id1 id0).set place code).length := by
      rwa [List.length_set]
    rw [damagedCode, List.getD_eq_getElem?_getD, List.getElem?_eq_getElem bound, Option.getD_some]
    rcases List.mem_or_eq_of_mem_set (List.getElem_mem bound) with member | same
    · exact (known_of_mem_headerCodes member).1
    · rwa [same]
  known index inside other := by
    rw [damagedCode_of_ne other, List.getD_eq_getElem?_getD, List.getElem?_eq_getElem inside]
    exact (known_of_mem_headerCodes (List.getElem_mem inside)).2
  mark other := damagedCode_of_ne other
  track high low := by
    rw [damagedCode_of_ne high, damagedCode_of_ne low]
    exact byteOf?_nibbles number
  filling := ⟨damagedCode_of_ne, damagedCode_of_ne, damagedCode_of_ne⟩

/-- The bytes of a header that are not damaged are read as they were written. -/
theorem readingOf_damagedCode {index : Nat} (inside : index < 8) (high : 2 * index ≠ place)
    (low : 2 * index + 1 ≠ place) :
    readingOf (damagedCode number sector id1 id0 place code) index
      = Bytes.byte (headerBlock number sector id1 id0) index := by
  have codes := codes_of_byte (headerBlock number sector id1 id0) inside
  rw [readingOf, damagedCode_of_ne high, damagedCode_of_ne low, headerCodes, codes.1, codes.2,
    byteOf?_nibbles, Option.getD_some]

/-- A damaged header that passes for the header of another sector has the checksum of its own. -/
theorem checksumOk_of_damaged (small : code < 32) {header : SectorHeader} {other : UInt8}
    (read : SectorHeader.decode?
      (replaceCode (encodeGroups (headerBlock number sector id1 id0)) place code) = some header)
    (named : header.names number other = true) (different : other ≠ sector) :
    header.checksumOk = false := by
  rw [replaceCode_header] at read
  obtain ⟨header', again, _, checksum, own, track, first, second⟩ :=
    decode?_row (headerRow_damagedCode small).small []
  rw [List.append_nil, read] at again
  cases again
  simp only [SectorHeader.names, Bool.and_eq_true, beq_iff_eq] at named
  obtain ⟨⟨_, same_track⟩, same_sector⟩ := named
  have damaged : 4 = place ∨ 5 = place := by
    by_contra spared
    rw [not_or] at spared
    rw [readingOf_damagedCode (by decide) spared.1 spared.2] at own
    exact different (same_sector.symm.trans own)
  rw [readingOf_damagedCode (by decide) (by omega) (by omega)] at checksum first second
  apply Bool.eq_false_iff.2
  intro ok
  rw [SectorHeader.checksumOk, beq_iff_eq, checksum, first, second, same_track, same_sector] at ok
  have sum : sector ^^^ number ^^^ id1 ^^^ id0 = other ^^^ number ^^^ id1 ^^^ id0 := ok
  simp only [UInt8.xor_left_inj] at sum
  exact different sum.symm

end Written

end RetroMedia.Gcr
