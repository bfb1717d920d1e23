import Mathlib.Algebra.Ring.Nat
import Mathlib.Data.List.TakeWhile
import Mathlib.Order.Bounds.Basic
import RetroMedia.Proofs.Gcr.RoundTrip

/-! Encoding and decoding undo each other. Five coded bytes are eight codes in a row; they are read as
far as their codes stand for nibbles, and what was read in full is coded as it was. -/
namespace RetroMedia.Gcr

/-- The last `width` bits of a number, the highest one first. -/
def bitsOf : Nat → Nat → List Bool
  | 0, _ => []
  | width + 1, value => value.testBit width :: bitsOf width value

theorem bitsOf_add (front back value : Nat) :
    bitsOf (front + back) value = bitsOf front (value / 2 ^ back) ++ bitsOf back value := by
  induction front with
  | zero => rw [Nat.zero_add, bitsOf, List.nil_append]
  | succ front ih => rw [Nat.succ_add, bitsOf, bitsOf, ih, Nat.testBit_div_two_pow, List.cons_append]

theorem bitsOf_mod {width limit : Nat} (within : width ≤ limit) (value : Nat) :
    bitsOf width (value % 2 ^ limit) = bitsOf width value := by
  induction width with
  | zero => rfl
  | succ width ih =>
    have inside : width < limit := within
    rw [bitsOf, bitsOf, ih (Nat.le_of_succ_le within), Nat.testBit_mod_two_pow, decide_eq_true inside,
      Bool.true_and]

/-- The digits of a number in a base that is a power of two have its bits. -/
theorem bitsOf_digits (width count value : Nat) :
    bitsOf (count * width) value = ((List.range count).map fun index =>
      value / (2 ^ width) ^ (count - 1 - index) % 2 ^ width).flatMap (bitsOf width) := by
  induction count with
  | zero => rw [Nat.zero_mul]; rfl
  | succ count ih =>
    have later : (fun index => value / (2 ^ width) ^ (count + 1 - 1 - index) % 2 ^ width) ∘ Nat.succ
        = fun index => value / (2 ^ width) ^ (count - 1 - index) % 2 ^ width := by
      funext index
      have same : count + 1 - 1 - index.succ = count - 1 - index := by omega
      rw [Function.comp_apply, same]
    rw [Nat.succ_mul, Nat.add_comm, bitsOf_add, ih, List.range_succ_eq_map, List.map_cons, List.map_map,
      later, List.flatMap_cons, bitsOf_mod (Nat.le_refl width), Nat.mul_comm count, Nat.pow_mul]
    rfl

/-- The eight codes that five bytes hold. -/
def codesIn (a b c d e : UInt8) : List Nat := (List.range 8).map (codeAt (pack a b c d e))

/-- In a row, the codes of five bytes are the bits of the bytes. -/
theorem bits_codesIn (a b c d e : UInt8) :
    (codesIn a b c d e).flatMap (bitsOf 5)
      = [a, b, c, d, e].flatMap fun byte => bitsOf 8 byte.toNat := by
  have ha := a.toNat_lt
  have hb := b.toNat_lt
  have hc := c.toNat_lt
  have hd := d.toNat_lt
  have he := e.toNat_lt
  have digits : ((List.range 5).map fun index => pack a b c d e / (2 ^ 8) ^ (5 - 1 - index) % 2 ^ 8)
      = [a, b, c, d, e].map UInt8.toNat := by
    simp only [pack, List.range, List.range.loop, List.map_cons, List.map_nil, List.cons.injEq, and_true]
    omega
  calc (codesIn a b c d e).flatMap (bitsOf 5)
      = bitsOf (8 * 5) (pack a b c d e) := (bitsOf_digits 5 8 _).symm
    _ = bitsOf (5 * 8) (pack a b c d e) := rfl
    _ = ([a, b, c, d, e].map UInt8.toNat).flatMap (bitsOf 8) := by rw [bitsOf_digits, digits]
    _ = [a, b, c, d, e].flatMap fun byte => bitsOf 8 byte.toNat := List.flatMap_map ..

theorem length_codesIn (a b c d e : UInt8) : (codesIn a b c d e).length = 8 := by
  rw [codesIn, List.length_map, List.length_range]

/-- A code stands for a nibble if the table holds it. -/
theorem nibbleOf?_isSome_iff (code : Nat) :
    (nibbleOf? code).isSome = true ↔ ∃ nibble < 16, codeOf nibble = code := by
  constructor
  · intro known
    obtain ⟨nibble, found⟩ := Option.isSome_iff_exists.1 known
    obtain ⟨same, small⟩ := codeOf_of_nibbleOf? found
    exact ⟨nibble, small, same⟩
  · rintro ⟨nibble, small, rfl⟩
    rw [nibbleOf?_codeOf small]
    rfl

/-- A byte can be read if both of its codes stand for nibbles. -/
theorem byteOf?_isSome (high low : Nat) :
    (byteOf? high low).isSome = ((nibbleOf? high).isSome && (nibbleOf? low).isSome) := by
  rw [byteOf?]
  cases nibbleOf? high <;> cases nibbleOf? low <;> rfl

theorem byteOf?_codeOf {high low : Nat} (high_lt : high < 16) (low_lt : low < 16) :
    byteOf? (codeOf high) (codeOf low) = some (UInt8.ofNat (16 * high + low)) := by
  rw [byteOf?, nibbleOf?_codeOf high_lt, nibbleOf?_codeOf low_lt]
  rfl

/-- The run that passes a test is as long as it can be. -/
theorem isGreatest_length_takeWhile {α : Type} (test : α → Bool) (list : List α) :
    IsGreatest {count | count ≤ list.length ∧ ∀ item ∈ list.take count, test item = true}
      (list.takeWhile test).length := by
  constructor
  · have starts := List.takeWhile_prefix test (l := list)
    refine ⟨starts.length_le, ?_⟩
    rw [← List.prefix_iff_eq_take.1 starts]
    exact fun item member => List.mem_takeWhile_imp member
  · rintro count ⟨short, passes⟩
    rw [← List.take_append_drop count list, List.takeWhile_append_of_pos passes, List.length_append,
      List.length_take_of_le short]
    exact Nat.le_add_right ..

section Group

variable (a b c d e : UInt8)

/-- The bytes that the codes of a group stand for, as far as they do. -/
def readings : List (Option UInt8) := (List.range 4).map fun index =>
  byteOf? (codeAt (pack a b c d e) (2 * index)) (codeAt (pack a b c d e) (2 * index + 1))

theorem decodeGroup_eq : decodeGroup a b c d e
    = ⟨(readings a b c d e).map (·.getD unreadable),
      ((readings a b c d e).takeWhile (·.isSome)).length⟩ := rfl

theorem getElem?_codesIn {index : Nat} (inside : index < 8) :
    (codesIn a b c d e)[index]? = some (codeAt (pack a b c d e) index) := by
  rw [codesIn, List.getElem?_map, List.getElem?_range inside]
  rfl

/-- Bytes can be read as far as the two codes of each of them stand for nibbles. -/
theorem readings_isSome_iff {count : Nat} (short : count ≤ 4) :
    (∀ reading ∈ (readings a b c d e).take count, reading.isSome = true) ↔
      ∀ code ∈ (codesIn a b c d e).take (2 * count), ∃ nibble < 16, codeOf nibble = code := by
  have most : min count 4 = count := Nat.min_eq_left short
  have most' : min (2 * count) 8 = 2 * count := Nat.min_eq_left (by omega)
  rw [readings, codesIn, ← List.map_take, ← List.map_take, List.take_range, List.take_range, most, most']
  simp only [List.mem_map, List.mem_range, forall_exists_index, and_imp, forall_apply_eq_imp_iff₂,
    byteOf?_isSome, Bool.and_eq_true, nibbleOf?_isSome_iff]
  constructor
  · intro pairs place inside
    obtain ⟨first, second⟩ := pairs (place / 2) (by omega)
    rcases Nat.mod_two_eq_zero_or_one place with even | odd
    · rwa [show 2 * (place / 2) = place by omega] at first
    · rwa [show 2 * (place / 2) + 1 = place by omega] at second
  · intro each index inside
    exact ⟨each _ (by omega), each _ (by omega)⟩

/-- A group is read as far as its codes stand for nibbles, two of them for each byte. -/
theorem isGreatest_converted :
    IsGreatest {count | count ≤ 4 ∧
        ∀ code ∈ (codesIn a b c d e).take (2 * count), ∃ nibble < 16, codeOf nibble = code}
      (decodeGroup a b c d e).converted := by
  have most := isGreatest_length_takeWhile (fun reading : Option UInt8 => reading.isSome)
    (readings a b c d e)
  have size : (readings a b c d e).length = 4 := by
    rw [readings, List.length_map, List.length_range]
  rw [decodeGroup_eq]
  refine ⟨⟨size ▸ most.1.1, (readings_isSome_iff a b c d e (size ▸ most.1.1)).1 most.1.2⟩, ?_⟩
  rintro count ⟨short, known⟩
  exact most.2 ⟨by rw [size]; exact short, (readings_isSome_iff a b c d e short).2 known⟩

/-- What was read of a group is what its codes stand for. -/
theorem byte_of_lt_converted {index : Nat} (good : index < (decodeGroup a b c d e).converted) :
    ∃ high < 16, ∃ low < 16, codeAt (pack a b c d e) (2 * index) = codeOf high ∧
      codeAt (pack a b c d e) (2 * index + 1) = codeOf low ∧
      (decodeGroup a b c d e).bytes[index]? = some (UInt8.ofNat (16 * high + low)) := by
  obtain ⟨⟨short, known⟩, _⟩ := isGreatest_converted a b c d e
  have among (place : Nat) (early : place < 2 * (decodeGroup a b c d e).converted) :
      ∃ nibble < 16, codeOf nibble = codeAt (pack a b c d e) place := by
    refine known _ (List.mem_of_getElem? (i := place) ?_)
    rw [List.getElem?_take_of_lt early, getElem?_codesIn a b c d e (by omega)]
  obtain ⟨high, high_lt, first⟩ := among (2 * index) (by omega)
  obtain ⟨low, low_lt, second⟩ := among (2 * index + 1) (by omega)
  refine ⟨high, high_lt, low, low_lt, first.symm, second.symm, ?_⟩
  rw [decodeGroup_eq, List.getElem?_map, readings, List.getElem?_map,
    List.getElem?_range (by omega), Option.map_some, Option.map_some, ← first, ← second,
    byteOf?_codeOf high_lt low_lt]
  rfl

end Group

theorem codeBits_ofNat {high low : Nat} (high_lt : high < 16) (low_lt : low < 16) :
    codeBits (UInt8.ofNat (16 * high + low)) = codeOf high * 32 + codeOf low := by
  have value : (UInt8.ofNat (16 * high + low)).toNat = 16 * high + low := by
    rw [UInt8.toNat_ofNat']
    omega
  have front : (16 * high + low) / 16 = high := by omega
  have back : (16 * high + low) % 16 = low := by omega
  rw [codeBits, value, front, back]

/-- A number of forty bits is made up of its eight codes. -/
theorem eq_of_codeAt {packed : Nat} (small : packed < 1099511627776) :
    packed = (((codeAt packed 0 * 32 + codeAt packed 1) * 1024
      + (codeAt packed 2 * 32 + codeAt packed 3)) * 1024
      + (codeAt packed 4 * 32 + codeAt packed 5)) * 1024
      + (codeAt packed 6 * 32 + codeAt packed 7) := by
  have digit (index : Nat) : codeAt packed index = packed / 32 ^ (7 - index) % 32 := rfl
  simp only [digit]
  omega

/-- What was read in full is coded as it was. -/
theorem encode_decodeGroup {a b c d e : UInt8} (whole : (decodeGroup a b c d e).converted = 4) :
    encode (decodeGroup a b c d e).bytes = .ok [a, b, c, d, e] := by
  have read (index : Nat) (inside : index < 4) := byte_of_lt_converted a b c d e
    (show index < (decodeGroup a b c d e).converted by rwa [whole])
  obtain ⟨h0, h0', l0, l0', first0, second0, byte0⟩ := read 0 (by decide)
  obtain ⟨h1, h1', l1, l1', first1, second1, byte1⟩ := read 1 (by decide)
  obtain ⟨h2, h2', l2, l2', first2, second2, byte2⟩ := read 2 (by decide)
  obtain ⟨h3, h3', l3, l3', first3, second3, byte3⟩ := read 3 (by decide)
  have size := length_decodeGroup a b c d e
  generalize (decodeGroup a b c d e).bytes = bytes at size byte0 byte1 byte2 byte3
  obtain ⟨w, x, y, z, rfl⟩ : ∃ w x y z, bytes = [w, x, y, z] :=
    match bytes, size with
    | [w, x, y, z], _ => ⟨w, x, y, z, rfl⟩
  have hw : w = UInt8.ofNat (16 * h0 + l0) := Option.some.inj byte0
  have hx : x = UInt8.ofNat (16 * h1 + l1) := Option.some.inj byte1
  have hy : y = UInt8.ofNat (16 * h2 + l2) := Option.some.inj byte2
  have hz : z = UInt8.ofNat (16 * h3 + l3) := Option.some.inj byte3
  have ha := a.toNat_lt
  have hb := b.toNat_lt
  have hc := c.toNat_lt
  have hd := d.toNat_lt
  have he := e.toNat_lt
  have number : pack a b c d e
      = (((a.toNat * 256 + b.toNat) * 256 + c.toNat) * 256 + d.toNat) * 256 + e.toNat := rfl
  have bits : groupBits w x y z = pack a b c d e := by
    rw [groupBits, hw, hx, hy, hz, codeBits_ofNat h0' l0', codeBits_ofNat h1' l1', codeBits_ofNat h2' l2',
      codeBits_ofNat h3' l3', ← first0, ← second0, ← first1, ← second1, ← first2, ← second2, ← first3,
      ← second3]
    exact (eq_of_codeAt (by omega)).symm
  have low (byte : UInt8) {value : Nat} (same : value % 256 = byte.toNat) : Bytes.low value = byte := by
    rw [Bytes.low, same, UInt8.ofNat_toNat]
  have coded : encodeGroup w x y z = [a, b, c, d, e] := by
    rw [encodeGroup_eq, bits, low a (by omega), low b (by omega),
      low c (by omega), low d (by omega), low e (by omega)]
  rw [encode_of_groups (by rw [size]), encodeGroups_cons, coded]
  rfl

/-- Each group of a coded run is made of the four bytes at its place. -/
theorem decodeGroup_field {count : Nat} {plain : Bytes} (size : plain.length = 4 * count) {index : Nat}
    (inside : index < count) :
    ∃ v w x y z, (encodeGroups plain).field (5 * index) 5 = [v, w, x, y, z] ∧
      decodeGroup v w x y z = ⟨plain.field (4 * index) 4, 4⟩ := by
  induction count generalizing plain index with
  | zero => exact absurd inside (Nat.not_lt_zero _)
  | succ count ih =>
    match plain, size with
    | a :: b :: c :: d :: tail, size =>
      obtain ⟨v, w, x, y, z, coded, decoded⟩ := decodeGroup_encodeGroup a b c d
      rw [encodeGroups_cons, coded]
      cases index with
      | zero => exact ⟨v, w, x, y, z, rfl, decoded⟩
      | succ index =>
        simp only [List.length_cons] at size
        exact ih (show tail.length = 4 * count by omega) (Nat.lt_of_succ_lt_succ inside)
    | [], size => exact absurd size (by simp)
    | [_], size | [_, _], size | [_, _, _], size => simp at size; omega

/-- The header of a sector is read as it was written. -/
theorem decode?_headerBlock (track sector id1 id0 : UInt8) (more : Bytes) :
    SectorHeader.decode? (encodeGroups (headerBlock track sector id1 id0) ++ more) = some {
      mark := headerMark, checksum := sector ^^^ track ^^^ id1 ^^^ id0
      sector, track, id1, id0, clean := true } := by
  have read := @decodeGroups_encodeGroups 2 (headerBlock track sector id1 id0) (Nat.le_refl 8) more
  rw [SectorHeader.decode?, read]
  rfl

/-- The data of a sector are read as they were written. -/
theorem decode?_dataBlock {data : Bytes} (size : data.length = sectorSize) (more : Bytes) :
    ∃ found, SectorData.decode? (encodeGroups (dataBlock data) ++ more) = some found ∧
      found.data = data ∧ found.converted = sectorSize ∧ found.checksumOk = true := by
  let segment : Segment := {
    ones := 2, plain := dataBlock data, gap := [], long := Nat.le_refl 2
    size := by simp [dataBlock, size, sectorSize]
    quiet := nofun }
  obtain ⟨found, read, same, clean⟩ := segment.decode?_dataBlock rfl size more
  rw [Segment.body, List.append_nil] at read
  rw [SectorData.isClean, Bool.and_eq_true, beq_iff_eq] at clean
  exact ⟨found, read, same, clean⟩

/-- Encoding and decoding are inverse. A run of whole groups comes back in one piece, and from each of
its groups, with every byte counted. A group of any five bytes holds eight codes, whose bits are its own
in a row; it is read as far as they stand for nibbles, two for a byte, and if it is read in full, it is
what its bytes are coded as. So the header and the data of a sector, whatever follows them, are read as
they were written. -/
theorem coding_inverse :
    (∀ plain : Bytes, plain.length % 4 = 0 → ∃ coded, encode plain = .ok coded ∧
      coded.length = 5 * (plain.length / 4) ∧
      decodeGroups (plain.length / 4) coded = some ⟨plain, plain.length⟩ ∧
      ∀ index < plain.length / 4, ∃ v w x y z, coded.field (5 * index) 5 = [v, w, x, y, z] ∧
        decodeGroup v w x y z = ⟨plain.field (4 * index) 4, 4⟩) ∧
    (∀ v w x y z : UInt8,
      (codesIn v w x y z).length = 8 ∧
      (codesIn v w x y z).flatMap (bitsOf 5)
        = [v, w, x, y, z].flatMap (fun byte => bitsOf 8 byte.toNat) ∧
      IsGreatest {count | count ≤ 4 ∧ ∀ code ∈ (codesIn v w x y z).take (2 * count),
          ∃ nibble < 16, codeOf nibble = code} (decodeGroup v w x y z).converted ∧
      (∀ index < (decodeGroup v w x y z).converted, ∃ high < 16, ∃ low < 16,
        (codesIn v w x y z)[2 * index]? = some (codeOf high) ∧
        (codesIn v w x y z)[2 * index + 1]? = some (codeOf low) ∧
        (decodeGroup v w x y z).bytes[index]? = some (UInt8.ofNat (16 * high + low))) ∧
      ((decodeGroup v w x y z).converted = 4 →
        encode (decodeGroup v w x y z).bytes = .ok [v, w, x, y, z])) ∧
    (∀ track sector id1 id0 : UInt8, ∃ coded, encode (headerBlock track sector id1 id0) = .ok coded ∧
      ∀ more, ∃ header, SectorHeader.decode? (coded ++ more) = some header ∧
        header.mark = headerMark ∧ header.sector = sector ∧ header.track = track ∧ header.id1 = id1 ∧
        header.id0 = id0 ∧ header.clean = true ∧ header.checksumOk = true) ∧
    ∀ data : Bytes, data.length = sectorSize → ∃ coded, encode (dataBlock data) = .ok coded ∧
      ∀ more, ∃ found, SectorData.decode? (coded ++ more) = some found ∧ found.data = data ∧
        found.converted = sectorSize ∧ found.checksumOk = true := by
  refine ⟨?runs, ?groups, ?headers, ?data⟩
  case runs =>
    intro plain groups
    have size : plain.length = 4 * (plain.length / 4) := by omega
    refine ⟨_, encode_of_groups groups, length_encodeGroups size, ?_, fun index inside =>
      decodeGroup_field size inside⟩
    have read := decodeGroups_encodeGroups (Nat.le_of_eq size.symm) []
    rwa [List.append_nil, ← size, List.take_length] at read
  case groups =>
    intro v w x y z
    refine ⟨length_codesIn .., bits_codesIn .., isGreatest_converted .., ?_, encode_decodeGroup⟩
    intro index good
    have most := (isGreatest_converted v w x y z).1.1
    obtain ⟨high, high_lt, low, low_lt, first, second, byte⟩ := byte_of_lt_converted v w x y z good
    refine ⟨high, high_lt, low, low_lt, ?_, ?_, byte⟩
    · rw [getElem?_codesIn v w x y z (by omega), first]
    · rw [getElem?_codesIn v w x y z (by omega), second]
  case headers =>
    intro track sector id1 id0
    refine ⟨_, encode_headerBlock .., fun more => ⟨_, decode?_headerBlock .., ?_⟩⟩
    exact ⟨rfl, rfl, rfl, rfl, rfl, rfl, beq_self_eq_true _⟩
  case data =>
    intro data size
    exact ⟨_, encode_dataBlock size, decode?_dataBlock size⟩

/-- One run of two groups, one group that is read in full, and a sector full of ones. -/
theorem coding_inverse_of_ones :
    [0x11, 0x22, 0x33, 0x44, 0x55, 0x66, 0x77, 0x88].length % 4 = 0 ∧
      (∃ coded, encode [0x11, 0x22, 0x33, 0x44, 0x55, 0x66, 0x77, 0x88] = .ok coded ∧
        decodeGroups 2 coded = some ⟨[0x11, 0x22, 0x33, 0x44, 0x55, 0x66, 0x77, 0x88], 8⟩) ∧
      (decodeGroup 0x52 0x54 0xA5 0x29 0x4A).converted = 4 ∧
      encode (decodeGroup 0x52 0x54 0xA5 0x29 0x4A).bytes = .ok [0x52, 0x54, 0xA5, 0x29, 0x4A] ∧
      (List.replicate 256 (0xFF : UInt8)).length = sectorSize ∧
      ∃ coded, encode (dataBlock (List.replicate 256 0xFF)) = .ok coded ∧
        ∃ found, SectorData.decode? (coded ++ [0x55]) = some found ∧
          found.data = List.replicate 256 0xFF ∧ found.converted = sectorSize ∧
          found.checksumOk = true := by
  obtain ⟨runs, groups, _, blocks⟩ := coding_inverse
  have size : (List.replicate 256 (0xFF : UInt8)).length = sectorSize := List.length_replicate
  have read : (decodeGroup 0x52 0x54 0xA5 0x29 0x4A).converted = 4 := by decide
  obtain ⟨coded, written, _, whole, _⟩ := runs [0x11, 0x22, 0x33, 0x44, 0x55, 0x66, 0x77, 0x88] rfl
  obtain ⟨block, laid, law⟩ := blocks (List.replicate 256 0xFF) size
  have again := (groups 0x52 0x54 0xA5 0x29 0x4A).2.2.2.2 read
  refine ⟨rfl, ⟨coded, written, whole⟩, read, again, size, block, ?_, ?_⟩
  · exact laid
  · exact law [0x55]

/-- A group whose fifth code stands for no nibble. -/
example : (decodeGroup 0x5A 0xE5 0x20 0x4D 0xCE).converted = 2 := by decide

/-! ## Rows of codes

Coded bytes are five-bit codes in a row, and any row of whole groups can be written as bytes: also one
that holds a code of no nibble, as after damage. -/

/-- The codes of coded bytes in order, eight for every five bytes. -/
def readCodes : Bytes → List Nat
  | a :: b :: c :: d :: e :: rest => codesIn a b c d e ++ readCodes rest
  | _ => []

/-- A row of codes as bytes, five for every eight codes. -/
def writeCodes : List Nat → Bytes
  | s :: t :: u :: v :: w :: x :: y :: z :: rest =>
    Bytes.low (s * 8 + t / 4) :: Bytes.low (t * 64 + u * 2 + v / 16) :: Bytes.low (v * 16 + w / 2)
      :: Bytes.low (w * 128 + x * 4 + y / 8) :: Bytes.low (y * 32 + z) :: writeCodes rest
  | _ => []

/-- Coded bytes with another code at one place. -/
def replaceCode (coded : Bytes) (place code : Nat) : Bytes :=
  writeCodes ((readCodes coded).set place code)

/-- The two codes of a byte. -/
def codesOf (byte : UInt8) : List Nat := [codeOf (byte.toNat / 16), codeOf (byte.toNat % 16)]

theorem mem_codesOf {byte : UInt8} {code : Nat} (member : code ∈ codesOf byte) :
    ∃ nibble < 16, codeOf nibble = code := by
  have small := byte.toNat_lt
  rcases List.mem_pair.1 member with rfl | rfl
  · exact ⟨_, by omega, rfl⟩
  · exact ⟨_, by omega, rfl⟩

/-- Bytes are coded by writing their codes in a row. -/
theorem encodeGroups_eq_writeCodes (plain : Bytes) :
    encodeGroups plain = writeCodes (plain.flatMap codesOf) := by
  fun_induction encodeGroups plain with
  | case1 a b c d rest ih =>
    have digit (byte : UInt8) : codeBits byte
        = codeOf (byte.toNat / 16) * 32 + codeOf (byte.toNat % 16) := rfl
    have small (byte : UInt8) : codeOf (byte.toNat / 16) < 31 ∧ codeOf (byte.toNat % 16) < 31 :=
      ⟨codeOf_lt (by have := byte.toNat_lt; omega), codeOf_lt (by omega)⟩
    have := small a
    have := small b
    have := small c
    have := small d
    have low {first second : Nat} (same : first % 256 = second % 256) :
        Bytes.low first = Bytes.low second := by rw [Bytes.low, same, Bytes.low]
    simp only [encodeGroup_eq, groupBits, digit, List.flatMap_cons, codesOf, List.cons_append,
      List.nil_append, writeCodes, ih, List.cons.injEq, and_true]
    refine ⟨low ?_, low ?_, low ?_, low ?_, low ?_⟩ <;> omega
  | case2 plain few =>
    rcases plain with _ | ⟨a, _ | ⟨b, _ | ⟨c, _ | ⟨d, rest⟩⟩⟩⟩
    case cons.cons.cons.cons => exact absurd rfl (few a b c d rest)
    all_goals rfl

theorem exists_group_of_length {codes : List Nat} (long : 8 ≤ codes.length) :
    ∃ s t u v w x y z rest, codes = s :: t :: u :: v :: w :: x :: y :: z :: rest := by
  rcases codes with
    _ | ⟨s, _ | ⟨t, _ | ⟨u, _ | ⟨v, _ | ⟨w, _ | ⟨x, _ | ⟨y, _ | ⟨z, rest⟩⟩⟩⟩⟩⟩⟩⟩
  case cons.cons.cons.cons.cons.cons.cons.cons => exact ⟨s, t, u, v, w, x, y, z, rest, rfl⟩
  all_goals simp at long

/-- A row of whole groups is read as it was written. -/
theorem readCodes_writeCodes {codes : List Nat} (small : ∀ code ∈ codes, code < 32)
    (groups : codes.length % 8 = 0) : readCodes (writeCodes codes) = codes := by
  fun_induction writeCodes codes with
  | case1 s t u v w x y z rest ih =>
    simp only [List.mem_cons, forall_eq_or_imp] at small
    obtain ⟨hs, ht, hu, hv, hw, hx, hy, hz, small⟩ := small
    simp only [List.length_cons] at groups
    have digit (packed index : Nat) : codeAt packed index = packed / 32 ^ (7 - index) % 32 := rfl
    rw [readCodes, ih small (by omega)]
    simp only [codesIn, List.range, List.range.loop, List.map_cons, List.map_nil, digit, pack, toNat_low,
      List.cons_append, List.nil_append, List.cons.injEq, and_true]
    refine ⟨?_, ?_, ?_, ?_, ?_, ?_, ?_, ?_⟩ <;> omega
  | case2 codes few =>
    by_cases long : 8 ≤ codes.length
    · obtain ⟨s, t, u, v, w, x, y, z, rest, rfl⟩ := exists_group_of_length long
      exact absurd rfl (few s t u v w x y z rest)
    · obtain rfl : codes = [] := List.length_eq_zero_iff.1 (by omega)
      rfl

end RetroMedia.Gcr
