import RetroMedia.Gcr.Code

/-! Laws of the group code: decoding gives back what was encoded. -/
namespace RetroMedia.Gcr

theorem codeOf_lt {nibble : Nat} (small : nibble < 16) : codeOf nibble < 31 := by
  revert nibble
  decide

theorem toNat_low (value : Nat) : (Bytes.low value).toNat = value % 256 := by
  simp [Bytes.low]

/-- The forty bits of a coded group. -/
def groupBits (a b c d : UInt8) : Nat :=
  ((codeBits a * 1024 + codeBits b) * 1024 + codeBits c) * 1024 + codeBits d

theorem encodeGroup_eq (a b c d : UInt8) :
    encodeGroup a b c d = [Bytes.low (groupBits a b c d / 4294967296),
      Bytes.low (groupBits a b c d / 16777216), Bytes.low (groupBits a b c d / 65536),
      Bytes.low (groupBits a b c d / 256), Bytes.low (groupBits a b c d)] := by
  simp [encodeGroup, groupBits, List.range, List.range.loop]

/-- Two codes, neither of them all ones. -/
theorem codeBits_split (byte : UInt8) : ∃ high low, high < 31 ∧ low < 31 ∧
    codeBits byte = high * 32 + low ∧ byteOf? high low = some byte := by
  have small := byte.toNat_lt
  have high : byte.toNat / 16 < 16 := by omega
  have low : byte.toNat % 16 < 16 := by omega
  refine ⟨_, _, codeOf_lt high, codeOf_lt low, rfl, ?_⟩
  simp only [byteOf?, nibbleOf?_codeOf high, nibbleOf?_codeOf low]
  have whole : 16 * (byte.toNat / 16) + byte.toNat % 16 = byte.toNat := by omega
  simp only [Option.bind_eq_bind, Option.bind_some, whole, UInt8.ofNat_toNat]
  rfl

theorem pack_low {value : Nat} (small : value < 1099511627776) :
    pack (Bytes.low (value / 4294967296)) (Bytes.low (value / 16777216))
      (Bytes.low (value / 65536)) (Bytes.low (value / 256)) (Bytes.low value) = value := by
  simp only [pack, toNat_low]
  omega

/-- The eight codes of a group, one after another. -/
theorem groupBits_split (a b c d : UInt8) : ∃ ah al bh bl ch cl dh dl,
    (ah < 31 ∧ al < 31 ∧ byteOf? ah al = some a) ∧ (bh < 31 ∧ bl < 31 ∧ byteOf? bh bl = some b) ∧
      (ch < 31 ∧ cl < 31 ∧ byteOf? ch cl = some c) ∧ (dh < 31 ∧ dl < 31 ∧ byteOf? dh dl = some d) ∧
      groupBits a b c d
        = ((((((ah * 32 + al) * 32 + bh) * 32 + bl) * 32 + ch) * 32 + cl) * 32 + dh) * 32 + dl := by
  obtain ⟨ah, al, ah', al', abits, abyte⟩ := codeBits_split a
  obtain ⟨bh, bl, bh', bl', bbits, bbyte⟩ := codeBits_split b
  obtain ⟨ch, cl, ch', cl', cbits, cbyte⟩ := codeBits_split c
  obtain ⟨dh, dl, dh', dl', dbits, dbyte⟩ := codeBits_split d
  refine ⟨ah, al, bh, bl, ch, cl, dh, dl, ⟨ah', al', abyte⟩, ⟨bh', bl', bbyte⟩, ⟨ch', cl', cbyte⟩,
    ⟨dh', dl', dbyte⟩, ?_⟩
  simp only [groupBits, abits, bbits, cbits, dbits]
  omega

/-- Decoding a coded group gives its bytes back, all of them readable. -/
theorem decodeGroup_encodeGroup (a b c d : UInt8) :
    ∃ v w x y z, encodeGroup a b c d = [v, w, x, y, z] ∧
      decodeGroup v w x y z = ⟨[a, b, c, d], 4⟩ := by
  obtain ⟨ah, al, bh, bl, ch, cl, dh, dl, ⟨_, _, abyte⟩, ⟨_, _, bbyte⟩, ⟨_, _, cbyte⟩,
    ⟨_, _, dbyte⟩, bits⟩ := groupBits_split a b c d
  refine ⟨_, _, _, _, _, encodeGroup_eq a b c d, ?_⟩
  have packed := @pack_low (groupBits a b c d) (by omega)
  simp only [decodeGroup, packed]
  have digit (index : Nat) : codeAt (groupBits a b c d) index
      = groupBits a b c d / 32 ^ (7 - index) % 32 := rfl
  have c0 : codeAt (groupBits a b c d) 0 = ah := by rw [digit]; omega
  have c1 : codeAt (groupBits a b c d) 1 = al := by rw [digit]; omega
  have c2 : codeAt (groupBits a b c d) 2 = bh := by rw [digit]; omega
  have c3 : codeAt (groupBits a b c d) 3 = bl := by rw [digit]; omega
  have c4 : codeAt (groupBits a b c d) 4 = ch := by rw [digit]; omega
  have c5 : codeAt (groupBits a b c d) 5 = cl := by rw [digit]; omega
  have c6 : codeAt (groupBits a b c d) 6 = dh := by rw [digit]; omega
  have c7 : codeAt (groupBits a b c d) 7 = dl := by rw [digit]; omega
  simp [List.range, List.range.loop, c0, c1, c2, c3, c4, c5, c6, c7, abyte, bbyte, cbyte, dbyte]

theorem encodeGroups_cons (a b c d : UInt8) (rest : Bytes) :
    encodeGroups (a :: b :: c :: d :: rest) = encodeGroup a b c d ++ encodeGroups rest := rfl

/-- The first groups of a coded run come out as the bytes they were made of. -/
theorem decodeGroups_encodeGroups {count : Nat} {plain : Bytes} (enough : 4 * count ≤ plain.length)
    (rest : Bytes) :
    decodeGroups count (encodeGroups plain ++ rest) = some ⟨plain.take (4 * count), 4 * count⟩ := by
  induction count generalizing plain with
  | zero => rfl
  | succ count ih =>
    match plain, enough with
    | a :: b :: c :: d :: tail, enough =>
      obtain ⟨v, w, x, y, z, coded, decoded⟩ := decodeGroup_encodeGroup a b c d
      have more := @ih tail (by simp at enough; omega)
      rw [encodeGroups_cons, coded]
      simp only [List.cons_append, List.nil_append, decodeGroups, decoded, more]
      have size : 4 * (count + 1) = 4 * count + 4 := by omega
      simp [Group.isBad, size]
      omega
    | [_], enough | [_, _], enough | [_, _, _], enough => simp at enough; omega

theorem length_encodeGroups {plain : Bytes} {count : Nat} (size : plain.length = 4 * count) :
    (encodeGroups plain).length = 5 * count := by
  induction count generalizing plain with
  | zero =>
    rw [List.length_eq_zero_iff.1 size]
    rfl
  | succ count ih =>
    match plain, size with
    | a :: b :: c :: d :: tail, size =>
      rw [encodeGroups_cons, encodeGroup_eq, List.length_append, ih (by simp at size; omega)]
      simp
      omega
    | [_], size | [_, _], size | [_, _, _], size => simp at size; omega

/-- What follows the groups is not looked at. -/
theorem decodeGroups_append {count : Nat} {coded : Bytes} {decoded : Decoded}
    (found : decodeGroups count coded = some decoded) (more : Bytes) :
    decodeGroups count (coded ++ more) = some decoded := by
  induction count generalizing coded decoded with
  | zero => exact found
  | succ count ih =>
    match coded, found with
    | a :: b :: c :: d :: e :: rest, found =>
      simp only [decodeGroups, Option.bind_eq_bind, Option.bind_eq_some_iff] at found
      obtain ⟨tail, read, same⟩ := found
      simp only [List.cons_append, decodeGroups, ih read, Option.bind_eq_bind, Option.bind_some]
      exact same
    | [], found | [_], found | [_, _], found | [_, _, _], found | [_, _, _, _], found =>
      simp [decodeGroups] at found

end RetroMedia.Gcr
