import RetroMedia.Text.Utf8

/-! Text written as bytes and read back. Each character is read back from its own bytes, whatever bytes
follow them. -/
namespace RetroMedia.Utf8

theorem chars_of_ascii {bytes : Bytes} (ascii : ∀ byte ∈ bytes, byte < 0x80) :
    chars bytes = bytes.map fun byte => some (Char.ofUInt8 byte) := by
  induction bytes with
  | nil => rw [chars]; rfl
  | cons byte rest ih =>
    have first : takeChar byte rest = (some (Char.ofUInt8 byte), rest) := by
      rw [takeChar, if_pos (ascii byte List.mem_cons_self)]
    rw [chars, first, List.map_cons, ih fun other member => ascii other (.tail _ member)]

/-- Each byte of ASCII text is a character. -/
theorem decodeLossy_of_ascii {bytes : Bytes} (ascii : ∀ byte ∈ bytes, byte < 0x80) :
    decodeLossy bytes = String.ofList (bytes.map Char.ofUInt8) := by
  rw [decodeLossy, chars_of_ascii ascii, List.map_map]
  rfl

theorem encode_eq (text : String) : encode text = text.toList.flatMap String.utf8EncodeChar := by
  unfold encode
  rw [String.toUTF8, ← String.utf8Encode_toList, List.utf8Encode, List.data_toByteArray]

/-- ASCII characters are single bytes. -/
theorem flatMap_of_ascii {chars : List Char} (ascii : ∀ char ∈ chars, char.toNat < 0x80) :
    chars.flatMap String.utf8EncodeChar = chars.map Char.toUInt8 := by
  induction chars with
  | nil => rfl
  | cons char chars ih =>
    have small : char.val.toNat ≤ 0x7F := Nat.le_of_lt_succ (ascii char List.mem_cons_self)
    have single : String.utf8EncodeChar char = [char.toUInt8] := by
      rw [String.utf8EncodeChar]
      exact if_pos small
    rw [List.flatMap_cons, single, ih fun other member => ascii other (List.mem_cons_of_mem _ member)]
    rfl

/-- No byte of a longer character is a byte of ASCII. -/
theorem utf8EncodeChar_cases (char : Char) :
    String.utf8EncodeChar char = [char.toUInt8] ∧ char.toNat < 0x80 ∨
      ∀ byte ∈ String.utf8EncodeChar char, 0x80 ≤ byte := by
  have large {number : Nat} (high : 128 ≤ number) (small : number < 256) :
      0x80 ≤ UInt8.ofNat number := by
    rw [UInt8.le_iff_toNat_le, UInt8.toNat_ofNat_of_lt' small]
    exact high
  unfold String.utf8EncodeChar
  dsimp only
  split
  · rename_i small
    exact .inl ⟨rfl, Nat.lt_succ_of_le small⟩
  · right
    (repeat' split) <;> simp only [List.forall_mem_cons, List.not_mem_nil, false_implies,
      implies_true, and_true]
    · exact ⟨large (by omega) (by omega), large (by omega) (by omega)⟩
    · exact ⟨large (by omega) (by omega), large (by omega) (by omega), large (by omega) (by omega)⟩
    · exact ⟨large (by omega) (by omega), large (by omega) (by omega), large (by omega) (by omega),
        large (by omega) (by omega)⟩

theorem lead_of_two {high : Nat} (small : high < 32) (large : 2 ≤ high) :
    lead (UInt8.ofNat (high + 192)) = some (1, high, 0x80, 0xBF) := by
  have table : ∀ above < 30, lead (UInt8.ofNat (above + 2 + 192)) = some (1, above + 2, 0x80, 0xBF) := by
    decide
  obtain ⟨above, rfl⟩ := Nat.exists_eq_add_of_le' large
  exact table above (by omega)

/-- Where some of the longer forms are not allowed, the second byte is bounded. -/
theorem lead_of_three : ∀ high < 16, lead (UInt8.ofNat (high + 224))
    = some (2, high, if high = 0 then 0xA0 else 0x80, if high = 13 then 0x9F else 0xBF) := by
  decide

theorem lead_of_four : ∀ high < 5, lead (UInt8.ofNat (high + 240))
    = some (3, high, if high = 0 then 0x90 else 0x80, if high = 4 then 0x8F else 0xBF) := by
  decide

theorem takeChar_of_lead {number count value : Nat} {least greatest : UInt8} (small : number < 256)
    (high : 128 ≤ number) (known : lead (UInt8.ofNat number) = some (count, value, least, greatest))
    (rest : Bytes) :
    takeChar (UInt8.ofNat number) rest = continueChar count value least greatest rest := by
  have above : ¬ UInt8.ofNat number < 0x80 := by
    rw [UInt8.lt_iff_toNat_lt, UInt8.toNat_ofNat_of_lt' small]
    exact Nat.not_lt.2 high
  rw [takeChar, if_neg above, known]

theorem continueChar_tail {low : Nat} (small : low < 64) {least greatest : UInt8}
    (above : least.toNat ≤ low + 128) (below : low + 128 ≤ greatest.toNat) (count value : Nat)
    (rest : Bytes) :
    continueChar (count + 1) value least greatest (UInt8.ofNat (low + 128) :: rest)
      = continueChar count (value * 64 + low) 0x80 0xBF rest := by
  have number : (UInt8.ofNat (low + 128)).toNat = low + 128 := by
    rw [UInt8.toNat_ofNat_of_lt' (by simp [UInt8.size]; omega)]
  have payload : (UInt8.ofNat (low + 128) &&& 0x3F).toNat = low := by
    rw [UInt8.toNat_and, number]
    change (low + 128) &&& (2 ^ 6 - 1) = low
    rw [Nat.and_two_pow_sub_one_eq_mod]
    omega
  generalize UInt8.ofNat (low + 128) = byte at number payload
  rw [continueChar, if_pos (by simp [UInt8.le_iff_toNat_le, number, above, below]), payload]

theorem takeChar_ascii : ∀ number < 128, ∀ rest,
    takeChar (UInt8.ofNat number) rest = (some (Char.ofNat number), rest) := by
  have low : ∀ number < 128, UInt8.ofNat number < 0x80 ∧
      Char.ofUInt8 (UInt8.ofNat number) = Char.ofNat number := by decide
  intro number small rest
  rw [takeChar, if_pos (low number small).1, (low number small).2]

/-- A character is read back from its bytes. -/
theorem takeChar_utf8EncodeChar (char : Char) (rest : Bytes) :
    ∃ first tail, String.utf8EncodeChar char = first :: tail ∧
      takeChar first (tail ++ rest) = (some char, rest) := by
  have valid : char.val.toNat < 0xD800 ∨ 0xDFFF < char.val.toNat ∧ char.val.toNat < 0x110000 :=
    char.valid
  have same : Char.ofNat char.val.toNat = char := Char.ofNat_toNat char
  unfold String.utf8EncodeChar
  generalize char.val.toNat = number at valid same
  dsimp only
  by_cases one : number ≤ 0x7F
  · rw [if_pos one]
    refine ⟨_, [], rfl, ?_⟩
    rw [← same]
    exact takeChar_ascii number (by omega) rest
  rw [if_neg one]
  by_cases two : number ≤ 0x7FF
  · rw [if_pos two]
    refine ⟨_, [UInt8.ofNat (number % 64 + 128)], rfl, ?_⟩
    have known := lead_of_two (show number / 64 % 32 < 32 by omega) (by omega)
    rw [takeChar_of_lead (by omega) (by omega) known, List.singleton_append,
      continueChar_tail (by omega) (by simp) (by simp; omega)]
    rw [continueChar, ← same]
    congr 3
    omega
  rw [if_neg two]
  by_cases three : number ≤ 0xFFFF
  · rw [if_pos three]
    refine ⟨_, [UInt8.ofNat (number / 64 % 64 + 128), UInt8.ofNat (number % 64 + 128)], rfl, ?_⟩
    have known := lead_of_three (number / 4096 % 16) (by omega)
    rw [takeChar_of_lead (by omega) (by omega) known, List.cons_append, List.singleton_append,
      continueChar_tail (by omega) _ _, continueChar_tail (by omega) (by simp) (by simp; omega)]
    · rw [continueChar, ← same]
      congr 3
      omega
    · split
      · simp
        omega
      · simp
    · split
      · simp
        omega
      · simp
        omega
  rw [if_neg three]
  refine ⟨_, [UInt8.ofNat (number / 4096 % 64 + 128), UInt8.ofNat (number / 64 % 64 + 128),
    UInt8.ofNat (number % 64 + 128)], rfl, ?_⟩
  have known := lead_of_four (number / 262144 % 8) (by omega)
  rw [takeChar_of_lead (by omega) (by omega) known, List.cons_append, List.cons_append,
    List.singleton_append, continueChar_tail (by omega) _ _,
    continueChar_tail (by omega) (by simp) (by simp; omega),
    continueChar_tail (by omega) (by simp) (by simp; omega)]
  · rw [continueChar, ← same]
    congr 3
    omega
  · split
    · simp
      omega
    · simp
  · split
    · simp
      omega
    · simp
      omega

/-- The characters of a text are read back from its bytes. -/
theorem chars_flatMap (text : List Char) :
    chars (text.flatMap String.utf8EncodeChar) = text.map some := by
  induction text with
  | nil => rw [List.flatMap_nil, chars, List.map_nil]
  | cons char rest ih =>
    obtain ⟨first, tail, bytes, taken⟩ :=
      takeChar_utf8EncodeChar char (rest.flatMap String.utf8EncodeChar)
    rw [List.flatMap_cons, bytes, List.cons_append, chars, taken, ih, List.map_cons]

/-- A text is read back from its bytes. -/
theorem decode?_encode (text : String) : decode? (encode text) = some text := by
  have whole (text : List Char) : (text.map some).mapM id = some text := by
    induction text with
    | nil => rfl
    | cons char rest ih => simp [ih]
  rw [decode?, encode_eq, chars_flatMap, whole, Option.map_some, String.ofList_toList]

end RetroMedia.Utf8
