import RetroMedia.Proofs.Checked.Basic
import RetroMedia.Stream.Container
import RetroMedia.Text.Petscii

/-! Words, names and containers with checked accesses. -/
namespace RetroMedia.Checked

/-- The number in the `count` bytes at `offset`, least significant byte first. -/
def word (count : Nat) (bytes : Bytes) (offset : Nat) : Checked Nat := do
  let stored ← (List.range count).mapM fun place => do
    item bytes (← add UInt64.size offset place)
  return Bytes.littleEndian stored

theorem word_eq {count offset : Nat} {bytes : Bytes} (inside : offset + count ≤ bytes.length)
    (addressable : bytes.length ≤ UInt64.size) :
    word count bytes offset
      = .ok (Bytes.littleEndian ((List.range count).map fun place => bytes.byte (offset + place))) := by
  have each : ∀ place ∈ List.range count, (do item bytes (← add UInt64.size offset place))
      = (.ok (bytes.byte (offset + place)) : Checked UInt8) := by
    intro place member
    rw [List.mem_range] at member
    rw [add_eq (by omega), ok_bind, byte_eq (by omega)]
  rw [word, mapM_eq each]
  rfl

theorem le16_eq {offset : Nat} {bytes : Bytes} (inside : offset + 2 ≤ bytes.length)
    (addressable : bytes.length ≤ UInt64.size) :
    word 2 bytes offset = .ok (bytes.le16 offset) := word_eq inside addressable

theorem le24_eq {offset : Nat} {bytes : Bytes} (inside : offset + 3 ≤ bytes.length)
    (addressable : bytes.length ≤ UInt64.size) :
    word 3 bytes offset = .ok (bytes.le24 offset) := word_eq inside addressable

theorem le32_eq {offset : Nat} {bytes : Bytes} (inside : offset + 4 ≤ bytes.length)
    (addressable : bytes.length ≤ UInt64.size) :
    word 4 bytes offset = .ok (bytes.le32 offset) := word_eq inside addressable

/-- A field of so few bytes can be addressed. -/
theorem field_lt (bytes : Bytes) (offset : Nat) {length : Nat} (short : length < 4294967296) :
    (bytes.field offset length).length < UInt64.size :=
  Nat.lt_of_le_of_lt (Bytes.length_field_le ..) (lt_word short)

/-- The place of the last byte that passes the test. -/
def lastPlace? (test : UInt8 → Bool) (bytes : Bytes) : Option Nat :=
  (bytes.reverse.findIdx? test).map (bytes.length - 1 - ·)

/-- Where the bytes up to the last one that passes the test end. -/
def endOfLast (test : UInt8 → Bool) (bytes : Bytes) : Checked Nat := do
  match lastPlace? test bytes with
  | some place => add UInt64.size place 1
  | none => return 0

theorem endOfLast_eq {bytes : Bytes} (addressable : bytes.length < UInt64.size)
    (test : UInt8 → Bool) :
    endOfLast test bytes = .ok (bytes.length - bytes.reverse.findIdx test) := by
  rw [endOfLast, lastPlace?]
  cases found : bytes.reverse.findIdx? test with
  | none =>
    rw [List.findIdx?_eq_none_iff_findIdx_eq, List.length_reverse] at found
    rw [found, Nat.sub_self]
    rfl
  | some back =>
    rw [List.findIdx?_eq_some_iff_findIdx_eq, List.length_reverse] at found
    obtain ⟨inside, same⟩ := found
    have stop : bytes.length - 1 - back + 1 = bytes.length - back := by omega
    rw [same]
    dsimp only [Option.map_some]
    rw [add_eq (by omega), stop]

/-- The bytes up to the last one that is no padding. -/
def trimPadding (bytes : Bytes) (padding : UInt8) : Checked Bytes := do
  part bytes 0 (← endOfLast (· != padding) bytes)

theorem trimPadding_eq {bytes : Bytes} (addressable : bytes.length < UInt64.size) (padding : UInt8) :
    trimPadding bytes padding = .ok (Petscii.trimPadding bytes padding) := by
  have trimmed : Petscii.trimPadding bytes padding
      = bytes.take (bytes.length - bytes.reverse.findIdx (· != padding)) := by
    rw [Petscii.trimPadding, List.dropWhile_eq_drop_findIdx_not, List.drop_reverse,
      List.reverse_reverse]
    rfl
  rw [trimPadding, endOfLast_eq addressable, ok_bind, part_eq (Nat.zero_le _) (Nat.sub_le ..), trimmed]
  rfl

/-- The bytes without one padding after the other. -/
def trimEach : List UInt8 → Bytes → Checked Bytes
  | [], bytes => return bytes
  | padding :: rest, bytes => do trimEach rest (← trimPadding bytes padding)

theorem trimEach_eq {paddings : List UInt8} {bytes : Bytes} (addressable : bytes.length < UInt64.size) :
    trimEach paddings bytes = .ok (paddings.foldl Petscii.trimPadding bytes) := by
  induction paddings generalizing bytes with
  | nil => rfl
  | cons padding rest ih =>
    have shorter := Petscii.trimPadding_length_le bytes padding
    rw [trimEach, trimPadding_eq addressable, ok_bind, ih (Nat.lt_of_le_of_lt shorter addressable)]
    rfl

/-- The character of a byte. A shifted letter is found so many places before its code. -/
def toChar (byte : UInt8) : Checked Char := do
  if byte == 0x5C then return '£'
  else if byte == 0x5E then return '↑'
  else if byte == 0x5F then return '←'
  else if 0x20 ≤ byte && byte ≤ 0x7E then return Char.ofUInt8 byte
  else if 0xC1 ≤ byte && byte ≤ 0xDA then
    return Char.ofUInt8 (UInt8.ofNat (← sub byte.toNat 0x80))
  else if byte == Petscii.shiftedSpace then return ' '
  else return '?'

theorem toChar_eq (byte : UInt8) : toChar byte = .ok (Petscii.toChar byte) := by
  have shift : (0xC1 ≤ byte && byte ≤ 0xDA) = true →
      sub byte.toNat 0x80 = .ok (byte.toNat - 0x80) ∧
        UInt8.ofNat (byte.toNat - 0x80) = byte - 0x80 := by
    intro letter
    simp only [Bool.and_eq_true, decide_eq_true_eq] at letter
    have low : 0x80 ≤ byte := UInt8.le_trans (by decide) letter.1
    refine ⟨sub_eq (UInt8.le_iff_toNat_le.1 low), ?_⟩
    rw [← UInt8.toNat_inj, UInt8.toNat_sub_of_le _ _ low, UInt8.toNat_ofNat']
    have size := byte.toNat_lt
    change (byte.toNat - 128) % 256 = byte.toNat - 128
    omega
  unfold toChar Petscii.toChar
  by_cases letter : (0xC1 ≤ byte && byte ≤ 0xDA) = true
  · rw [(shift letter).1, ok_bind, (shift letter).2]
    repeat' split
    all_goals rfl
  · rw [if_neg letter, if_neg letter]
    repeat' split
    all_goals rfl

def toText (bytes : Bytes) : Checked String := do
  return String.ofList (← bytes.mapM toChar)

theorem toText_eq (bytes : Bytes) : toText bytes = .ok (Petscii.toText bytes) := by
  rw [toText, mapM_eq fun byte _ => toChar_eq byte]
  rfl

/-- Exactly `length` bytes at `offset`. -/
def slice (container : Container) (offset length : Nat) : Checked (Except MediaError Bytes) := do
  if offset + length < UInt64.size ∧ offset + length ≤ container.size then
    return .ok (← part container.toBytes offset (offset + length))
  else return .error .shortRead

theorem length_toBytes (container : Container) : container.toBytes.length = container.size := by
  simp [Container.toBytes, Container.size]

theorem slice_eq {container : Container} (addressable : container.size < UInt64.size)
    (offset length : Nat) : slice container offset length = .ok (container.slice offset length) := by
  unfold slice Container.slice
  by_cases inside : offset + length ≤ container.size
  · rw [if_pos ⟨by omega, inside⟩, if_pos inside,
      part_eq (by omega) (by rw [length_toBytes]; exact inside), ok_bind,
      Container.readAt_eq, Nat.add_sub_cancel_left]
    rfl
  · rw [if_neg fun both => inside both.2, if_neg inside]
    rfl

theorem size_lt {container : Container} (held : container.size ≤ longestArray) :
    container.size < UInt64.size := Nat.lt_of_le_of_lt held (by decide)

/-- Parse a header of `size` bytes that begins with a signature. -/
def withHeader (container : Container) (size : Nat) (signature : Bytes)
    (parse : Bytes → Checked (Except MediaError α)) : Checked (Except MediaError α) := do
  match ← slice container 0 size with
  | .error error => return .error error
  | .ok header =>
    if (← part header 0 signature.length) != signature then return .error .unknownFormat
    else parse header

theorem opens_withHeader {container : Container} (addressable : container.size < UInt64.size)
    {size : Nat} {signature : Bytes} (fits : signature.length ≤ size) {sound : β → Prop}
    {plain : β → α} {parse : Bytes → Checked (Except MediaError β)}
    {plainParse : Bytes → Except MediaError α}
    (parses : ∀ header : Bytes, header.length = size →
      Opens sound plain (parse header) (plainParse header)) :
    Opens sound plain (withHeader container size signature parse) (do
      let header ← container.slice 0 size
      if header.take signature.length != signature then .error .unknownFormat
      else plainParse header) := by
  unfold withHeader
  rw [slice_eq addressable, ok_bind]
  cases read : container.slice 0 size with
  | error error => exact opens_error error
  | ok header =>
    have whole := Container.length_of_slice read
    change Opens sound plain (part header 0 signature.length >>= _) (ite _ _ _)
    rw [part_eq (Nat.zero_le _) (by omega), ok_bind, Nat.sub_zero, Bytes.field, List.drop_zero]
    by_cases foreign : (header.take signature.length != signature) = true
    · rw [if_pos foreign, if_pos foreign]
      exact opens_error _
    · rw [if_neg foreign, if_neg foreign]
      exact parses header whole

/-- As many of the bytes at `offset` as there are, and as fit into a buffer. -/
def readAt (container : Container) (offset count : Nat) : Checked Bytes := do
  if container.size ≤ offset then return []
  else
    let there := min count (← sub container.size offset)
    let read ← part container.toBytes offset (← add UInt64.size offset there)
    if there ≤ count then filling there read else throw .outOfBounds

theorem readAt_eq {container : Container} (addressable : container.size < UInt64.size)
    (offset count : Nat) : readAt container offset count = .ok (container.readAt offset count) := by
  have size := container.length_readAt offset count
  unfold readAt
  by_cases beyond : container.size ≤ offset
  · have none : container.readAt offset count = [] := by
      rw [← List.length_eq_zero_iff, size]
      omega
    rw [if_pos beyond, none]
    rfl
  · have least := Nat.min_le_right count (container.size - offset)
    have same : container.toBytes.field offset (min count (container.size - offset))
        = container.readAt offset count := by
      rw [Container.readAt_eq, Bytes.field, List.take_eq_take_iff, List.length_drop, length_toBytes]
      omega
    rw [if_neg beyond, sub_eq (by omega), ok_bind]
    dsimp only
    rw [add_eq (by omega), ok_bind,
      part_eq (by omega) (by rw [length_toBytes]; omega), ok_bind, Nat.add_sub_cancel_left, same,
      if_pos (Nat.min_le_left ..), filling_eq size]

end RetroMedia.Checked
