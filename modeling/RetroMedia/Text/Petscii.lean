import RetroMedia.Bytes

/-! Printable renditions of the character set in which names and labels are stored. A name that does
not end in its padding comes back from its padded form. -/
namespace RetroMedia.Petscii

/-- The shifted space that fills the unused end of a name. -/
def shiftedSpace : UInt8 := 0xA0

/-- One stored byte as a character. Shifted letters read as their unshifted forms and every byte
without a rendition as a question mark. -/
def toChar (byte : UInt8) : Char :=
  if byte == 0x5C then '£'
  else if byte == 0x5E then '↑'
  else if byte == 0x5F then '←'
  else if 0x20 ≤ byte && byte ≤ 0x7E then Char.ofUInt8 byte
  else if 0xC1 ≤ byte && byte ≤ 0xDA then Char.ofUInt8 (byte - 0x80)
  else if byte == shiftedSpace then ' '
  else '?'

def toText (bytes : Bytes) : String := String.ofList (bytes.map toChar)

/-- The bytes without the run of `padding` at their end. -/
def trimPadding (bytes : Bytes) (padding : UInt8) : Bytes :=
  (bytes.reverse.dropWhile (· == padding)).reverse

/-- The text of a padded name. -/
def ofPadded (bytes : Bytes) (padding : UInt8) : String := toText (trimPadding bytes padding)

theorem trimPadding_length_le (bytes : Bytes) (padding : UInt8) :
    (trimPadding bytes padding).length ≤ bytes.length := by
  have := (List.dropWhile_suffix (· == padding) (l := bytes.reverse)).length_le
  simpa [trimPadding] using this

theorem trimPadding_of_ends {bytes : Bytes} {padding : UInt8}
    (ends : bytes.getLast? ≠ some padding) : trimPadding bytes padding = bytes := by
  have shows : bytes.reverse.dropWhile (· == padding) = bytes.reverse := by
    rw [← List.head?_reverse] at ends
    cases reversed : bytes.reverse with
    | nil => rfl
    | cons byte rest =>
      rw [reversed] at ends
      have other : (byte == padding) = false := by simpa using ends
      rw [List.dropWhile_cons, other]
      rfl
  rw [trimPadding, shows, List.reverse_reverse]

theorem trimPadding_append_replicate (bytes : Bytes) (count : Nat) (padding : UInt8) :
    trimPadding (bytes ++ List.replicate count padding) padding = trimPadding bytes padding := by
  rw [trimPadding, List.reverse_append, List.reverse_replicate,
    List.dropWhile_append_of_pos (by simp), trimPadding]

/-- Other bytes at the end are no padding. -/
theorem getLast?_append_replicate_ne {bytes : Bytes} {padding other : UInt8} (count : Nat)
    (ends : bytes.getLast? ≠ some other) (differ : padding ≠ other) :
    (bytes ++ List.replicate count padding).getLast? ≠ some other := by
  cases count with
  | zero => simpa using ends
  | succ count =>
    rw [List.replicate_succ', ← List.append_assoc, List.getLast?_concat]
    simpa using differ

end RetroMedia.Petscii
