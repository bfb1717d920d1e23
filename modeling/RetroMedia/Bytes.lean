/-! Byte strings and the little-endian words stored in them. -/
namespace RetroMedia

/-- A run of bytes. -/
abbrev Bytes := List UInt8

namespace Bytes

/-- The byte at `offset`, or zero past the end. -/
def byte (bytes : Bytes) (offset : Nat) : UInt8 := bytes.getD offset 0

/-- The unsigned number whose least significant byte comes first. -/
def littleEndian : Bytes → Nat
  | [] => 0
  | low :: rest => low.toNat + 256 * littleEndian rest

/-- The two-byte word at `offset`. -/
def le16 (bytes : Bytes) (offset : Nat) : Nat :=
  littleEndian [bytes.byte offset, bytes.byte (offset + 1)]

/-- The three-byte word at `offset`. -/
def le24 (bytes : Bytes) (offset : Nat) : Nat :=
  littleEndian [bytes.byte offset, bytes.byte (offset + 1), bytes.byte (offset + 2)]

/-- The four-byte word at `offset`. -/
def le32 (bytes : Bytes) (offset : Nat) : Nat :=
  littleEndian [bytes.byte offset, bytes.byte (offset + 1), bytes.byte (offset + 2),
    bytes.byte (offset + 3)]

/-- The `length` bytes at `offset`, fewer past the end. -/
def field (bytes : Bytes) (offset length : Nat) : Bytes := (bytes.drop offset).take length

/-- The first `count` runs of `size` bytes. -/
def chunks (size : Nat) : Nat → Bytes → List Bytes
  | 0, _ => []
  | count + 1, bytes => bytes.take size :: chunks size count (bytes.drop size)

/-- The consecutive records of `size` bytes; a shorter rest is left out. -/
def records (bytes : Bytes) (size : Nat) : List Bytes := chunks size (bytes.length / size) bytes

/-- The exclusive or of all bytes. -/
def parity (bytes : Bytes) : UInt8 := bytes.foldl (· ^^^ ·) 0

/-- The least significant byte of a number, as it is stored. -/
def low (value : Nat) : UInt8 := UInt8.ofNat (value % 256)

/-- A 16-bit word with its least significant byte first. -/
def ofWord16 (value : Nat) : Bytes := [low value, low (value / 256)]

theorem littleEndian_lt (bytes : Bytes) : littleEndian bytes < Nat.pow 256 bytes.length := by
  induction bytes with
  | nil => simp [littleEndian]
  | cons byte rest ih =>
    have bound := byte.toNat_lt
    simp only [littleEndian, List.length_cons, Nat.pow_eq, Nat.pow_succ] at ih ⊢
    omega

theorem le16_lt (bytes : Bytes) (offset : Nat) : bytes.le16 offset < 65536 := by
  simpa [le16] using littleEndian_lt [bytes.byte offset, bytes.byte (offset + 1)]

theorem length_field_le (bytes : Bytes) (offset length : Nat) :
    (bytes.field offset length).length ≤ length := by
  rw [field, List.length_take]
  exact Nat.min_le_left ..

theorem length_field (bytes : Bytes) {offset length : Nat} (fits : offset + length ≤ bytes.length) :
    (bytes.field offset length).length = length := by
  rw [field, List.length_take, List.length_drop]
  omega

theorem getElem?_chunks (size count : Nat) (bytes : Bytes) (index : Nat) :
    (chunks size count bytes)[index]? =
      if index < count then some (bytes.field (index * size) size) else none := by
  induction count generalizing bytes index with
  | zero => simp [chunks]
  | succ count ih =>
    cases index with
    | zero => simp [chunks, field]
    | succ index => simp [chunks, ih, field, Nat.add_mul, Nat.add_comm size]

/-- Record number `index` is the run of bytes at its place. -/
theorem getElem?_records (bytes : Bytes) (size index : Nat) :
    (bytes.records size)[index]? =
      if index < bytes.length / size then some (bytes.field (index * size) size) else none :=
  getElem?_chunks ..

end Bytes
end RetroMedia
