import RetroMedia.Error
import RetroMedia.Bytes

/-! Group codes. Each nibble is written as five bits that never hold more than two zeros in a row,
so four plain bytes take five coded ones. Reading is best effort: a code of no nibble spoils its
byte, and the count of good leading bytes tells how far the data can be trusted. -/
namespace RetroMedia.Gcr

/-- The five-bit code of each nibble. -/
def codes : List Nat :=
  [0x0A, 0x0B, 0x12, 0x13, 0x0E, 0x0F, 0x16, 0x17, 0x09, 0x19, 0x1A, 0x1B, 0x0D, 0x1D, 0x1E, 0x15]

def codeOf (nibble : Nat) : Nat := codes.getD nibble 0

/-- The nibble that a five-bit code stands for. -/
def nibbleOf? (code : Nat) : Option Nat := codes.idxOf? code

/-- The byte of two codes. -/
def byteOf? (high low : Nat) : Option UInt8 := do
  return UInt8.ofNat (16 * (← nibbleOf? high) + (← nibbleOf? low))

/-- What stands for a byte that cannot be read. -/
def unreadable : UInt8 := 0xFF

/-- Four bytes and how many of them, from the first on, were read without error. -/
structure Group where
  bytes : Bytes
  converted : Nat
  deriving DecidableEq, Repr

/-- Does the group hold a code of no nibble? -/
def Group.isBad (group : Group) : Bool := group.converted < 4

/-- Five coded bytes as one number, most significant byte first. -/
def pack (a b c d e : UInt8) : Nat :=
  (((a.toNat * 256 + b.toNat) * 256 + c.toNat) * 256 + d.toNat) * 256 + e.toNat

/-- The five-bit code at `index` of the eight that five bytes hold. -/
def codeAt (packed index : Nat) : Nat := packed / Nat.pow 32 (7 - index) % 32

/-- Five coded bytes as four plain ones. -/
def decodeGroup (a b c d e : UInt8) : Group :=
  let packed := pack a b c d e
  let bytes := (List.range 4).map fun index =>
    byteOf? (codeAt packed (2 * index)) (codeAt packed (2 * index + 1))
  { bytes := bytes.map (·.getD unreadable), converted := (bytes.takeWhile (·.isSome)).length }

/-- The ten code bits of a byte. -/
def codeBits (byte : UInt8) : Nat := codeOf (byte.toNat / 16) * 32 + codeOf (byte.toNat % 16)

/-- Four plain bytes as five coded ones. -/
def encodeGroup (a b c d : UInt8) : Bytes :=
  let packed := ((codeBits a * 1024 + codeBits b) * 1024 + codeBits c) * 1024 + codeBits d
  (List.range 5).map fun index => Bytes.low (packed / Nat.pow 256 (4 - index))

/-- Every four bytes of a run as a group; a shorter rest is left out. -/
def encodeGroups : Bytes → Bytes
  | a :: b :: c :: d :: rest => encodeGroup a b c d ++ encodeGroups rest
  | _ => []

/-- The coded form of a run of bytes whose length is a multiple of four. -/
def encode (plain : Bytes) : Except MediaError Bytes :=
  if plain.length % 4 = 0 then .ok (encodeGroups plain) else .error .invalidLayout

/-- Plain bytes and how many of them, from the first on, were read without error. -/
structure Decoded where
  bytes : Bytes
  good : Nat
  deriving DecidableEq, Repr

/-- The first `count` groups of a coded run, if it is long enough. -/
def decodeGroups : Nat → Bytes → Option Decoded
  | 0, _ => some ⟨[], 0⟩
  | count + 1, a :: b :: c :: d :: e :: rest => do
    let group := decodeGroup a b c d e
    let tail ← decodeGroups count rest
    return ⟨group.bytes ++ tail.bytes, if group.isBad then group.converted else 4 + tail.good⟩
  | _ + 1, _ => none

theorem nibbleOf?_codeOf {nibble : Nat} (small : nibble < 16) :
    nibbleOf? (codeOf nibble) = some nibble := by
  revert nibble
  decide

theorem codeOf_of_nibbleOf? {code nibble : Nat} (found : nibbleOf? code = some nibble) :
    codeOf nibble = code ∧ nibble < 16 := by
  have position := List.idxOf?_eq_some_iff.1 found
  obtain ⟨inside, same, _⟩ := position
  refine ⟨?_, by simpa [codes] using inside⟩
  simp [codeOf, List.getD_eq_getElem?_getD, inside, same]

theorem length_decodeGroup (a b c d e : UInt8) : (decodeGroup a b c d e).bytes.length = 4 := by
  simp [decodeGroup]

theorem length_decodeGroups {count : Nat} {coded : Bytes} {decoded : Decoded}
    (found : decodeGroups count coded = some decoded) : decoded.bytes.length = 4 * count := by
  induction count generalizing coded decoded with
  | zero => simp [decodeGroups] at found; subst found; rfl
  | succ count ih =>
    match coded, found with
    | a :: b :: c :: d :: e :: rest, found =>
      simp only [decodeGroups, Option.bind_eq_bind, Option.bind_eq_some_iff] at found
      obtain ⟨tail, read, same⟩ := found
      cases same
      simp [length_decodeGroup, ih read]
      omega
    | [], found => simp [decodeGroups] at found
    | [_], found => simp [decodeGroups] at found
    | [_, _], found => simp [decodeGroups] at found
    | [_, _, _], found => simp [decodeGroups] at found
    | [_, _, _, _], found => simp [decodeGroups] at found

end RetroMedia.Gcr
