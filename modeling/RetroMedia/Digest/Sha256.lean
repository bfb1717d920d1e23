import RetroMedia.Text.HexDump

/-! The digest of a message in 32 bytes. The message is padded to whole blocks of sixteen words, and
each block is mixed into eight words of state. -/
namespace RetroMedia.Sha256

abbrev Word := UInt32

/-- The eight words into which blocks are mixed. -/
structure State where
  a : Word
  b : Word
  c : Word
  d : Word
  e : Word
  f : Word
  g : Word
  h : Word
  deriving DecidableEq, Repr

/-- The fractional parts of the square roots of the first eight primes. -/
def initial : State :=
  ⟨0x6A09E667, 0xBB67AE85, 0x3C6EF372, 0xA54FF53A, 0x510E527F, 0x9B05688C, 0x1F83D9AB, 0x5BE0CD19⟩

/-- The fractional parts of the cube roots of the first sixty-four primes. -/
def roundConstants : List Word :=
  [0x428A2F98, 0x71374491, 0xB5C0FBCF, 0xE9B5DBA5, 0x3956C25B, 0x59F111F1, 0x923F82A4, 0xAB1C5ED5,
    0xD807AA98, 0x12835B01, 0x243185BE, 0x550C7DC3, 0x72BE5D74, 0x80DEB1FE, 0x9BDC06A7, 0xC19BF174,
    0xE49B69C1, 0xEFBE4786, 0x0FC19DC6, 0x240CA1CC, 0x2DE92C6F, 0x4A7484AA, 0x5CB0A9DC, 0x76F988DA,
    0x983E5152, 0xA831C66D, 0xB00327C8, 0xBF597FC7, 0xC6E00BF3, 0xD5A79147, 0x06CA6351, 0x14292967,
    0x27B70A85, 0x2E1B2138, 0x4D2C6DFC, 0x53380D13, 0x650A7354, 0x766A0ABB, 0x81C2C92E, 0x92722C85,
    0xA2BFE8A1, 0xA81A664B, 0xC24B8B70, 0xC76C51A3, 0xD192E819, 0xD6990624, 0xF40E3585, 0x106AA070,
    0x19A4C116, 0x1E376C08, 0x2748774C, 0x34B0BCB5, 0x391C0CB3, 0x4ED8AA4A, 0x5B9CCA4F, 0x682E6FF3,
    0x748F82EE, 0x78A5636F, 0x84C87814, 0x8CC70208, 0x90BEFFFA, 0xA4506CEB, 0xBEF9A3F7, 0xC67178F2]

/-- The word with its bits turned to the right. -/
def rotate (word count : Word) : Word := word >>> count ||| word <<< (32 - count)

/-- The word whose most significant byte comes first. -/
def word (a b c d : UInt8) : Word :=
  a.toUInt32 <<< 24 ||| b.toUInt32 <<< 16 ||| c.toUInt32 <<< 8 ||| d.toUInt32

/-- The words of a run of bytes; a shorter rest is left out. -/
def words : Bytes → List Word
  | a :: b :: c :: d :: rest => word a b c d :: words rest
  | _ => []

/-- The bytes of a word, the most significant one first. -/
def wordBytes (word : Word) : Bytes :=
  [(word >>> 24).toUInt8, (word >>> 16).toUInt8, (word >>> 8).toUInt8, word.toUInt8]

/-- The length of a message in bits, as eight bytes. -/
def lengthBytes (size : Nat) : Bytes :=
  (List.range 8).map fun index => Bytes.low (8 * size / Nat.pow 256 (7 - index))

/-- Zeros that fill the last block up. -/
def fillCount (size : Nat) : Nat := (119 - size % 64) % 64

/-- The message in whole blocks: a mark, zeros and the length follow it. -/
def pad (message : Bytes) : Bytes :=
  message ++ 0x80 :: List.replicate (fillCount message.length) 0 ++ lengthBytes message.length

/-- Add the next word to a schedule. -/
def extend (schedule : Array Word) : Array Word :=
  let back (count : Nat) : Word := schedule.getD (schedule.size - count) 0
  let early := rotate (back 15) 7 ^^^ rotate (back 15) 18 ^^^ back 15 >>> 3
  let late := rotate (back 2) 17 ^^^ rotate (back 2) 19 ^^^ back 2 >>> 10
  schedule.push (back 16 + early + back 7 + late)

/-- One word for each round: those of the block, and then combinations of earlier ones. -/
def schedule (block : List Word) : List Word := (Nat.repeat extend 48 block.toArray).toList

/-- Mix one word and its constant into the state. -/
def round (state : State) (input : Word × Word) : State :=
  let mixed := rotate state.e 6 ^^^ rotate state.e 11 ^^^ rotate state.e 25
  let chosen := state.e &&& state.f ^^^ ~~~state.e &&& state.g
  let first := state.h + mixed + chosen + input.1 + input.2
  let turned := rotate state.a 2 ^^^ rotate state.a 13 ^^^ rotate state.a 22
  let majority := state.a &&& state.b ^^^ state.a &&& state.c ^^^ state.b &&& state.c
  ⟨first + (turned + majority), state.a, state.b, state.c,
    state.d + first, state.e, state.f, state.g⟩

/-- Mix a block of sixteen words into the state. -/
def compress (state : State) (block : List Word) : State :=
  let mixed := (roundConstants.zip (schedule block)).foldl round state
  ⟨state.a + mixed.a, state.b + mixed.b, state.c + mixed.c, state.d + mixed.d, state.e + mixed.e,
    state.f + mixed.f, state.g + mixed.g, state.h + mixed.h⟩

/-- The words of a state, in order. -/
def State.toList (state : State) : List Word :=
  [state.a, state.b, state.c, state.d, state.e, state.f, state.g, state.h]

/-- The digest of a message. -/
def digest (message : Bytes) : Bytes :=
  let blocks := ((pad message).records 64).map words
  (blocks.foldl compress initial).toList.flatMap wordBytes

/-- The digest in lowercase hexadecimal digits. -/
def hexDigest (message : Bytes) : String :=
  String.ofList ((digest message).flatMap HexDump.byteText)

end RetroMedia.Sha256
