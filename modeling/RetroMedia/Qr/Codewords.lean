import RetroMedia.Qr.Segment
import RetroMedia.Qr.Version

/-! From segments to the data codewords of a symbol. -/
namespace RetroMedia.Qr

abbrev Bits := List Bool

/-- The last `count` bits of a number, the most significant one first. -/
def bitsOf (count value : Nat) : Bits :=
  (List.range count).map fun index => value.testBit (count - 1 - index)

/-- The number that bits stand for. -/
def valueOf (bits : Bits) : Nat := bits.foldl (fun value bit => 2 * value + bit.toNat) 0

/-- Every eight bits as a byte, where zeros fill up the last one. -/
def bytesOf : Bits → Bytes
  | a :: b :: c :: d :: e :: f :: g :: h :: rest =>
    UInt8.ofNat (valueOf [a, b, c, d, e, f, g, h]) :: bytesOf rest
  | [] => []
  | rest => [UInt8.ofNat (valueOf ((rest ++ List.replicate 8 false).take 8))]

def digitValue (byte : UInt8) : Nat := byte.toNat - 0x30

/-- Up to three digits at a time. -/
def numericBits : Bytes → Bits
  | a :: b :: c :: rest =>
    bitsOf 10 (100 * digitValue a + 10 * digitValue b + digitValue c) ++ numericBits rest
  | [a, b] => bitsOf 7 (10 * digitValue a + digitValue b)
  | [a] => bitsOf 4 (digitValue a)
  | [] => []

/-- The 45 characters of the alphanumeric alphabet. -/
def alphanumerics : List Char := "0123456789ABCDEFGHIJKLMNOPQRSTUVWXYZ $%*+-./:".toList

def alphanumericValue (byte : UInt8) : Nat := alphanumerics.idxOf (Char.ofUInt8 byte)

/-- Up to two characters at a time. -/
def alphanumericBits : Bytes → Bits
  | a :: b :: rest =>
    bitsOf 11 (45 * alphanumericValue a + alphanumericValue b) ++ alphanumericBits rest
  | [a] => bitsOf 6 (alphanumericValue a)
  | [] => []

def byteBits (bytes : Bytes) : Bits := bytes.flatMap fun byte => bitsOf 8 byte.toNat

/-- One pair of bytes at a time, without the gap between the two ranges of first bytes. -/
def kanjiBits : Bytes → Bits
  | first :: second :: rest =>
    let code := 256 * first.toNat + second.toNat
    let packed := if code < 0xE040 then code - 0x8140 else code - 0xC140
    bitsOf 13 (packed / 256 * 0xC0 + packed % 256) ++ kanjiBits rest
  | _ => []

namespace Segment

def dataBits (segment : Segment) : Bits :=
  match segment.mode with
  | .numeric => numericBits segment.bytes
  | .alphanumeric => alphanumericBits segment.bytes
  | .byte => byteBits segment.bytes
  | .kanji => kanjiBits segment.bytes

/-- Alphabet, length and characters. -/
def bits (segment : Segment) (version : Nat) : Bits :=
  bitsOf 4 segment.mode.indicator
    ++ bitsOf (segment.mode.lengthBits version) (segment.mode.charCount segment.bytes.length)
    ++ segment.dataBits

end Segment

/-- The bytes that take turns in filling up unused room. -/
def fillers (count : Nat) : Bytes :=
  (List.range count).map fun index => if index % 2 == 0 then 0xEC else 0x11

/-- The data codewords of some segments: a terminator of four zeros, as far as there is room, and
filling bytes follow them. -/
def dataCodewords (segments : List Segment) (version : Nat) : Bytes :=
  let bits := segments.flatMap (·.bits version)
  let terminated := bits ++ List.replicate (min 4 (Version.capacity version - bits.length)) false
  let bytes := bytesOf terminated
  bytes ++ fillers (Version.dataCodewords version - bytes.length)

/-- A version and its data codewords. -/
structure Encoded where
  version : Nat
  codewords : Bytes
  deriving DecidableEq, Repr

/-- The largest version of each class. -/
def versionClasses : List Nat := [9, 26, 40]

/-- A message in the first class of versions that holds it, and there in the smallest version. -/
def encode? (message : Bytes) : Option Encoded :=
  versionClasses.findSome? fun limit =>
    let segments := segmentsOf message limit
    let size := encodedSize segments limit
    if size ≤ Version.capacity limit then
      (Version.smallest? size).map fun version => ⟨version, dataCodewords segments version⟩
    else none

end RetroMedia.Qr
