import RetroMedia.Bytes

/-! Hexadecimal listings: rows of sixteen bytes, each with its offset, the bytes in hexadecimal and
the bytes as text. Offsets count from a base, so a long file can be listed a buffer at a time. -/
namespace RetroMedia.HexDump

/-- Bytes on a full row. -/
def columns : Nat := 16

/-- Offsets are 64-bit counters. -/
def offsetLimit : Nat := UInt64.size

def digit (value : Nat) : Char := (Nat.toDigits 16 value).getD 0 '0'

/-- Two lowercase digits. -/
def byteText (byte : UInt8) : List Char := [digit (byte.toNat / 16), digit (byte.toNat % 16)]

/-- Lowercase digits, at least six of them. -/
def offsetText (offset : Nat) : List Char :=
  let digits := Nat.toDigits 16 offset
  List.replicate (6 - digits.length) '0' ++ digits

/-- A byte as text, with a point for whatever is not printable ASCII. -/
def glyph (byte : UInt8) : Char :=
  if 0x20 ≤ byte && byte ≤ 0x7E then Char.ofUInt8 byte else '.'

/-- One row; a short one is filled up, so that its text stands in the same column. -/
def row (offset : Nat) (bytes : Bytes) : List Char :=
  offsetText offset ++ [':', ' '] ++ bytes.flatMap (fun byte => byteText byte ++ [' '])
    ++ (List.replicate (3 * (columns - bytes.length)) ' ') ++ bytes.map glyph

/-- The bytes cut into rows of sixteen, the last one possibly shorter. -/
def rows (bytes : Bytes) : List Bytes :=
  match _cut : bytes.drop columns with
  | [] => [bytes]
  | next :: rest => bytes.take columns :: rows (next :: rest)
termination_by bytes.length
decreasing_by
  rw [← _cut, List.length_drop]
  have := congrArg List.length _cut
  simp only [columns, List.length_drop, List.length_cons] at *
  omega

/-- The listing of bytes that begin at offset `base`. No bytes still have an offset. -/
def lines (base : Nat) (bytes : Bytes) : List (List Char) :=
  if bytes.isEmpty then [offsetText base ++ [':', ' ']]
  else (rows bytes).mapIdx fun index bytes => row ((base + columns * index) % offsetLimit) bytes

/-- The rows joined by newlines, without one at the end. -/
def render (base : Nat) (bytes : Bytes) : String :=
  String.intercalate "\n" ((lines base bytes).map String.ofList)

end RetroMedia.HexDump
