import RetroMedia.Qr.Version

/-! Error correction. Codewords are the coefficients of a polynomial over the field of 256 elements;
the remainder of its division by a generator is sent along with it. -/
namespace RetroMedia.Qr

/-- A field element times the generator of the field. -/
def double (value : UInt8) : UInt8 :=
  if value < 0x80 then value <<< 1 else (value <<< 1) ^^^ 0x1D

/-- The product of two field elements, by the lowest `count` bits of the second. -/
def multiplyBits : Nat → UInt8 → UInt8 → UInt8
  | 0, _, _ => 0
  | count + 1, a, b =>
    (if b % 2 == 1 then a else 0) ^^^ multiplyBits count (double a) (b >>> 1)

def multiply (a b : UInt8) : UInt8 := multiplyBits 8 a b

/-- A polynomial, whose leading coefficient of one is left out, times one with the given root. -/
def multiplyRoot (root : UInt8) (coefficients : Bytes) : Bytes :=
  ((coefficients ++ [0]).zip (1 :: coefficients)).map fun (upper, lower) =>
    upper ^^^ multiply root lower

/-- The polynomial whose roots are the first `degree` powers of the generator. -/
def generatorPolynomial (degree : Nat) : Bytes :=
  ((List.range degree).foldl (fun (coefficients, root) _ =>
    (multiplyRoot root coefficients, double root)) (([] : Bytes), (1 : UInt8))).1

/-- Bring down one more coefficient in a division by `divisor`. -/
def divideStep (divisor remainder : Bytes) (coefficient : UInt8) : Bytes :=
  let factor := remainder.byte 0 ^^^ coefficient
  ((remainder.drop 1 ++ [0]).zip divisor).map fun (old, scale) => old ^^^ multiply factor scale

/-- The error-correction codewords of a block. -/
def correction (block : Bytes) (count : Nat) : Bytes :=
  block.foldl (divideStep (generatorPolynomial count)) (List.replicate count 0)

/-- The data codewords cut into blocks of the given sizes. -/
def blocksOf : List Nat → Bytes → List Bytes
  | [], _ => []
  | size :: sizes, bytes => bytes.take size :: blocksOf sizes (bytes.drop size)

/-- The first bytes of all blocks, then the second ones, and so on. -/
def interleave (blocks : List Bytes) : Bytes :=
  let longest := (blocks.map (·.length)).foldl max 0
  let columns := blocks.map (·.toArray)
  (List.range longest).flatMap fun index => columns.filterMap (·[index]?)

/-- The codewords of a symbol in their final order. -/
def symbolCodewords (data : Bytes) (version : Nat) : Bytes :=
  let blocks := blocksOf (Version.blockSizes version) data
  interleave blocks ++ interleave (blocks.map (correction · (Version.correctionPerBlock version)))

end RetroMedia.Qr
