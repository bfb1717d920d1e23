import RetroMedia.Qr.Layout
import RetroMedia.Qr.Mask
import RetroMedia.Qr.ReedSolomon

/-! Symbols: the square of dark and light modules that holds a message. -/
namespace RetroMedia.Qr

/-- The bits of the codewords at their places in a symbol; whatever is left over stays light. -/
def placeBits (width : Nat) (places : List (Nat × Nat)) (codewords : Bytes) : Array Bool :=
  (places.zip (byteBits codewords)).foldl (fun modules ((x, y), bit) =>
    modules.setIfInBounds (y * width + x) bit) (Array.replicate (width * width) false)

/-- The symbol of some codewords under a mask. -/
def masked (width : Nat) (roles : Array Role) (bits : Array Bool) (mask : Nat) : Matrix :=
  let format := formatBits mask
  Matrix.ofFn width fun x y =>
    match roles.getD (y * width + x) .data with
    | .fixed dark => dark
    | .format bit => format.testBit bit
    | .data => bits.getD (y * width + x) false != inverts mask x y

/-- The first of the cheapest symbols. -/
def cheapest (symbol : Matrix) : List Matrix → Matrix
  | [] => symbol
  | next :: rest =>
    cheapest (if Penalty.total next < Penalty.total symbol then next else symbol) rest

/-- The symbol of a message, or none if no symbol holds it. -/
def symbol? (message : Bytes) : Option Matrix := do
  let encoded ← encode? message
  let width := Version.width encoded.version
  let roles := Array.ofFn fun index : Fin (width * width) =>
    roleAt encoded.version (index % width) (index / width)
  let places := (zigzag width).filter fun (x, y) => roles.getD (y * width + x) .data == .data
  let bits := placeBits width places (symbolCodewords encoded.codewords encoded.version)
  return cheapest (masked width roles bits 0)
    (((List.range maskCount).drop 1).map (masked width roles bits))

end RetroMedia.Qr
