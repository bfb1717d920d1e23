import RetroMedia.Bytes

/-! Versions, which are the sizes of a symbol, and how many codewords each of them holds. A symbol
recovers from the loss of about a seventh of its codewords. -/
namespace RetroMedia.Qr.Version

/-- Versions are numbered from one. -/
def last : Nat := 40

/-- Modules along each side. -/
def width (version : Nat) : Nat := 17 + 4 * version

/-- Alignment marks along each side, the ones in the corners included. -/
def alignmentCount (version : Nat) : Nat := if version ≤ 1 then 0 else version / 7 + 2

/-- The distance between alignment marks, which is even. -/
def alignmentStep (version : Nat) : Nat :=
  if version == 32 then 26
  else
    let gaps := 2 * alignmentCount version - 2
    (4 * version + 2 * alignmentCount version + 1) / gaps * 2

/-- The rows, or columns, of the centres of alignment marks. -/
def alignmentCenters (version : Nat) : List Nat :=
  if alignmentCount version = 0 then []
  else 6 :: (List.range (alignmentCount version - 1)).map fun index =>
    width version - 7 - (alignmentCount version - 2 - index) * alignmentStep version

/-- Modules that hold codewords. -/
def dataModules (version : Nat) : Nat :=
  let count := alignmentCount version
  (16 * version + 128) * version + 64
    - (if version ≤ 1 then 0 else (25 * count - 10) * count - 55)
    - if version ≤ 6 then 0 else 36

/-- Codewords of a symbol, data and error correction together. -/
def codewords (version : Nat) : Nat := dataModules version / 8

/-- Error-correction codewords of each block. -/
def correctionPerBlock (version : Nat) : Nat :=
  [10, 16, 26, 18, 24, 16, 18, 22, 22, 26, 30, 22, 22, 24, 24, 28, 28, 26, 26, 26, 26].getD
    (version - 1) 28

/-- Blocks into which the codewords are divided. -/
def blockCount (version : Nat) : Nat :=
  [1, 1, 1, 2, 2, 4, 4, 4, 5, 5, 5, 8, 9, 9, 10, 10, 11, 13, 14, 16, 17, 17, 18, 20, 21, 23, 25, 26,
    28, 29, 31, 33, 35, 37, 38, 40, 43, 45, 47, 49].getD (version - 1) 0

/-- Codewords left for data. -/
def dataCodewords (version : Nat) : Nat :=
  codewords version - correctionPerBlock version * blockCount version

/-- Data bits. -/
def capacity (version : Nat) : Nat := 8 * dataCodewords version

/-- How many data codewords each block holds; the later blocks hold one more than the first. -/
def blockSizes (version : Nat) : List Nat :=
  let blocks := blockCount version
  (List.range blocks).map fun index =>
    dataCodewords version / blocks
      + if blocks - dataCodewords version % blocks ≤ index then 1 else 0

/-- The smallest version that holds so many bits. -/
def smallest? (bits : Nat) : Option Nat :=
  (List.range last).map (· + 1) |>.find? fun version => bits ≤ capacity version

end RetroMedia.Qr.Version
