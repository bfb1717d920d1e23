import RetroMedia.Stream.Source
import RetroMedia.Text.HexDump

/-! Dumps: the bytes of a source as a hexadecimal listing that is printed a piece at a time. A piece
is filled however short the source's reads are, so that the rows of a dump fit together. -/
namespace RetroMedia.CommandLine

/-- Bytes of a piece, which are a whole number of rows. -/
def dumpPiece : Nat := 4096

theorem columns_dvd_dumpPiece : HexDump.columns ∣ dumpPiece := ⟨256, rfl⟩

/-- The listings of a source's pieces, the first of which begins at an offset, and the failure that
ended them. Of a piece in which the source fails nothing is listed, and a piece that is not full is
the last one. -/
def dump [ByteSource σ] (source : σ) (offset : Nat) : List String × Option MediaError :=
  match _gathered : ByteSource.gather source dumpPiece with
  | (_, some error, _) => ([], some error)
  | (piece, none, after) =>
    if piece.isEmpty then ([], none)
    else
      let listing := HexDump.render offset piece
      if _full : piece.length = dumpPiece then
        let (more, failure) := dump after (offset + piece.length)
        (listing :: more, failure)
      else ([listing], none)
termination_by ByteSource.measure source
decreasing_by
  have falls := @ByteSource.measure_gather_lt σ _ source dumpPiece (by decide)
  rw [_gathered] at falls
  exact falls _full

end RetroMedia.CommandLine
