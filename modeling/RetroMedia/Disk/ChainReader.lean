import RetroMedia.Disk.Chain
import RetroMedia.Stream.Source

/-! Reading the data of a chain. A failure that comes up after some bytes were already read is kept
back and reported by the next read, and is reported once only. -/
namespace RetroMedia.Disk

/-- A reader of the bytes that a chain holds besides its links. -/
structure ChainReader where
  walk : ChainWalk
  /-- What is left of the current sector. -/
  block : Bytes := []
  /-- A failure to be reported by the next read. -/
  pending : Option MediaError := none
  exhausted : Bool := false

namespace ChainReader

def start (source : SectorSource) (location : Location) (limits : Limits) : ChainReader :=
  { walk := ChainWalk.start source location limits }

/-- Collect `wanted` bytes, fewer if the chain ends or fails before. -/
def fill (reader : ChainReader) (wanted : Nat) (signals : Signals) :
    Bytes × Option MediaError × ChainReader × Signals :=
  if _idle : wanted = 0 ∨ reader.exhausted then ([], none, reader, signals)
  else if _left : reader.block ≠ [] then
    let piece := reader.block.take wanted
    let (more, failure, after, signals) :=
      fill { reader with block := reader.block.drop wanted } (wanted - piece.length) signals
    (piece ++ more, failure, after, signals)
  else
    match _step : reader.walk.advance signals with
    | (none, walk, signals) => ([], none, { reader with walk, exhausted := true }, signals)
    | (some (.error error), walk, signals) =>
      ([], some error, { reader with walk, exhausted := true }, signals)
    | (some (.ok sector), walk, signals) =>
      fill { reader with walk, block := sector.data.drop 2 } wanted signals
termination_by (reader.walk.remaining, wanted)
decreasing_by
  · refine Prod.Lex.right _ ?_
    have := List.length_pos_iff.2 _left
    have : wanted ≠ 0 := fun zero => _idle (Or.inl zero)
    simp only [List.length_take]
    omega
  · exact Prod.Lex.left _ _ (ChainWalk.remaining_lt_of_advance _step)

/-- Read into a buffer of `wanted` bytes. -/
def read (reader : ChainReader) (wanted : Nat) (signals : Signals) :
    Except MediaError Bytes × ChainReader × Signals :=
  match reader.pending with
  | some error => (.error error, { reader with pending := none }, signals)
  | none =>
    match reader.fill wanted signals with
    | (bytes, none, after, signals) => (.ok bytes, after, signals)
    | ([], some error, after, signals) => (.error error, after, signals)
    | (byte :: bytes, some error, after, signals) =>
      (.ok (byte :: bytes), { after with pending := some error }, signals)

/-- A bound on the bytes and failures that the chain can still deliver. -/
def supply (reader : ChainReader) : Nat :=
  reader.block.length + if reader.exhausted then 0 else 1 + blockSize * reader.walk.remaining

/-- A bound on the bytes and failures that reads can still report. -/
def measure (reader : ChainReader) : Nat :=
  reader.supply + if reader.pending.isSome then 1 else 0

/-- Filling pays for its bytes and for its failure out of the supply. -/
theorem fill_supply (reader : ChainReader) (wanted : Nat) (signals : Signals) :
    (reader.fill wanted signals).2.2.1.supply + (reader.fill wanted signals).1.length
        + (if (reader.fill wanted signals).2.1.isSome then 1 else 0) ≤ reader.supply
      ∧ (reader.fill wanted signals).2.2.1.pending = reader.pending := by
  fun_induction fill reader wanted signals with
  | case1 => simp
  | case2 reader wanted signals idle left piece more failure after signals' filled ih =>
    rw [filled] at ih
    refine ⟨?_, ih.2⟩
    have paid := ih.1
    simp only [supply, List.length_append, List.length_take, List.length_drop, piece] at *
    omega
  | case3 reader wanted signals idle left walk signals' step =>
    simp_all [supply]
  | case4 reader wanted signals idle left error walk signals' step =>
    have open' : reader.exhausted = false := by simpa using fun h => idle (Or.inr h)
    simp [supply, open']
  | case5 reader wanted signals idle left sector walk signals' step ih =>
    refine ⟨Nat.le_trans ih.1 ?_, ih.2⟩
    have nearer := ChainWalk.remaining_lt_of_advance step
    have size := ChainWalk.length_le_of_advance step
    have open' : reader.exhausted = false := by simpa using fun h => idle (Or.inr h)
    simp only [supply, open', List.length_drop, blockSize] at *
    simp only [Bool.false_eq_true, if_false]
    omega

theorem read_shrinks (reader : ChainReader) (wanted : Nat) (signals : Signals) :
    ReadShrinks (fun state : ChainReader × Signals => state.1.measure) (reader, signals)
      (reader.read wanted signals) := by
  have paid := fill_supply reader wanted signals
  unfold read
  split
  · rename_i error held
    cases error <;> simp [ReadShrinks, measure, supply, held]
  · rename_i free
    split
    · rename_i bytes after signals' filled
      rw [filled] at paid
      have still : after.pending = none := by simpa [free] using paid.2
      cases bytes with
      | nil => trivial
      | cons byte rest =>
        have cost := paid.1
        simp [ReadShrinks, measure, free, still] at cost ⊢
        omega
    · rename_i error after signals' filled
      rw [filled] at paid
      have still : after.pending = none := by simpa [free] using paid.2
      have falls : after.measure < reader.measure := by
        have cost := paid.1
        simp [measure, free, still] at cost ⊢
        omega
      cases error <;> first | exact falls | trivial
    · rename_i byte bytes error after signals' filled
      rw [filled] at paid
      have cost := paid.1
      simp [ReadShrinks, measure, supply, free] at cost ⊢
      omega

instance : ByteSource (ChainReader × Signals) where
  read state wanted := state.1.read wanted state.2
  measure state := state.1.measure
  shrinks state wanted _ := read_shrinks state.1 wanted state.2

end ChainReader
end RetroMedia.Disk
