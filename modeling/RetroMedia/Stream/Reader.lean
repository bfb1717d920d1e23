import RetroMedia.Disk.ChainReader
import RetroMedia.Stream.Cursor

/-! Readers of entries. Each of them moves forward only. -/
namespace RetroMedia

/-- A reader of a range of a container. Reading past the container's end is an error. -/
structure RangeReader where
  container : Container
  offset : Nat
  remaining : Nat

namespace RangeReader

def read (reader : RangeReader) (count : Nat) : Except MediaError Bytes × RangeReader :=
  let wanted := min count reader.remaining
  if wanted = 0 then (.ok [], reader)
  else
    match reader.container.readAt reader.offset wanted with
    | [] => (.error .shortRead, reader)
    | byte :: rest =>
      let count := (byte :: rest).length
      (.ok (byte :: rest),
        { reader with offset := reader.offset + count, remaining := reader.remaining - count })

theorem remaining_lt_of_read {reader after : RangeReader} {count : Nat} {byte : UInt8}
    {rest : Bytes} (step : reader.read count = (.ok (byte :: rest), after)) :
    after.remaining < reader.remaining := by
  unfold read at step
  dsimp only at step
  split at step
  · simp at step
  · rename_i some
    split at step
    · simp at step
    · simp only [Prod.mk.injEq] at step
      rw [← step.2]
      simp only [List.length_cons]
      omega

theorem read_error {reader after : RangeReader} {count : Nat} {error : MediaError}
    (step : reader.read count = (.error error, after)) : error = .shortRead := by
  unfold read at step
  dsimp only at step
  split at step
  · simp at step
  · split at step
    · simp_all
    · simp at step

end RangeReader

/-- A reader of whatever an entry or a file holds. -/
inductive Reader where
  /-- Bytes in memory. -/
  | memory (rest : Bytes)
  /-- A range of a container behind a few bytes that are served first. -/
  | range (head : Bytes) (reader : RangeReader)
  /-- A chain of sectors. -/
  | chain (reader : Disk.ChainReader)
  /-- A whole container. -/
  | cursor (cursor : Cursor)

namespace Reader

/-- A range of a container, with its load address ahead of it if there is one. -/
def withLoadAddress (address : Option Nat) (reader : RangeReader) : Reader :=
  .range (match address with
    | some address => Bytes.ofWord16 address
    | none => []) reader

/-- Read into a buffer of `count` bytes. The bytes served first make a read of their own. -/
def read (reader : Reader) (count : Nat) (signals : Signals) :
    Except MediaError Bytes × Reader × Signals :=
  match reader with
  | memory rest => (.ok (rest.take count), memory (rest.drop count), signals)
  | range (byte :: head) data =>
    (.ok ((byte :: head).take count), range ((byte :: head).drop count) data, signals)
  | range [] data =>
    let (result, after) := data.read count
    (result, range [] after, signals)
  | chain data =>
    let (result, after, signals) := data.read count signals
    (result, chain after, signals)
  | cursor data =>
    let (bytes, after) := data.read count
    (.ok bytes, cursor after, signals)

/-- A bound on the bytes and interruptions still to come. -/
def measure : Reader → Nat
  | memory rest => rest.length
  | range head data => head.length + data.remaining
  | chain data => data.measure
  | cursor data => data.available

theorem read_shrinks (reader : Reader) (count : Nat) (signals : Signals) (positive : 0 < count) :
    ReadShrinks (fun state : Reader × Signals => state.1.measure) (reader, signals)
      (reader.read count signals) := by
  match reader with
  | memory [] => simp [read, ReadShrinks]
  | memory (byte :: rest) =>
    obtain ⟨count, rfl⟩ : ∃ rest, count = rest + 1 := ⟨count - 1, by omega⟩
    simp only [read, ReadShrinks, measure, List.take_succ_cons, List.drop_succ_cons,
      List.length_cons, List.length_drop]
    omega
  | range (byte :: head) data =>
    obtain ⟨count, rfl⟩ : ∃ rest, count = rest + 1 := ⟨count - 1, by omega⟩
    simp only [read, ReadShrinks, measure, List.take_succ_cons, List.drop_succ_cons,
      List.length_cons, List.length_drop]
    omega
  | range [] data =>
    simp only [read]
    match step : data.read count with
    | (.ok [], after) => trivial
    | (.ok (byte :: rest), after) => simpa [ReadShrinks, measure] using
        RangeReader.remaining_lt_of_read step
    | (.error error, after) =>
      rw [RangeReader.read_error step]
      trivial
  | chain data =>
    have falls := Disk.ChainReader.read_shrinks data count signals
    simp only [read]
    match step : data.read count signals with
    | (.ok [], after, signals') => trivial
    | (.ok (byte :: rest), after, signals') => simpa [step, ReadShrinks, measure] using falls
    | (.error error, after, signals') =>
      rw [step] at falls
      cases error <;> exact falls
  | cursor data =>
    have falls := ByteSource.shrinks data count positive
    simp only [read]
    match step : data.read count with
    | ([], after) => trivial
    | (byte :: rest, after) =>
      have same : ByteSource.read data count = (.ok (byte :: rest), after) := by
        simp [ByteSource.read, step]
      rw [same] at falls
      exact falls

instance : ByteSource (Reader × Signals) where
  read state count := state.1.read count state.2
  measure state := state.1.measure
  shrinks state count positive := read_shrinks state.1 count state.2 positive

end Reader
end RetroMedia
