import RetroMedia.Proofs.Checked.ChainReader
import RetroMedia.Proofs.Stream.Congruence
import RetroMedia.Proofs.Stream.Outlook

/-! Entries read and drained with checked accesses. -/
namespace RetroMedia.Checked

/-- Read a range of a container into a buffer of `size` bytes. -/
def readRange (reader : RangeReader) (size : Nat) :
    Checked (Except MediaError Bytes × RangeReader) := do
  let wanted := min size reader.remaining
  if wanted = 0 then return (.ok [], reader)
  else if size < wanted then throw .outOfBounds
  else
    match ← readAt reader.container reader.offset wanted with
    | [] => return (.error .shortRead, reader)
    | byte :: rest =>
      let count := (byte :: rest).length
      let offset ← add UInt64.size reader.offset count
      let remaining ← sub reader.remaining count
      return (.ok (byte :: rest), { reader with offset, remaining })

theorem readRange_eq {reader : RangeReader} (addressable : reader.container.size < UInt64.size)
    (size : Nat) : readRange reader size = .ok (reader.read size) := by
  have least := Nat.min_le_left size reader.remaining
  have left := Nat.min_le_right size reader.remaining
  unfold readRange RangeReader.read
  dsimp only
  by_cases idle : min size reader.remaining = 0
  · rw [if_pos idle, if_pos idle]
    rfl
  · rw [if_neg idle, if_neg idle, if_neg (Nat.not_lt.2 least), readAt_eq addressable, ok_bind]
    cases read : reader.container.readAt reader.offset (min size reader.remaining) with
    | nil => rfl
    | cons byte rest =>
      have there := reader.container.length_readAt reader.offset (min size reader.remaining)
      rw [read, List.length_cons] at there
      dsimp only
      rw [List.length_cons, add_eq (by omega), ok_bind, sub_eq (by omega)]
      rfl

/-- A reader of an entry of a container, with the checked source of its sectors. -/
inductive Reader where
  /-- A range of a container behind a few bytes that are served first. -/
  | range (head : Bytes) (data : RangeReader)
  /-- A chain of sectors. -/
  | chain (source : Source) (data : ChainReader)

namespace Reader

def plain : Reader → RetroMedia.Reader
  | range head data => .range head data
  | chain _ data => .chain data.plain

/-- Read into a buffer of `size` bytes. -/
def read : Reader → Nat → Signals → Checked (Except MediaError Bytes × Reader × Signals)
  | range (byte :: head) data, size, signals =>
    return (.ok ((byte :: head).take size), range ((byte :: head).drop size) data, signals)
  | range [] data, size, signals => do
    let (result, after) ← readRange data size
    return (result, range [] after, signals)
  | chain source data, size, signals => do
    let (result, after, last) ← data.read source size signals
    return (result, chain source after, last)

/-- A reader inside a container, or one of a chain that can be walked without a fault. -/
def Sound : Reader → Prop
  | range _ data => data.container.size < UInt64.size
  | chain source data => ChainReader.Sound source data

theorem container_read (reader : RangeReader) (size : Nat) :
    (reader.read size).2.container = reader.container := by
  unfold RangeReader.read
  dsimp only
  split
  · rfl
  · split <;> rfl

/-- A read meets no fault. -/
theorem read_eq {reader : Reader} (sound : reader.Sound) {size : Nat} (word : size < UInt64.size)
    (signals : Signals) :
    ∃ result after last, reader.read size signals = .ok (result, after, last) ∧
      reader.plain.read size signals = (result, after.plain, last) ∧ after.Sound := by
  match reader with
  | range (byte :: head) data => exact ⟨_, _, _, rfl, rfl, sound⟩
  | range [] data =>
    have same : data.container.size < UInt64.size := sound
    refine ⟨(data.read size).1, range [] (data.read size).2, signals, ?_, rfl, ?_⟩
    · rw [read, readRange_eq same]
      rfl
    · show (data.read size).2.container.size < UInt64.size
      rwa [container_read]
  | chain source data =>
    obtain ⟨result, after, last, done, same, still⟩ := ChainReader.read_eq sound word signals
    refine ⟨result, chain source after, last, ?_, ?_, still⟩
    · rw [read, done]
      rfl
    · rw [plain, RetroMedia.Reader.read, same]
      rfl

theorem of_read {reader after : Reader} (sound : reader.Sound) {size : Nat} (word : size < UInt64.size)
    {signals last : Signals} {result : Except MediaError Bytes}
    (done : reader.read size signals = .ok (result, after, last)) :
    reader.plain.read size signals = (result, after.plain, last) ∧ after.Sound := by
  obtain ⟨_, _, _, done', same, still⟩ := read_eq sound word signals
  rw [done] at done'
  cases done'
  exact ⟨same, still⟩

/-- What the first reads into buffers of the given sizes come to. -/
def results (sizes : Nat → Nat) : Nat → Reader → Signals → Checked (List (Except MediaError Bytes))
  | 0, _, _ => return []
  | count + 1, reader, signals => do
    let (result, after, last) ← reader.read (sizes 0) signals
    return result :: (← results (fun place => sizes (place + 1)) count after last)

theorem results_eq {reader : Reader} (sound : reader.Sound) {sizes : Nat → Nat}
    (words : ∀ place, sizes place < UInt64.size) (count : Nat) (signals : Signals) :
    results sizes count reader signals
      = .ok (ByteSource.results (reader.plain, signals) sizes count) := by
  induction count generalizing reader sizes signals with
  | zero => rfl
  | succ count ih =>
    obtain ⟨result, after, last, done, same, still⟩ := read_eq sound (words 0) signals
    have step : ByteSource.read (reader.plain, signals) (sizes 0) = (result, after.plain, last) := same
    rw [results, done, ok_bind, ByteSource.results, step]
    dsimp only
    rw [ih still fun place => words (place + 1)]
    rfl

theorem pieceSize_lt : ByteSource.pieceSize < UInt64.size := by decide

theorem measure_lt {reader after : Reader} (sound : reader.Sound) {signals last : Signals}
    {result : Except MediaError Bytes}
    (done : reader.read ByteSource.pieceSize signals = .ok (result, after, last)) :
    ReadShrinks (fun state : RetroMedia.Reader × Signals => state.1.measure)
      (reader.plain, signals) (result, after.plain, last) :=
  (of_read sound pieceSize_lt done).1 ▸
    RetroMedia.Reader.read_shrinks reader.plain ByteSource.pieceSize signals (by decide)

/-- Read to the end, or to the first failure that is no interruption. -/
def drain (reader : Reader) (sound : reader.Sound) (signals : Signals) :
    Checked (Bytes × Option MediaError × Reader × Signals) :=
  match _step : reader.read ByteSource.pieceSize signals with
  | .error fault => .error fault
  | .ok (.ok [], after, last) => return ([], none, after, last)
  | .ok (.ok (byte :: bytes), after, last) => do
    let (more, failure, final) ← drain after (of_read sound pieceSize_lt _step).2 last
    return (byte :: bytes ++ more, failure, final)
  | .ok (.error .cancelled, after, last) => drain after (of_read sound pieceSize_lt _step).2 last
  | .ok (.error error, after, last) => return ([], some error, after, last)
termination_by reader.plain.measure
decreasing_by
  · exact measure_lt sound _step
  · exact measure_lt sound _step

/-- Draining meets no fault. -/
theorem drain_eq {reader : Reader} (sound : reader.Sound) (signals : Signals) :
    ∃ bytes failure after last, reader.drain sound signals = .ok (bytes, failure, after, last) ∧
      ByteSource.drain (reader.plain, signals) = (bytes, failure, after.plain, last) := by
  have plainly {reader after : Reader} (sound : reader.Sound) {signals last : Signals}
      {result : Except MediaError Bytes}
      (step : reader.read ByteSource.pieceSize signals = .ok (result, after, last)) :
      ByteSource.read (reader.plain, signals) ByteSource.pieceSize = (result, after.plain, last) :=
    (of_read sound pieceSize_lt step).1
  fun_induction drain reader sound signals with
  | case1 reader sound signals fault step =>
    obtain ⟨_, _, _, done, _⟩ := read_eq sound pieceSize_lt signals
    cases step.symm.trans done
  | case2 reader sound signals after last step =>
    refine ⟨_, _, _, _, rfl, ?_⟩
    rw [ByteSource.drain_eq, plainly sound step]
  | case3 reader sound signals byte bytes after last step ih =>
    obtain ⟨more, failure, final, end', done, same⟩ := ih
    refine ⟨byte :: bytes ++ more, failure, final, end', ?_, ?_⟩
    · rw [done]
      rfl
    · rw [ByteSource.drain_eq, plainly sound step]
      dsimp only
      rw [same]
  | case4 reader sound signals after last step ih =>
    obtain ⟨more, failure, final, end', done, same⟩ := ih
    refine ⟨_, _, _, _, done, ?_⟩
    rw [ByteSource.drain_eq, plainly sound step]
    exact same
  | case5 reader sound signals error after last uninterrupted step =>
    refine ⟨_, _, _, _, rfl, ?_⟩
    rw [ByteSource.drain_eq, plainly sound step]
    cases error <;> first | rfl | exact absurd rfl uninterrupted

end Reader
end RetroMedia.Checked
