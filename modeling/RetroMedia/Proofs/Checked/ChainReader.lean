import RetroMedia.Disk.ChainReader
import RetroMedia.Proofs.Checked.Chain
import RetroMedia.Proofs.Disk.Undisturbed

/-! The data of a chain read with checked accesses. A machine goes along the current sector by its
position, where the reader itself holds on to what is left of it. -/
namespace RetroMedia.Checked

open Disk (Location ChainSector ChainWalk)

/-- A reader of the bytes that a chain holds besides its links. -/
structure ChainReader where
  walk : ChainWalk
  block : Bytes := []
  /-- How much of the current sector was read. -/
  position : Nat := 0
  pending : Option MediaError := none
  exhausted : Bool := false

namespace ChainReader

/-- The reader that holds on to what is left. -/
def plain (reader : ChainReader) : Disk.ChainReader where
  walk := reader.walk
  block := reader.block.drop reader.position
  pending := reader.pending
  exhausted := reader.exhausted

def start (plain : Disk.SectorSource) (location : Location) (limits : Limits) : ChainReader :=
  { walk := ChainWalk.start plain location limits }

/-- Copy as much of a sector as there is left of it, and as there is room for in a buffer of `size`
bytes that holds `total` already: what is copied, how far the sector was read then, and how much the
buffer holds. -/
def copy (block : Bytes) (position size total : Nat) : Checked (Bytes × Nat × Nat) := do
  let count := min (← sub block.length position) (← sub size total)
  let stop ← add UInt64.size total count
  let position' ← add UInt64.size position count
  let piece ← filling count (← part block position position')
  if total ≤ stop ∧ stop ≤ size then return (piece, position', stop) else .error .outOfBounds

variable (source : Source)

theorem lt_of_copy {block piece : Bytes} {position position' size total stop : Nat}
    (left : position < block.length) (room : total < size)
    (copied : copy block position size total = .ok (piece, position', stop)) :
    total < stop ∧ stop ≤ size := by
  unfold copy at copied
  rw [sub_eq (Nat.le_of_lt left), ok_bind, sub_eq (Nat.le_of_lt room), ok_bind] at copied
  obtain ⟨stop', added, copied⟩ := ok_of_bind copied
  obtain ⟨_, _, copied⟩ := ok_of_bind copied
  obtain ⟨_, _, copied⟩ := ok_of_bind copied
  obtain ⟨_, _, copied⟩ := ok_of_bind copied
  unfold add fit at added
  split at added <;> cases added
  split at copied <;> cases copied
  omega

/-- Fill the rest of a buffer of `size` bytes that holds `total` already. -/
def fill (reader : ChainReader) (size total : Nat) (signals : Signals) :
    Checked (Bytes × Option MediaError × ChainReader × Signals) :=
  if _idle : size ≤ total ∨ reader.exhausted then return ([], none, reader, signals)
  else if _left : reader.position < reader.block.length then
    match _copied : copy reader.block reader.position size total with
    | .error fault => .error fault
    | .ok (piece, position, stop) => do
      let (more, failure, after, signals) ← fill { reader with position } size stop signals
      return (piece ++ more, failure, after, signals)
  else
    match _step : advance source reader.walk signals with
    | .error fault => .error fault
    | .ok (none, walk, signals) => return ([], none, { reader with walk, exhausted := true }, signals)
    | .ok (some (.error error), walk, signals) =>
      return ([], some error, { reader with walk, exhausted := true }, signals)
    | .ok (some (.ok sector), walk, signals) => do
      let block ← part sector.data 2 sector.data.length
      fill { reader with walk, block, position := 0 } size total signals
termination_by (reader.walk.remaining, size - total)
decreasing_by
  · have room := Nat.lt_of_not_le fun full => _idle (Or.inl full)
    have onward := lt_of_copy _left room _copied
    refine Prod.Lex.right _ ?_
    omega
  · exact Prod.Lex.left _ _ (remaining_lt_of_advance source _step)

/-- Read into a buffer of `size` bytes. -/
def read (reader : ChainReader) (size : Nat) (signals : Signals) :
    Checked (Except MediaError Bytes × ChainReader × Signals) :=
  match reader.pending with
  | some error => return (.error error, { reader with pending := none }, signals)
  | none => do
    match ← fill source reader size 0 signals with
    | (bytes, none, after, signals) => return (.ok bytes, after, signals)
    | ([], some error, after, signals) => return (.error error, after, signals)
    | (byte :: bytes, some error, after, signals) =>
      return (.ok (byte :: bytes), { after with pending := some error }, signals)

/-- The walk goes on without a fault, and the position lies in the current sector. -/
structure Sound (reader : ChainReader) : Prop where
  fit : Fit source reader.walk
  inside : reader.position ≤ reader.block.length
  small : reader.block.length ≤ Disk.blockSize

variable {source}

theorem sound_start {plain : Disk.SectorSource} (faithful : source.Faithful plain)
    (location : Location) (limits : Limits) : Sound source (start plain location limits) :=
  ⟨fit_start faithful location limits, Nat.le_refl _, Nat.zero_le _⟩

theorem copy_eq {block : Bytes} {position size total : Nat} (inside : position ≤ block.length)
    (small : block.length ≤ Disk.blockSize) (room : total ≤ size) (word : size < UInt64.size) :
    ∃ count, count = ((block.drop position).take (size - total)).length ∧
      copy block position size total
        = .ok ((block.drop position).take (size - total), position + count, total + count) := by
  refine ⟨_, rfl, ?_⟩
  rw [List.length_take, List.length_drop, Nat.min_comm]
  have piece : (block.drop position).take (min (block.length - position) (size - total))
      = (block.drop position).take (size - total) := by
    rw [List.take_eq_take_iff, List.length_drop]
    omega
  have narrow : block.length < UInt64.size := Nat.lt_of_le_of_lt small (by decide)
  unfold copy
  rw [sub_eq inside, ok_bind, sub_eq room, ok_bind]
  dsimp only
  rw [add_eq (by omega), ok_bind, add_eq (by omega), ok_bind, part_eq (by omega) (by omega), ok_bind,
    Nat.add_sub_cancel_left, Bytes.field, filling_eq (by rw [List.length_take, List.length_drop]; omega),
    ok_bind, if_pos (by omega), piece]
  rfl

/-- Whoever goes on by as much as is read holds on to the rest. -/
theorem plain_moved {reader : ChainReader} {wanted count : Nat}
    (counted : count = min (reader.block.length - reader.position) wanted) :
    { reader.plain with block := reader.plain.block.drop wanted }
      = { reader with position := reader.position + count }.plain := by
  have rest : (reader.block.drop reader.position).drop wanted
      = reader.block.drop (reader.position + count) := by
    rw [List.drop_drop, List.drop_eq_drop_iff]
    omega
  rw [plain, plain, rest]

/-- Filling a buffer meets no fault, and comes to what it comes to for what is left. -/
theorem fill_eq {reader : ChainReader} (sound : Sound source reader) {size total : Nat}
    (room : total ≤ size) (word : size < UInt64.size) (signals : Signals) :
    ∃ bytes failure after last,
      fill source reader size total signals = .ok (bytes, failure, after, last) ∧
      reader.plain.fill (size - total) signals = (bytes, failure, after.plain, last) ∧
      Sound source after := by
  have full {reader : ChainReader} {total : Nat} :
      (size - total = 0 ∨ reader.plain.exhausted) ↔ (size ≤ total ∨ reader.exhausted) :=
    or_congr Nat.sub_eq_zero_iff_le Iff.rfl
  have ended {reader : ChainReader} (left : ¬ reader.position < reader.block.length) :
      ¬ reader.plain.block ≠ [] :=
    not_not_intro (List.drop_eq_nil_of_le (Nat.le_of_not_lt left))
  fun_induction fill source reader size total signals with
  | case1 reader total signals idle =>
    rw [Disk.ChainReader.fill_eq, if_pos (full.2 idle)]
    exact ⟨_, _, _, _, rfl, rfl, sound⟩
  | case2 reader total signals idle left fault copied =>
    obtain ⟨count, _, same⟩ := copy_eq sound.inside sound.small room word
    rw [same] at copied
    cases copied
  | case3 reader total signals idle left piece position stop copied ih =>
    obtain ⟨count, counted, same⟩ := copy_eq sound.inside sound.small room word
    rw [same] at copied
    cases copied
    have some : reader.plain.block ≠ [] := by
      refine List.length_pos_iff.1 ?_
      rw [plain, List.length_drop]
      omega
    rw [List.length_take, List.length_drop] at counted
    obtain ⟨bytes, failure, after, last, filled, same', sound'⟩ :=
      ih ⟨sound.fit, show reader.position + count ≤ reader.block.length by omega, sound.small⟩
        (by omega)
    refine ⟨_, _, after, _, by rw [filled]; rfl, ?_, sound'⟩
    rw [Disk.ChainReader.fill_eq, if_neg (full.not.2 idle), if_pos some]
    dsimp only
    have left' : size - total - (reader.plain.block.take (size - total)).length
        = size - (total + count) := by
      rw [List.length_take, plain, List.length_drop]
      omega
    rw [plain_moved (Nat.min_comm .. ▸ counted), left', same']
    rfl
  | case4 reader total signals idle left fault step =>
    rw [(advance_eq sound.fit signals).1] at step
    cases step
  | case5 reader total signals idle left walk signals' step =>
    obtain ⟨moved, onward, _⟩ := advanced sound.fit step
    rw [Disk.ChainReader.fill_eq, if_neg (full.not.2 idle), if_neg (ended left),
      show reader.plain.walk.advance signals = _ from moved]
    exact ⟨_, _, { reader with walk, exhausted := true }, _, rfl, rfl, onward, sound.inside,
      sound.small⟩
  | case6 reader total signals idle left error walk signals' step =>
    obtain ⟨moved, onward, _⟩ := advanced sound.fit step
    rw [Disk.ChainReader.fill_eq, if_neg (full.not.2 idle), if_neg (ended left),
      show reader.plain.walk.advance signals = _ from moved]
    exact ⟨_, _, { reader with walk, exhausted := true }, _, rfl, rfl, onward, sound.inside,
      sound.small⟩
  | case7 reader total signals idle left sector walk signals' step ih =>
    obtain ⟨moved, onward, delivers⟩ := advanced sound.fit step
    have held := ChainWalk.length_le_of_advance moved
    rw [Disk.ChainReader.fill_eq, if_neg (full.not.2 idle), if_neg (ended left),
      show reader.plain.walk.advance signals = _ from moved, part_rest (delivers sector rfl).1, ok_bind]
    refine ih (sector.data.drop 2) ⟨onward, Nat.zero_le _, ?_⟩ room
    rw [List.length_drop]
    exact Nat.le_trans (Nat.sub_le ..) held

/-- A read meets no fault, and comes to what it comes to for what is left. -/
theorem read_eq {reader : ChainReader} (sound : Sound source reader) {size : Nat}
    (word : size < UInt64.size) (signals : Signals) :
    ∃ result after last, read source reader size signals = .ok (result, after, last) ∧
      reader.plain.read size signals = (result, after.plain, last) ∧ Sound source after := by
  unfold read Disk.ChainReader.read
  cases held : reader.pending with
  | some error =>
    have held' : reader.plain.pending = some error := held
    rw [held']
    exact ⟨_, _, _, rfl, rfl, sound.fit, sound.inside, sound.small⟩
  | none =>
    have held' : reader.plain.pending = none := held
    obtain ⟨bytes, failure, after, last, filled, same, sound'⟩ :=
      fill_eq sound (Nat.zero_le size) word signals
    rw [Nat.sub_zero] at same
    rw [held', filled, same]
    match bytes, failure with
    | _, none => exact ⟨_, _, _, rfl, rfl, sound'⟩
    | [], some error => exact ⟨_, _, _, rfl, rfl, sound'⟩
    | byte :: bytes, some error =>
      exact ⟨_, _, _, rfl, rfl, sound'.fit, sound'.inside, sound'.small⟩

end ChainReader
end RetroMedia.Checked
