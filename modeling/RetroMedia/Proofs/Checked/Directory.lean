import RetroMedia.Proofs.Checked.Volume

/-! The directory of a disk listed with checked accesses. -/
namespace RetroMedia.Checked.Volume

open Disk (Location ChainSector ChainWalk slotSize)

variable (volume : Volume)

/-- The data length of a chain, as far as it can be told. -/
def measureChain (start : Location) : Program Progress (Except MediaError Nat) := fun progress => do
  let (size, signals) ←
    chainSize volume.source volume.plain.source start progress.limits progress.signals
  return .ok size { progress with signals }

/-- The location in the first two bytes from `offset` on. -/
def startOf (slot : Bytes) : Checked Location := do
  let bytes ← part slot 0x03 slot.length
  return ⟨← item bytes 0, ← item bytes 1⟩

/-- The length of the records, for files that consist of such. -/
def recordSizeOf (typeCode : UInt8) (slot : Bytes) : Checked (Option Nat) := do
  if typeCode &&& 0x07 == 0x04 then return some (← item slot 0x17).toNat else return none

/-- The size of a file: that of its chain, or what its stored number of sectors amounts to. -/
def sizeOf (size : Except MediaError Nat) (slot : Bytes) : Checked Nat := do
  let blocks ← word 2 slot 0x1E
  match size with
  | .ok size => return size
  | .error _ => mul UInt64.size blocks Disk.chainedSize

/-- The entry of a directory slot behind `listed` other ones. -/
def entryOf (listed : Nat) (slot : Bytes) (location : Location) (size : Except MediaError Nat) :
    Checked Entry := do
  let typeCode ← item slot 0x02
  let rawName ← part slot 0x05 0x15
  return {
    index := ← add UInt64.size listed 1
    name := ← paddedText rawName Petscii.shiftedSpace
    rawName
    size := ← sizeOf size slot
    typeCode
    location := some location
    recordSize := ← recordSizeOf typeCode slot }

def readSlot (listed : Nat) (slot : Bytes) : Program Progress Entry := do
  let start ← startOf slot
  let size ← volume.measureChain start
  entryOf listed slot start size

/-- The entries of some slots behind `listed` other ones. -/
def listSlots : Nat → List Bytes → Program Progress (List Entry)
  | _, [] => return []
  | listed, slot :: rest => do
    let typeCode ← item slot 0x02
    if typeCode &&& Disk.closedMask == 0 && typeCode &&& 0x07 == 0 then listSlots listed rest
    else do
      tick
      let entry ← volume.readSlot listed slot
      let more ← listSlots (← add UInt64.size listed 1) rest
      return entry :: more

/-- The entries of the directory sectors that a walk still has before it. -/
def listSectors (walk : ChainWalk) (listed : Nat) : Program Progress (List Entry) := fun progress =>
  match _step : advance volume.source walk progress.signals with
  | .error fault => .error fault
  | .ok (none, _, signals) => .ok (.ok [] { progress with signals })
  | .ok (some (.error error), _, signals) => .ok (.error error { progress with signals })
  | .ok (some (.ok sector), after, signals) =>
    (do
      let here ← volume.listSlots listed (sector.data.records slotSize)
      let more ← listSectors after (← add UInt64.size listed here.length)
      return here ++ more : Program Progress (List Entry)) { progress with signals }
termination_by walk.remaining
decreasing_by exact remaining_lt_of_advance volume.source _step

/-- The directory, in order. -/
def entries : Program Progress (List Entry) := fun progress =>
  volume.listSectors (.start volume.plain.source volume.plain.firstDirectory progress.limits) 0
    progress

variable {volume}

theorem takes_measureChain (sound : volume.Sound) (start : Location) :
    Takes 0 (volume.measureChain start) (volume.plain.measureChain start) fun _ => True := by
  intro spare progress room
  unfold measureChain Disk.Volume.measureChain
  rw [chainSize_eq sound, ok_bind]
  refine ⟨rfl, trivial, ?_⟩
  rwa [Nat.zero_add] at room

theorem startOf_eq {slot : Bytes} (whole : slot.length = slotSize) :
    startOf slot = .ok (Location.ofBytes (slot.drop 0x03)) := by
  have rest : (slot.drop 0x03).length = 29 := by rw [List.length_drop, whole]; rfl
  rw [startOf, part_rest (by rw [whole]; decide), ok_bind, byte_eq (by omega), ok_bind,
    byte_eq (by omega)]
  rfl

theorem sizeOf_eq {slot : Bytes} (whole : slot.length = slotSize) (size : Except MediaError Nat) :
    sizeOf size slot = .ok (match size with
      | .ok size => size
      | .error _ => slot.le16 0x1E * Disk.chainedSize) := by
  have blocks := slot.le16_lt 0x1E
  have small : slot.le16 0x1E * Disk.chainedSize ≤ 65536 * 254 :=
    Nat.mul_le_mul_right 254 (Nat.le_of_lt blocks)
  rw [sizeOf, le16_eq (by rw [whole]; decide) (by rw [whole]; decide), ok_bind]
  cases size with
  | ok size => rfl
  | error error => exact mul_eq (lt_word (Nat.lt_of_le_of_lt small (by decide)))

theorem recordSizeOf_eq {slot : Bytes} (whole : slot.length = slotSize) (typeCode : UInt8) :
    recordSizeOf typeCode slot = .ok
      (if typeCode &&& 0x07 == 0x04 then some (slot.byte 0x17).toNat else none) := by
  unfold recordSizeOf
  rw [byte_eq (by rw [whole]; decide)]
  split <;> rfl

theorem takes_readSlot (sound : volume.Sound) {listed : Nat} (few : listed + 1 < 4294967296)
    {slot : Bytes} (whole : slot.length = slotSize) :
    Takes 0 (volume.readSlot listed slot) (volume.plain.readSlot (listed + 1) slot)
      fun _ => True := by
  have name := field_lt slot 0x05 (by decide : 16 < 4294967296)
  unfold readSlot Disk.Volume.readSlot
  apply Takes.lift (startOf_eq whole)
  refine (takes_measureChain sound _).last fun size _ => ?_
  rw [entryOf, byte_eq (by rw [whole]; decide), ok_bind, part_eq (by decide) (by rw [whole]; decide),
    ok_bind, add_eq (lt_word few), ok_bind, paddedText_eq name, ok_bind, sizeOf_eq whole, ok_bind,
    recordSizeOf_eq whole, ok_bind]
  exact takes_pure trivial

theorem takes_listSlots (sound : volume.Sound) {slots : List Bytes}
    (whole : ∀ slot ∈ slots, slot.length = slotSize) {listed : Nat}
    (few : listed + slots.length < 4294967296) :
    Takes slots.length (volume.listSlots listed slots) (volume.plain.listSlots (listed + 1) slots)
      fun entries => entries.length ≤ slots.length := by
  induction slots generalizing listed with
  | nil => exact takes_pure (Nat.le_refl _)
  | cons slot rest ih =>
    have here := whole slot List.mem_cons_self
    have later (slot : Bytes) (member : slot ∈ rest) := whole slot (List.mem_cons_of_mem _ member)
    rw [List.length_cons] at few ⊢
    unfold listSlots Disk.Volume.listSlots Disk.isFreeSlot
    apply Takes.lift (byte_eq (by rw [here]; decide))
    dsimp only
    split
    · exact ((ih later (by omega)).mono (Nat.le_succ _)).imp fun _ fits => Nat.le_succ_of_le fits
    · have listed' : Takes (0 + rest.length)
          (do
            let entry ← volume.readSlot listed slot
            let more ← volume.listSlots (← add UInt64.size listed 1) rest
            return entry :: more)
          (do
            let entry ← volume.plain.readSlot (listed + 1) slot
            let more ← volume.plain.listSlots (listed + 1 + 1) rest
            return entry :: more)
          fun entries => entries.length ≤ rest.length + 1 := by
        refine (takes_readSlot sound (by omega) here).bind fun entry _ => ?_
        apply Takes.lift (add_eq (lt_word (by omega)))
        exact (ih later (by omega)).last fun more fits => takes_pure (Nat.succ_le_succ fits)
      exact (takes_tick.bind fun _ _ => listed').mono (by omega)

theorem listSectors_eq (volume : Volume) (walk : ChainWalk) (listed : Nat) (progress : Progress) :
    volume.listSectors walk listed progress = match advance volume.source walk progress.signals with
      | .error fault => .error fault
      | .ok (none, _, signals) => .ok (.ok [] { progress with signals })
      | .ok (some (.error error), _, signals) => .ok (.error error { progress with signals })
      | .ok (some (.ok sector), after, signals) =>
        (do
          let here ← volume.listSlots listed (sector.data.records slotSize)
          let more ← volume.listSectors after (← add UInt64.size listed here.length)
          return here ++ more : Program Progress (List Entry)) { progress with signals } := by
  rw [listSectors]
  split <;> rename_i step <;> rw [step]

/-- The most files in the sectors that a walk has not visited after `steps` of them. -/
def filesLeft (steps : Nat) : Nat := (Disk.locations - steps) * 8

theorem length_records_le {bytes : Bytes} (small : bytes.length ≤ Disk.blockSize) :
    (bytes.records slotSize).length ≤ 8 := by
  rw [Bytes.records_eq, List.length_map, List.length_range]
  exact Nat.div_le_of_le_mul small

theorem takes_listSectors (sound : volume.Sound) {walk : ChainWalk} (fit : Fit volume.source walk)
    {listed : Nat} (few : listed + filesLeft walk.steps < 4294967296) :
    Takes (filesLeft walk.steps) (volume.listSectors walk listed)
      (volume.plain.listSectors walk (listed + 1)) fun _ => True := by
  induction same : walk.remaining using Nat.strongRecOn generalizing walk listed with
  | ind left ih =>
    intro spare progress room
    obtain ⟨advanced, onward, delivers⟩ := advance_eq fit progress.signals
    rw [listSectors_eq, Disk.Volume.listSectors_eq, advanced]
    match step : walk.advance progress.signals with
    | (none, after, signals) =>
      refine ⟨rfl, trivial, ?_⟩
      unfold Room at room ⊢
      dsimp only
      omega
    | (some (.error error), after, signals) => exact ⟨rfl, trivial⟩
    | (some (.ok sector), after, signals) =>
      rw [step] at onward delivers
      dsimp only at onward delivers
      obtain ⟨_, counts, steps⟩ := delivers sector rfl
      have last := counts.steps_le
      have nearer : after.remaining < left := same ▸ ChainWalk.remaining_lt_of_advance step
      have held := length_records_le (ChainWalk.length_le_of_advance step)
      -- the room for this sector's files is set apart from that for all later ones
      have split : filesLeft walk.steps = 8 + filesLeft after.steps := by
        unfold filesLeft
        omega
      have listed' : Takes (8 + filesLeft after.steps)
          (do
            let here ← volume.listSlots listed (sector.data.records slotSize)
            let more ← volume.listSectors after (← add UInt64.size listed here.length)
            return here ++ more)
          (do
            let here ← volume.plain.listSlots (listed + 1) (sector.data.records slotSize)
            let more ← volume.plain.listSectors after (listed + 1 + here.length)
            return here ++ more)
          fun _ => True := by
        have slots := @takes_listSlots _ sound (sector.data.records slotSize)
          (fun _ member => Bytes.length_of_mem_records member) listed (by omega)
        refine (slots.mono held).bind fun here fits => ?_
        apply Takes.lift (add_eq (lt_word (by omega)))
        rw [Nat.add_right_comm]
        exact (ih _ nearer onward (by omega) rfl).last fun _ _ => takes_pure trivial
      rw [split] at room
      exact listed' spare { progress with signals } room

/-- A fresh counter has room for every file that a disk can list. -/
theorem entries_eq (sound : volume.Sound) {progress : Progress} (fresh : progress.count = 0) :
    volume.entries progress = .ok (volume.plain.entries progress) := by
  have fit := fit_start sound volume.plain.firstDirectory progress.limits
  have room : Room (filesLeft 0 + 0) progress := by
    unfold Room
    rw [fresh]
    decide
  have few : 0 + filesLeft 0 < 4294967296 := by decide
  exact (takes_listSectors sound fit few 0 progress room).1

end RetroMedia.Checked.Volume
