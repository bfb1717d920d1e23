import RetroMedia.Cartridge
import RetroMedia.Proofs.Checked.Bytes
import RetroMedia.Tape

/-! Tapes and cartridges opened and listed with checked accesses. -/
namespace RetroMedia

namespace Checked.Tape

open RetroMedia.Tape (headerSize recordSize signature lastAddress)

/-- What names are padded with, from the outside in. -/
def paddings : List UInt8 := [Petscii.shiftedSpace, 0x20, 0x00]

def openTape (container : Container) : Checked (Except MediaError RetroMedia.Tape) :=
  withHeader container headerSize signature fun header => do
    let label ← toText (← trimEach paddings (← part header 0x28 0x40))
    return .ok {
      container
      version := ← word 2 header 0x20
      maxEntries := ← word 2 header 0x22
      usedEntries := ← word 2 header 0x24
      label }

/-- A tape in an array, with no more records than its header can count. -/
structure Sound (tape : RetroMedia.Tape) : Prop where
  held : tape.container.size ≤ longestArray
  few : tape.recordCount ≤ 65536

theorem opens_openTape {container : Container} (held : container.size ≤ longestArray) :
    Opens Sound id (openTape container) (RetroMedia.Tape.open container) := by
  refine opens_withHeader (size_lt held) (by decide) fun header whole => ?_
  have label := field_lt header 0x28 (by decide : 24 < 4294967296)
  have small : header.length ≤ UInt64.size := by rw [whole]; decide
  have most := header.le16_lt 0x22
  have used := header.le16_lt 0x24
  rw [part_eq (by decide) (by rw [whole]; decide), ok_bind, trimEach_eq label, ok_bind, toText_eq,
    ok_bind, le16_eq (by rw [whole]; decide) small, ok_bind, le16_eq (by rw [whole]; decide) small,
    ok_bind, le16_eq (by rw [whole]; decide) small, ok_bind]
  refine opens_ok id ⟨held, ?_⟩
  unfold RetroMedia.Tape.recordCount
  dsimp only
  split <;> omega

/-- The data length of a record. -/
def dataSize (start finish available : Nat) : Checked Nat := do
  if finish < start ∨ available < finish - start then
    sub (min (← add UInt64.size start available) lastAddress) start
  else sub finish start

theorem dataSize_eq {start finish available : Nat} (low : start ≤ lastAddress)
    (room : start + available < UInt64.size) :
    dataSize start finish available = .ok (RetroMedia.Tape.dataSize start finish available) := by
  unfold dataSize RetroMedia.Tape.dataSize
  split
  · rw [add_eq room, ok_bind, sub_eq (Nat.le_min.2 ⟨Nat.le_add_right .., low⟩)]
  · rename_i within
    rw [sub_eq (by omega)]

variable (tape : RetroMedia.Tape)

/-- The entry of a record behind `listed` other ones. -/
def readRecord (listed : Nat) (record : Bytes) : Checked Entry := do
  let start ← word 2 record 0x02
  let finish ← word 2 record 0x04
  let offset ← word 4 record 0x08
  let rawName ← trimEach paddings (← part record 0x10 0x20)
  let size ← dataSize start finish (tape.container.size - offset)
  return {
    index := ← add UInt64.size listed 1
    name := ← toText rawName
    rawName
    size := ← add UInt64.size size 2
    typeCode := ← item record 0x01
    offset
    loadAddress := some start }

/-- The entries of the next `count` records behind `listed` entries. -/
def listRecords : Nat → Nat → Nat → Program Progress (List Entry)
  | 0, _, _ => return []
  | count + 1, slot, listed => do
    let offset ← add UInt64.size headerSize (← mul UInt64.size slot recordSize)
    match ← slice tape.container offset recordSize with
    | .error _ => return []
    | .ok record =>
      if (← item record 0) == 0 then listRecords count (slot + 1) listed
      else do
        tick
        let entry ← readRecord tape listed record
        let more ← listRecords count (slot + 1) (listed + 1)
        return entry :: more

def entries : Program Progress (List Entry) := listRecords tape tape.recordCount 0 0

variable {tape}

theorem dataSize_le {start finish available : Nat} (low : finish ≤ lastAddress) :
    RetroMedia.Tape.dataSize start finish available ≤ lastAddress := by
  unfold RetroMedia.Tape.dataSize
  split <;> omega

theorem readRecord_eq (held : tape.container.size ≤ longestArray) {listed : Nat}
    (few : listed + 1 < 4294967296) {record : Bytes} (whole : record.length = recordSize) :
    readRecord tape listed record = .ok (tape.readRecord (listed + 1) record) := by
  have name := field_lt record 0x10 (by decide : 16 < 4294967296)
  have small : record.length ≤ UInt64.size := by rw [whole]; decide
  have start : record.le16 0x02 ≤ lastAddress := Nat.le_of_lt_succ (record.le16_lt 0x02)
  have finish : record.le16 0x04 ≤ lastAddress := Nat.le_of_lt_succ (record.le16_lt 0x04)
  have wide : lastAddress + longestArray < UInt64.size := by decide
  have room : record.le16 0x02 + (tape.container.size - record.le32 0x08) < UInt64.size := by omega
  have size : RetroMedia.Tape.dataSize (record.le16 0x02) (record.le16 0x04)
      (tape.container.size - record.le32 0x08) + 2 < 4294967296 :=
    Nat.lt_of_le_of_lt (Nat.add_le_add_right (dataSize_le finish) 2) (by decide)
  rw [readRecord, le16_eq (by rw [whole]; decide) small, ok_bind,
    le16_eq (by rw [whole]; decide) small, ok_bind, le32_eq (by rw [whole]; decide) small, ok_bind,
    part_eq (by decide) (by rw [whole]; decide), ok_bind, trimEach_eq name, ok_bind,
    dataSize_eq start room, ok_bind, add_eq (lt_word few), ok_bind, toText_eq, ok_bind,
    add_eq (lt_word size), ok_bind, byte_eq (by rw [whole]; decide), ok_bind]
  rfl

theorem takes_listRecords (held : tape.container.size ≤ longestArray) {count slot listed : Nat}
    (few : slot + count ≤ 65536) (behind : listed ≤ slot) :
    Takes count (listRecords tape count slot listed) (tape.listRecords count slot (listed + 1))
      fun entries => ∀ entry ∈ entries, entry.addressSize ≤ entry.size := by
  have addressable := size_lt held
  induction count generalizing slot listed with
  | zero => exact takes_pure fun _ member => absurd member List.not_mem_nil
  | succ count ih =>
    unfold listRecords RetroMedia.Tape.listRecords
    have table : slot * recordSize ≤ 65536 * 32 := Nat.mul_le_mul_right 32 (by omega)
    have place : headerSize + slot * recordSize < 4294967296 :=
      Nat.lt_of_le_of_lt (Nat.add_le_add_left table headerSize) (by decide)
    apply Takes.lift (mul_eq (lt_word (by omega)))
    apply Takes.lift (add_eq (lt_word place))
    apply Takes.lift (slice_eq addressable _ _)
    cases read : tape.container.slice (headerSize + slot * recordSize) recordSize with
    | error error => exact (takes_pure (by simp)).mono (Nat.zero_le _)
    | ok record =>
      have whole : record.length = recordSize := Container.length_of_slice read
      have onward {listed : Nat} (behind : listed ≤ slot + 1) := @ih (slot + 1) listed (by omega) behind
      apply Takes.lift (byte_eq (by rw [whole]; decide))
      by_cases free : (record.byte 0 == 0) = true
      · rw [if_pos free]
        dsimp only
        rw [if_pos free]
        exact (onward (Nat.le_succ_of_le behind)).mono (Nat.le_succ _)
      · rw [if_neg free]
        dsimp only
        rw [if_neg free, Nat.add_comm count 1]
        refine takes_tick.bind fun _ _ => ?_
        apply Takes.lift (readRecord_eq held (by omega) whole)
        refine (onward (Nat.succ_le_succ behind)).last fun more sized => takes_pure ?_
        intro entry member
        rcases List.mem_cons.1 member with rfl | later
        · exact Nat.le_add_left ..
        · exact sized entry later

theorem takes_entries (sound : Sound tape) :
    Takes 65536 (entries tape) tape.entries
      fun entries => ∀ entry ∈ entries, entry.addressSize ≤ entry.size :=
  (takes_listRecords sound.held (by have few := sound.few; omega) (Nat.le_refl _)).mono sound.few

end Checked.Tape

namespace Checked.Cartridge

open RetroMedia.Cartridge (signature flashOffset directoryOffset directoryRecords recordSize pageSize
  programType bundleType deletedType endType)

/-- What names are padded with, from the outside in. -/
def paddings : List UInt8 := [0x00, Petscii.shiftedSpace]

def openCartridge (container : Container) : Checked (Except MediaError RetroMedia.Cartridge) :=
  withHeader container flashOffset signature fun header => do
    let version ← word 2 header 0x10
    let label ← toText (← trimEach paddings (← part header 0x18 0x28))
    let stored ← word 4 header 0xD4
    return .ok { container, version, label, flashLength := container.clamp flashOffset stored }

/-- A cartridge in an array. -/
def Sound (cartridge : RetroMedia.Cartridge) : Prop := cartridge.container.size ≤ longestArray

theorem opens_openCartridge {container : Container} (held : container.size ≤ longestArray) :
    Opens Sound id (openCartridge container) (RetroMedia.Cartridge.open container) := by
  refine opens_withHeader (size_lt held) (by decide) fun header whole => ?_
  have label := field_lt header 0x18 (by decide : 16 < 4294967296)
  have small : header.length ≤ UInt64.size := by rw [whole]; decide
  rw [le16_eq (by rw [whole]; decide) small, ok_bind, part_eq (by decide) (by rw [whole]; decide),
    ok_bind, trimEach_eq label, ok_bind, toText_eq, ok_bind, le32_eq (by rw [whole]; decide) small,
    ok_bind]
  exact opens_ok id held

/-- The extension of a bundled image. -/
def bundleExtension? (bytes : Bytes) : Checked (Option String) := do
  let extension := (← trimPadding (← part bytes 0 4) 0x00).map Char.ofUInt8
  if !extension.isEmpty && extension.all Char.isAlphanum then
    return some (Format.lower (String.ofList extension))
  else return none

theorem bundleExtension?_eq {bytes : Bytes} (whole : 4 ≤ bytes.length) :
    bundleExtension? bytes = .ok (RetroMedia.Cartridge.bundleExtension? bytes) := by
  have short : (bytes.take 4).length < UInt64.size :=
    Nat.lt_of_le_of_lt (List.length_take_le ..) (by decide)
  unfold bundleExtension? RetroMedia.Cartridge.bundleExtension?
  rw [part_eq (Nat.zero_le _) whole, ok_bind, Nat.sub_zero, Bytes.field, List.drop_zero,
    trimPadding_eq short, ok_bind]
  dsimp only
  split <;> rfl

variable (cartridge : RetroMedia.Cartridge)

/-- A record of the table, if it lies inside the dump. -/
def record? (slot : Nat) : Checked (Option Bytes) := do
  let offset ← add UInt64.size directoryOffset (← mul UInt64.size slot recordSize)
  if cartridge.flashLength < (← add UInt64.size offset recordSize) then return none
  else
    match ← slice cartridge.container (← add UInt64.size flashOffset offset) recordSize with
    | .error _ => return none
    | .ok record => return some record

theorem record?_eq (addressable : cartridge.container.size < UInt64.size) {slot : Nat}
    (few : slot ≤ directoryRecords) :
    record? cartridge slot = .ok (cartridge.record? slot) := by
  have table : slot * recordSize ≤ directoryRecords * recordSize := Nat.mul_le_mul_right _ few
  have last :
      flashOffset + (directoryOffset + directoryRecords * recordSize) + recordSize < 4294967296 := by
    decide
  unfold record? RetroMedia.Cartridge.record?
  rw [mul_eq (lt_word (by omega)), ok_bind, add_eq (lt_word (by omega)), ok_bind,
    add_eq (lt_word (by omega)), ok_bind]
  dsimp only
  split
  · rfl
  · rw [add_eq (lt_word (by omega)), ok_bind, slice_eq addressable, ok_bind]
    cases cartridge.container.slice (flashOffset + (directoryOffset + slot * recordSize)) recordSize <;>
      rfl

/-- The address that a program is loaded to. -/
def loadAddressOf (typeCode : UInt8) (record : Bytes) : Checked (Option Nat) := do
  if typeCode == programType then return some (← word 2 record 0x16) else return none

/-- The extension of the image that a bundle holds. -/
def formatHintOf (typeCode : UInt8) (record : Bytes) : Checked (Option String) := do
  if typeCode == bundleType then bundleExtension? (← part record 0x18 record.length) else return none

/-- The entry of a record behind `listed` other ones. -/
def readRecord (listed : Nat) (record : Bytes) : Checked Entry := do
  let rawName ← trimEach paddings (← part record 0 16)
  let name ← toText rawName
  let typeCode ← item record 0x10
  let offset ← add UInt64.size flashOffset (← mul UInt64.size (← word 2 record 0x11) pageSize)
  let dataSize := cartridge.container.clamp offset (← word 3 record 0x13)
  let loadAddress ← loadAddressOf typeCode record
  return {
    index := ← add UInt64.size listed 1
    name
    rawName
    size := ← add UInt64.size dataSize (if loadAddress.isSome then 2 else 0)
    typeCode
    offset
    loadAddress
    formatHint := ← formatHintOf typeCode record }

/-- The entries of the next `count` records behind `listed` entries. -/
def listRecords : Nat → Nat → Nat → Program Progress (List Entry)
  | 0, _, _ => return []
  | count + 1, slot, listed => do
    match ← record? cartridge slot with
    | none => return []
    | some record =>
      let typeCode ← item record 0x10
      if typeCode == endType then return []
      else if typeCode == deletedType then listRecords count (slot + 1) listed
      else do
        tick
        let entry ← readRecord cartridge listed record
        let more ← listRecords count (slot + 1) (listed + 1)
        return entry :: more

def entries : Program Progress (List Entry) := listRecords cartridge directoryRecords 0 0

variable {cartridge}

theorem loadAddressOf_eq {record : Bytes} (whole : record.length = recordSize) (typeCode : UInt8) :
    loadAddressOf typeCode record = .ok
      (if typeCode == programType then some (record.le16 0x16) else none) := by
  unfold loadAddressOf
  rw [le16_eq (by rw [whole]; decide) (by rw [whole]; decide)]
  split <;> rfl

theorem formatHintOf_eq {record : Bytes} (whole : record.length = recordSize) (typeCode : UInt8) :
    formatHintOf typeCode record = .ok
      (if typeCode == bundleType then RetroMedia.Cartridge.bundleExtension? (record.drop 0x18)
        else none) := by
  have rest : (record.drop 0x18).length = 8 := by rw [List.length_drop, whole]; rfl
  unfold formatHintOf
  rw [part_rest (by rw [whole]; decide), ok_bind, bundleExtension?_eq (by omega)]
  split <;> rfl

theorem readRecord_eq (held : cartridge.container.size ≤ longestArray) {listed : Nat}
    (few : listed + 1 < 4294967296) {record : Bytes} (whole : record.length = recordSize) :
    readRecord cartridge listed record = .ok (cartridge.readRecord (listed + 1) record) := by
  have name : (record.take 16).length < UInt64.size :=
    Nat.lt_of_le_of_lt (List.length_take_le ..) (by decide)
  have small : record.length ≤ UInt64.size := by rw [whole]; decide
  have page : record.le16 0x11 * pageSize ≤ 65536 * 256 :=
    Nat.mul_le_mul_right 256 (Nat.le_of_lt (record.le16_lt 0x11))
  have place : flashOffset + record.le16 0x11 * pageSize < 4294967296 :=
    Nat.lt_of_le_of_lt (Nat.add_le_add_left page flashOffset) (by decide)
  have size : cartridge.container.clamp (flashOffset + record.le16 0x11 * pageSize)
      (record.le24 0x13) + 2 < UInt64.size := by
    have short : cartridge.container.clamp (flashOffset + record.le16 0x11 * pageSize)
        (record.le24 0x13) ≤ longestArray :=
      Nat.le_trans (Nat.min_le_right ..) (Nat.le_trans (Nat.sub_le ..) held)
    exact Nat.lt_of_le_of_lt (Nat.add_le_add_right short 2) (by decide)
  have address (loadAddress : Option Nat) : (if loadAddress.isSome then 2 else 0) ≤ 2 := by
    split <;> omega
  rw [readRecord, part_eq (Nat.zero_le _) (by rw [whole]; decide), ok_bind, Nat.sub_zero, Bytes.field,
    List.drop_zero, trimEach_eq name, ok_bind, toText_eq, ok_bind, byte_eq (by rw [whole]; decide),
    ok_bind, le16_eq (by rw [whole]; decide) small, ok_bind, mul_eq (lt_word (by omega)), ok_bind,
    add_eq (lt_word place), ok_bind, le24_eq (by rw [whole]; decide) small, ok_bind,
    loadAddressOf_eq whole, ok_bind, add_eq (lt_word few), ok_bind,
    add_eq (Nat.lt_of_le_of_lt (Nat.add_le_add_left (address _) _) size), ok_bind,
    formatHintOf_eq whole, ok_bind]
  rfl

theorem length_of_record? {slot : Nat} {record : Bytes} (found : cartridge.record? slot = some record) :
    record.length = recordSize := by
  unfold RetroMedia.Cartridge.record? at found
  dsimp only at found
  split at found
  · cases found
  · cases read : cartridge.container.slice (flashOffset + (directoryOffset + slot * recordSize))
        recordSize with
    | error error =>
      rw [read] at found
      cases found
    | ok bytes =>
      rw [read] at found
      cases found
      exact Container.length_of_slice read

theorem addressSize_readRecord (index : Nat) (record : Bytes) :
    (cartridge.readRecord index record).addressSize ≤ (cartridge.readRecord index record).size :=
  Nat.le_add_left ..

theorem takes_listRecords (held : cartridge.container.size ≤ longestArray) {count slot listed : Nat}
    (few : slot + count ≤ directoryRecords) (behind : listed ≤ slot) :
    Takes count (listRecords cartridge count slot listed)
      (cartridge.listRecords count slot (listed + 1))
      fun entries => ∀ entry ∈ entries, entry.addressSize ≤ entry.size := by
  induction count generalizing slot listed with
  | zero => exact takes_pure fun _ member => absurd member List.not_mem_nil
  | succ count ih =>
    unfold listRecords RetroMedia.Cartridge.listRecords
    apply Takes.lift (record?_eq _ (size_lt held) (by omega))
    cases found : cartridge.record? slot with
    | none => exact (takes_pure (by simp)).mono (Nat.zero_le _)
    | some record =>
      have whole := length_of_record? found
      have onward {listed : Nat} (behind : listed ≤ slot + 1) := @ih (slot + 1) listed (by omega) behind
      apply Takes.lift (byte_eq (by rw [whole]; decide))
      dsimp only
      by_cases last : (record.byte 0x10 == endType) = true
      · rw [if_pos last, if_pos last]
        exact (takes_pure (by simp)).mono (Nat.zero_le _)
      · rw [if_neg last, if_neg last]
        by_cases deleted : (record.byte 0x10 == deletedType) = true
        · rw [if_pos deleted, if_pos deleted]
          exact (onward (Nat.le_succ_of_le behind)).mono (Nat.le_succ _)
        · rw [if_neg deleted, if_neg deleted, Nat.add_comm count 1]
          refine takes_tick.bind fun _ _ => ?_
          have least : directoryRecords + 1 < 4294967296 := by decide
          apply Takes.lift (readRecord_eq held (by omega) whole)
          refine (onward (Nat.succ_le_succ behind)).last fun more sized => takes_pure ?_
          intro entry member
          rcases List.mem_cons.1 member with rfl | later
          · exact addressSize_readRecord ..
          · exact sized entry later

theorem takes_entries (sound : Sound cartridge) :
    Takes directoryRecords (entries cartridge) cartridge.entries
      fun entries => ∀ entry ∈ entries, entry.addressSize ≤ entry.size :=
  takes_listRecords sound (by decide) (Nat.le_refl _)

end Checked.Cartridge

end RetroMedia
