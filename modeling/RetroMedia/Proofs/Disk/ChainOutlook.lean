import RetroMedia.Disk.ChainReader
import RetroMedia.Proofs.Stream.Outlook

/-! What a chain reader still has to deliver: the rest of its sector, the data of the sectors that
its walk still reaches under the signals as they are, and the failure that ends that walk. The main
statement is that this outlook foretells every read, whatever the source, the size of the buffer
and the schedule of the cancellation flag. -/
namespace RetroMedia.Disk

/-- The data of a chain sector, its link left out. -/
def ChainSector.payload (sector : ChainSector) : Bytes := sector.data.drop 2

/-- The data of some sectors in a row. -/
def payload (sectors : List ChainSector) : Bytes := sectors.flatMap ChainSector.payload

@[simp] theorem payload_nil : payload [] = [] := rfl

@[simp] theorem payload_cons (sector : ChainSector) (sectors : List ChainSector) :
    payload (sector :: sectors) = sector.payload ++ payload sectors := rfl

@[simp] theorem payload_append (first second : List ChainSector) :
    payload (first ++ second) = payload first ++ payload second := List.flatMap_append

theorem length_payload (sectors : List ChainSector) :
    (payload sectors).length = payloadSize sectors := by
  suffices general : ∀ start, sectors.foldl (fun size sector => size + (sector.data.length - 2)) start
      = start + (payload sectors).length by
    simp [payloadSize, general]
  induction sectors with
  | nil => simp
  | cons sector rest ih =>
    intro start
    rw [List.foldl_cons, ih]
    simp [ChainSector.payload]
    omega

namespace ChainWalk

theorem sectors_of_over {walk after : ChainWalk} {signals signals' : Signals}
    (step : walk.advance signals = (none, after, signals')) :
    walk.sectors signals = ([], none, signals') := by
  rw [sectors]
  split <;> rename_i same <;> rw [step] at same <;> cases same
  rfl

theorem sectors_of_error {walk after : ChainWalk} {signals signals' : Signals} {error : MediaError}
    (step : walk.advance signals = (some (.error error), after, signals')) :
    walk.sectors signals = ([], some error, signals') := by
  rw [sectors]
  split <;> rename_i same <;> rw [step] at same <;> cases same
  rfl

theorem sectors_of_ok {walk after : ChainWalk} {signals signals' : Signals} {sector : ChainSector}
    (step : walk.advance signals = (some (.ok sector), after, signals')) :
    walk.sectors signals = (sector :: (after.sectors signals').1, (after.sectors signals').2) := by
  rw [sectors]
  split <;> rename_i same <;> rw [step] at same <;> cases same
  rfl

end ChainWalk

namespace ChainReader

/-- What filling a buffer can still draw on. -/
def ahead (reader : ChainReader) (signals : Signals) : Outlook :=
  if reader.exhausted then .finished
  else
    ⟨reader.block ++ payload (reader.walk.sectors signals).1, (reader.walk.sectors signals).2.1⟩

/-- What reads can still deliver. A failure that was kept back comes first. -/
def outlook (reader : ChainReader) (signals : Signals) : Outlook :=
  match reader.pending with
  | some error => ⟨[], some error⟩
  | none => reader.ahead signals

/-- A failure is kept back only by a reader that has nothing else left. -/
def Sound (reader : ChainReader) : Prop := reader.pending.isSome → reader.exhausted = true

theorem ahead_of_exhausted (reader : ChainReader) (signals : Signals)
    (finished : reader.exhausted = true) : reader.ahead signals = .finished := by
  simp [ahead, finished]

/-- Filling a buffer takes its bytes from the front of what is ahead, stops short only where that
ends, and a failure comes up only behind the last byte. -/
theorem fill_ahead (reader : ChainReader) (wanted : Nat) (signals : Signals) :
    (reader.fill wanted signals).1.length ≤ wanted ∧
      match (reader.fill wanted signals).2.1 with
      | some error =>
        reader.ahead signals = ⟨(reader.fill wanted signals).1, some error⟩ ∧
          (reader.fill wanted signals).2.2.1.exhausted = true
      | none =>
        reader.ahead signals
            = ((reader.fill wanted signals).2.2.1.ahead (reader.fill wanted signals).2.2.2).behind
              (reader.fill wanted signals).1 ∧
          ((reader.fill wanted signals).1.length < wanted →
            (reader.fill wanted signals).2.2.1.ahead (reader.fill wanted signals).2.2.2
              = .finished) := by
  fun_induction fill reader wanted signals with
  | case1 reader wanted signals idle =>
    refine ⟨Nat.zero_le _, rfl, fun short => ?_⟩
    rcases idle with none | finished
    · simp [none] at short
    · exact ahead_of_exhausted reader signals finished
  | case2 reader wanted signals idle left piece more failure after signals' filled ih =>
    rw [filled] at ih
    have going : reader.exhausted = false := by simpa using fun finished => idle (.inr finished)
    have split : reader.ahead signals
        = ({ reader with block := reader.block.drop wanted }.ahead signals).behind piece := by
      simp only [ahead, going, Bool.false_eq_true, if_false, Outlook.behind, ← List.append_assoc]
      rw [List.take_append_drop]
    have size : piece.length ≤ wanted := List.length_take_le ..
    refine ⟨by have := ih.1; simp only [List.length_append] at *; omega, ?_⟩
    rw [split]
    cases failure with
    | some error =>
      rw [ih.2.1]
      exact ⟨rfl, ih.2.2⟩
    | none =>
      rw [ih.2.1]
      refine ⟨by simp [Outlook.behind], fun short => ih.2.2 ?_⟩
      simp only [List.length_append] at *
      omega
  | case3 reader wanted signals idle left walk signals' step =>
    have going : reader.exhausted = false := by simpa using fun finished => idle (.inr finished)
    have empty : reader.block = [] := Classical.not_not.1 left
    refine ⟨Nat.zero_le _, ?_, fun _ => ahead_of_exhausted _ _ rfl⟩
    rw [ahead_of_exhausted { reader with walk, exhausted := true } signals' rfl]
    simp [ahead, going, empty, ChainWalk.sectors_of_over step, Outlook.behind, Outlook.finished]
  | case4 reader wanted signals idle left error walk signals' step =>
    have going : reader.exhausted = false := by simpa using fun finished => idle (.inr finished)
    have empty : reader.block = [] := Classical.not_not.1 left
    refine ⟨Nat.zero_le _, ?_, rfl⟩
    simp [ahead, going, empty, ChainWalk.sectors_of_error step]
  | case5 reader wanted signals idle left sector walk signals' step ih =>
    have going : reader.exhausted = false := by simpa using fun finished => idle (.inr finished)
    have empty : reader.block = [] := Classical.not_not.1 left
    have same : reader.ahead signals
        = { reader with walk, block := sector.data.drop 2 }.ahead signals' := by
      simp [ahead, going, empty, ChainWalk.sectors_of_ok step, ChainSector.payload]
    rw [same]
    exact ih

theorem sound_start (source : SectorSource) (location : Location) (limits : Limits) :
    (start source location limits).Sound := by
  simp [Sound, start]

/-- What a read does to the outlook, whatever the size of its buffer. Bytes come from its front, and a
failure comes behind all of them and leaves nothing. -/
theorem read_outlook (reader : ChainReader) (sound : reader.Sound) (wanted : Nat)
    (signals : Signals) :
    match reader.read wanted signals with
    | (.ok piece, after, signals') =>
      after.Sound ∧ piece.length ≤ wanted ∧
        reader.outlook signals = (after.outlook signals').behind piece ∧
        (piece = [] → 0 < wanted → reader.outlook signals = .finished)
    | (.error error, after, signals') =>
      after.Sound ∧ reader.outlook signals = ⟨[], some error⟩ ∧
        after.outlook signals' = .finished := by
  unfold read
  cases held : reader.pending with
  | some error =>
    have finished : reader.exhausted = true := sound (by simp [held])
    exact ⟨by simp [Sound], by simp [outlook, held], ahead_of_exhausted _ _ finished⟩
  | none =>
    obtain ⟨size, law⟩ := reader.fill_ahead wanted signals
    have kept := (reader.fill_supply wanted signals).2
    have here : reader.outlook signals = reader.ahead signals := by simp [outlook, held]
    rcases filled : reader.fill wanted signals with ⟨bytes, failure, after, signals'⟩
    rw [filled] at law kept size
    have still : after.pending = none := kept.trans held
    have there : after.outlook signals' = after.ahead signals' := by simp [outlook, still]
    match bytes, failure with
    | bytes, none =>
      refine ⟨by simp [Sound, still], size, ?_, fun none positive => ?_⟩
      · exact here.trans (law.1.trans (by rw [← there]))
      · subst none
        exact here.trans (law.1.trans (law.2 positive))
    | [], some error =>
      refine ⟨by simp [Sound, still], here.trans law.1, ?_⟩
      rw [there, ahead_of_exhausted after signals' law.2]
    | byte :: bytes, some error =>
      have behind : reader.ahead signals = ⟨(byte :: bytes) ++ [], some error⟩ := by
        rw [List.append_nil]
        exact law.1
      exact ⟨fun _ => law.2, size, here.trans behind, fun none => by simp at none⟩

/-- The outlook of a chain reader foretells all that it will deliver. -/
theorem foretells : ByteSource.Foretells (fun state : ChainReader × Signals => state.1.Sound)
    (fun state => state.1.outlook state.2) := by
  rintro ⟨reader, signals⟩ wanted sound positive
  have law := reader.read_outlook sound wanted signals
  change ByteSource.Consumes _ _ _ _ (reader.read wanted signals)
  match step : reader.read wanted signals with
  | (.ok piece, after, signals') =>
    rw [step] at law
    exact ⟨law.1, law.2.1, law.2.2.1, fun none => law.2.2.2 none positive⟩
  | (.error error, after, signals') =>
    rw [step] at law
    exact ⟨law.1, law.2.1, fun _ => law.2.2⟩

end ChainReader
end RetroMedia.Disk
