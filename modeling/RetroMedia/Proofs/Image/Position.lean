import RetroMedia.Proofs.Image.Company

/-! Where a stream can stand. Whatever was asked of it, and whatever happened to its image meanwhile, a
stream stands inside of what it reads: what an entry's reader yields decides nothing, since a read
never asks it for more than the entry has left. -/
namespace RetroMedia

namespace RangeReader

theorem length_le_of_read {reader after : RangeReader} {count : Nat} {bytes : Bytes}
    (step : reader.read count = (.ok bytes, after)) : bytes.length ≤ count := by
  unfold read at step
  dsimp only at step
  split at step
  · cases step
    exact Nat.zero_le _
  · split at step
    · cases step
    · rename_i byte rest found
      cases step
      have size := reader.container.length_readAt reader.offset (min count reader.remaining)
      rw [found] at size
      omega

end RangeReader

namespace Disk.ChainReader

theorem length_le_of_read {reader after : ChainReader} {wanted : Nat} {signals signals' : Signals}
    {bytes : Bytes} (step : reader.read wanted signals = (.ok bytes, after, signals')) :
    bytes.length ≤ wanted := by
  have size := (reader.fill_ahead wanted signals).1
  unfold read at step
  split at step
  · cases step
  · split at step <;> rename_i filled <;> rw [filled] at size <;> cases step <;> exact size

end Disk.ChainReader

/-- No reader hands out more than fits into the buffer. -/
theorem Reader.length_le_of_read {reader after : Reader} {count : Nat} {signals signals' : Signals}
    {bytes : Bytes} (step : reader.read count signals = (.ok bytes, after, signals')) :
    bytes.length ≤ count := by
  match reader with
  | memory rest =>
    cases step
    exact List.length_take_le ..
  | range (byte :: head) data =>
    cases step
    exact List.length_take_le ..
  | range [] data =>
    obtain ⟨same, -⟩ := Prod.mk.inj step
    exact RangeReader.length_le_of_read (Prod.ext same rfl)
  | chain data =>
    obtain ⟨same, -⟩ := Prod.mk.inj step
    exact Disk.ChainReader.length_le_of_read (Prod.ext same rfl)
  | cursor data =>
    cases step
    have size := data.container.length_readAt data.position count
    exact Nat.le_trans (Nat.le_of_eq size) (Nat.min_le_left ..)

namespace Checkout

/-- The same image with the same directory, if that is kept, and the same entry selected. -/
structure SameChoice (before after : Checkout) : Prop where
  image : after.image = before.image
  table : after.shared.table = before.shared.table
  selected : after.stream.selected = before.stream.selected

/-- A read does not change what is read. -/
theorem read_sameChoice (checkout : Checkout) (count : Nat) :
    checkout.SameChoice (checkout.read count).2 := by
  unfold read readEntry
  dsimp only
  (repeat' split) <;> exact ⟨rfl, rfl, rfl⟩

theorem skipTo_sameChoice (checkout : Checkout) (entry : Entry) (target : Nat) :
    checkout.SameChoice (checkout.skipTo entry target).2 := by
  unfold skipTo
  dsimp only
  (repeat' split) <;> exact ⟨rfl, rfl, rfl⟩

/-- Nor does a seek. -/
theorem seek_sameChoice (checkout : Checkout) (target : Seek) :
    checkout.SameChoice (checkout.seek target).2 := by
  unfold seek
  split
  · exact ⟨rfl, rfl, rfl⟩
  · rename_i goal _
    split
    · exact ⟨rfl, rfl, rfl⟩
    · rename_i entry _
      have sought : checkout.SameChoice (checkout.seekInEntry entry goal).2 := by
        unfold seekInEntry
        split
        · obtain ⟨image, table, selected⟩ := skipTo_sameChoice
            { checkout with stream := { checkout.stream with reader := none, entryPosition := 0 } }
            entry goal
          exact ⟨image, table, selected⟩
        · exact skipTo_sameChoice checkout entry goal
      split <;> rename_i step <;> rw [step] at sought <;> exact sought

variable {image : Image} {checkout : Checkout}

/-- The stream stands inside of the raw container and, if an entry is selected, inside of the entry. -/
structure Within (image : Image) (checkout : Checkout) : Prop where
  here : checkout.image = image
  raw : checkout.stream.position ≤ image.container.size
  entry : ∀ entry, checkout.stream.selected = some entry → checkout.stream.entryPosition ≤ entry.size

theorem Within.position_le_size (within : checkout.Within image) :
    checkout.position ≤ checkout.size := by
  unfold position size
  cases chosen : checkout.stream.selected with
  | none =>
    rw [within.here]
    exact within.raw
  | some entry => exact within.entry entry chosen

/-- What other streams and the flag do to what is shared does not move the stream. -/
theorem Within.share (within : checkout.Within image) (shared : Shared) :
    Within image { checkout with shared } := ⟨within.here, within.raw, within.entry⟩

theorem Within.keepReader (within : checkout.Within image) (reader : Reader) (signals : Signals) :
    (checkout.keepReader reader signals).Within image := ⟨within.here, within.raw, within.entry⟩

theorem Within.atEntryPosition (within : checkout.Within image) {entry : Entry}
    (chosen : checkout.stream.selected = some entry) {target : Nat} (fits : target ≤ entry.size) :
    (checkout.atEntryPosition target).Within image where
  here := within.here
  raw := within.raw
  entry := by
    intro other same
    cases chosen.symm.trans same
    exact fits

/-- What a read may do to a stream: it hands out what fits and what there is, and moves by as much; or
it fails, and the stream stays where it is. -/
def Advances (checkout : Checkout) (count : Nat) : Except MediaError Bytes × Checkout → Prop
  | (.ok bytes, after) =>
    bytes.length ≤ min count checkout.available ∧
      after.position = checkout.position + bytes.length
  | (.error _, after) =>
    after.position = checkout.position ∧ after.stream.selected = checkout.stream.selected ∧
      after.stream.position = checkout.stream.position

theorem readEntry_advances (within : checkout.Within image) {entry : Entry}
    (chosen : checkout.stream.selected = some entry) (count : Nat) :
    checkout.Advances count (checkout.readEntry entry count) ∧
      (checkout.readEntry entry count).2.Within image := by
  have here : checkout.position = checkout.stream.entryPosition := by rw [position, chosen]
  have room : checkout.available + checkout.stream.entryPosition = entry.size := by
    have inside := within.entry entry chosen
    have size : checkout.size = entry.size := by rw [size, chosen]
    rw [available, size, here]
    omega
  unfold readEntry
  dsimp only
  split
  · exact ⟨⟨Nat.zero_le _, rfl⟩, within⟩
  · split
    · exact ⟨⟨rfl, rfl, rfl⟩, within⟩
    · rename_i reader opened
      split
      · rename_i bytes after signals step
        have size := Reader.length_le_of_read step
        refine ⟨⟨size, ?_⟩, (within.keepReader _ _).atEntryPosition chosen (by omega)⟩
        rw [here, position, Checkout.atEntryPosition, Checkout.keepReader]
        dsimp only
        rw [chosen]
      · exact ⟨⟨rfl, rfl, rfl⟩, within.keepReader _ _⟩

theorem read_advances (within : checkout.Within image) (count : Nat) :
    checkout.Advances count (checkout.read count) ∧ (checkout.read count).2.Within image := by
  unfold read
  cases chosen : checkout.stream.selected with
  | some entry => exact readEntry_advances within chosen count
  | none =>
    have size := checkout.image.container.length_readAt checkout.stream.position count
    have here : checkout.position = checkout.stream.position := by rw [position, chosen]
    have whole : checkout.size = checkout.image.container.size := by rw [Checkout.size, chosen]
    have inside := within.raw
    rw [← within.here] at inside
    refine ⟨⟨?_, ?_⟩, within.here, ?_, ?_⟩
    · exact Nat.le_of_eq (by rw [size, available, here, whole])
    · rw [here, position]
      dsimp only
      rw [chosen]
    · rw [← within.here]
      dsimp only
      omega
    · intro entry other
      cases chosen.symm.trans other

theorem skipTo_within (within : checkout.Within image) {entry : Entry}
    (chosen : checkout.stream.selected = some entry) {target : Nat} (fits : target ≤ entry.size) :
    (checkout.skipTo entry target).2.Within image := by
  unfold skipTo
  dsimp only
  split
  · exact within.atEntryPosition chosen fits
  · split
    · exact within
    · split
      · exact within.keepReader _ _
      · exact (within.keepReader _ _).atEntryPosition chosen fits

theorem seekInEntry_within (within : checkout.Within image) {entry : Entry}
    (chosen : checkout.stream.selected = some entry) {target : Nat} (fits : target ≤ entry.size) :
    (checkout.seekInEntry entry target).2.Within image := by
  unfold seekInEntry
  split
  · have again : Within image
        { checkout with stream := { checkout.stream with reader := none, entryPosition := 0 } } :=
      ⟨within.here, within.raw, fun _ _ => Nat.zero_le _⟩
    exact skipTo_within again chosen fits
  · exact skipTo_within within chosen fits

theorem seek_within (within : checkout.Within image) (target : Seek) :
    (checkout.seek target).2.Within image := by
  unfold seek
  split
  · exact within
  · rename_i place found
    have fits := Seek.resolve_le found
    split
    · rename_i raw
      rw [size, raw, within.here] at fits
      exact ⟨within.here, fits, within.entry⟩
    · rename_i entry chosen
      rw [size, chosen] at fits
      have moved := seekInEntry_within within chosen fits
      split <;> rename_i step <;> rw [step] at moved <;> exact moved

/-- What every step of a stream keeps, whatever becomes of what it shares with other streams. -/
structure Invariant (image : Image) (kept : Checkout → Prop) : Prop where
  here : ∀ {checkout}, kept checkout → checkout.image = image
  share : ∀ {checkout}, kept checkout → ∀ shared, kept { checkout with shared }
  choose : ∀ {checkout}, kept checkout → ∀ selected : Option Entry, kept { checkout with
    stream := { checkout.stream with selected, reader := none, entryPosition := 0 } }
  walk : ∀ {checkout}, kept checkout → ∀ cursor,
    kept { checkout with stream := { checkout.stream with cursor } }
  move : ∀ {checkout}, kept checkout → ∀ position ≤ image.container.size,
    kept { checkout with stream := { checkout.stream with position } }
  seek : ∀ {checkout}, kept checkout → ∀ target, kept (checkout.seek target).2
  read : ∀ {checkout}, kept checkout → ∀ count, kept (checkout.read count).2

theorem lockstep_self {α : Type} {kept : Checkout → Prop} {action : Action α}
    (keeps : ∀ checkout, kept checkout → match action checkout with
      | .ok _ after => kept after
      | .error _ after => kept after) :
    Lockstep (fun first second => first = second ∧ kept first) action action := by
  rintro checkout _ ⟨rfl, here⟩
  have law := keeps checkout here
  cases step : action checkout with
  | ok value after =>
    rw [step] at law
    exact ⟨rfl, rfl, law⟩
  | error error after =>
    rw [step] at law
    exact ⟨rfl, rfl, law⟩

/-- No request takes a stream out of an invariant. -/
theorem Invariant.conducts {kept : Checkout → Prop} (invariant : Invariant image kept) :
    Conducts image fun first second => first = second ∧ kept first where
  image_eq := by
    rintro _ _ ⟨rfl, here⟩
    exact ⟨invariant.here here, invariant.here here⟩
  stream_eq := by
    rintro _ _ ⟨rfl, _⟩
    rfl
  entries := by
    apply lockstep_self
    intro checkout here
    unfold entries
    split <;> rename_i listed <;> split at listed <;> cases listed <;>
      exact invariant.share here _
  choose selected := lockstep_self fun _ here => invariant.choose here selected
  walk cursor := lockstep_self fun _ here => invariant.walk here _
  move position fits := lockstep_self fun _ here => invariant.move here position fits
  chainSize location := by
    apply lockstep_self
    intro checkout here
    unfold Checkout.chainSize
    split <;> rename_i listed <;> split at listed <;> cases listed <;>
      exact invariant.share here _
  seek := by
    rintro checkout _ ⟨rfl, here⟩ target
    exact ⟨rfl, rfl, invariant.seek here target⟩
  read := by
    rintro checkout _ ⟨rfl, here⟩ count
    exact ⟨rfl, rfl, invariant.read here count⟩

theorem invariant_within (image : Image) : Invariant image (Within image) where
  here within := within.here
  share within := within.share
  choose within _ := ⟨within.here, within.raw, fun _ _ => Nat.zero_le _⟩
  walk within _ := ⟨within.here, within.raw, within.entry⟩
  move within _ fits := ⟨within.here, fits, within.entry⟩
  seek within := seek_within within
  read within count := (read_advances within count).2

/-- What can happen to a stream: its user does something with it, or the signals and the directory that
it shares with other streams become something else. -/
inductive Event where
  | inquiry (inquiry : Inquiry)
  | shared (shared : Shared)

def meet (checkout : Checkout) : Event → Checkout
  | .inquiry inquiry => (checkout.answer inquiry).2
  | .shared shared => { checkout with shared }

/-- The stream after all that happened to it. -/
def meetAll (checkout : Checkout) (events : List Event) : Checkout := events.foldl meet checkout

theorem Invariant.meet {kept : Checkout → Prop} (invariant : Invariant image kept)
    (here : kept checkout) (event : Event) : kept (checkout.meet event) := by
  cases event with
  | inquiry inquiry => exact (invariant.conducts.answer ⟨rfl, here⟩ inquiry).2.2
  | shared shared => exact invariant.share here shared

/-- An invariant holds wherever a stream gets to. -/
theorem Invariant.meetAll {kept : Checkout → Prop} (invariant : Invariant image kept)
    (here : kept checkout) (events : List Event) : kept (checkout.meetAll events) := by
  induction events generalizing checkout with
  | nil => exact here
  | cons event events ih => exact ih (invariant.meet here event)

/-- A new stream stands at the beginning. -/
theorem within_start (image : Image) (shared : Shared) : Within image { image, shared } where
  here := rfl
  raw := Nat.zero_le _
  entry := by
    intro entry never
    cases never

/-- Wherever a stream gets to, its position is none past its size, what is available is exactly the rest,
and each further read takes what it hands out from there or leaves the stream where it is. -/
theorem position_within (image : Image) (shared : Shared) (events : List Event) :
    let checkout := meetAll { image, shared } events
    checkout.position ≤ checkout.size ∧
      checkout.position + checkout.available = checkout.size ∧
      (checkout.isExhausted = true ↔ checkout.position = checkout.size) ∧
      ∀ count, checkout.Advances count (checkout.read count) := by
  have within := (invariant_within image).meetAll (within_start image shared) events
  generalize meetAll { image, shared } events = checkout at within
  have inside := within.position_le_size
  refine ⟨inside, ?_, ?_, fun count => (read_advances within count).1⟩
  · rw [available]
    omega
  · rw [isExhausted, available, beq_iff_eq]
    omega

end Checkout
end RetroMedia
