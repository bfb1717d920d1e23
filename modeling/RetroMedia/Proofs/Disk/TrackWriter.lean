import RetroMedia.Proofs.Disk.SectorImage

/-! Writing track images. Every list of tracks has a track image, from which reading gets each track
back and nothing beyond them. -/
namespace RetroMedia.Disk.TrackImage

/-- A 32-bit word with its least significant byte first. -/
def word32 (value : Nat) : Bytes :=
  [Bytes.low value, Bytes.low (value / 256), Bytes.low (value / 65536), Bytes.low (value / 16777216)]

theorem le32_word32 {value : Nat} (small : value < 4294967296) :
    Bytes.le32 (word32 value) 0 = value := by
  simp [Bytes.le32, word32, Bytes.byte, Bytes.littleEndian, Bytes.low]
  omega

theorem le16_ofWord16 {value : Nat} (small : value < 65536) :
    Bytes.le16 (Bytes.ofWord16 value) 0 = value := by
  simp [Bytes.le16, Bytes.ofWord16, Bytes.byte, Bytes.littleEndian, Bytes.low]
  omega

/-- A track as it is stored: its length and its bytes. -/
def stored (track : Bytes) : Bytes := Bytes.ofWord16 track.length ++ track

/-- Where the stored tracks begin, the first of them at `start`. -/
def offsetsFrom : Nat → List Bytes → List Nat
  | _, [] => []
  | start, track :: tracks => start :: offsetsFrom (start + (stored track).length) tracks

/-- The table of half tracks; only whole tracks are present. -/
def tableOf (offsets : List Nat) : Bytes := offsets.flatMap fun offset => word32 offset ++ word32 0

/-- What stands before the table of so many tracks. -/
def headerOf (tracks : Nat) : Bytes :=
  signature ++ [0, Bytes.low (2 * tracks)] ++ Bytes.ofWord16 7928

/-- An image of some tracks. -/
def write (tracks : List Bytes) : Container :=
  .ofBytes (headerOf tracks.length ++ (tableOf (offsetsFrom (tableOffset + 8 * tracks.length) tracks)
    ++ tracks.flatMap stored))

/-- Where the tracks of such an image stand. -/
def placesOf (tracks : List Bytes) : List Nat :=
  offsetsFrom (tableOffset + 8 * tracks.length) tracks

theorem length_offsetsFrom (start : Nat) (tracks : List Bytes) :
    (offsetsFrom start tracks).length = tracks.length := by
  induction tracks generalizing start with
  | nil => rfl
  | cons track tracks ih => simp [offsetsFrom, ih]

theorem length_tableOf (offsets : List Nat) : (tableOf offsets).length = offsets.length * 2 * 4 := by
  induction offsets with
  | nil => rfl
  | cons offset offsets ih =>
    rw [tableOf, List.flatMap_cons, List.length_append, ← tableOf, ih]
    simp [word32]
    omega

/-- The table reads back as it was written. -/
theorem records_tableOf {offsets : List Nat} (small : ∀ offset ∈ offsets, offset < 4294967296) :
    (Bytes.records (tableOf offsets) 4).map (Bytes.le32 · 0)
      = offsets.flatMap fun offset => [offset, 0] := by
  rw [Bytes.records, length_tableOf, Nat.mul_div_cancel _ (by decide)]
  induction offsets with
  | nil => rfl
  | cons offset offsets ih =>
    have rest := ih fun other member => small other (List.mem_cons_of_mem _ member)
    have count : (offset :: offsets).length * 2 = offsets.length * 2 + 2 := by
      rw [List.length_cons]
      omega
    have first := le32_word32 (small offset List.mem_cons_self)
    rw [count, tableOf, List.flatMap_cons, ← tableOf, List.flatMap_cons, ← rest]
    simp only [word32] at first
    simp [Bytes.chunks, word32, first]
    rfl

/-- The place of a track in the image, and its entry in the table. -/
theorem split_of_track {tracks : List Bytes} {index : Nat} {track : Bytes}
    (here : tracks[index]? = some track) (start : Nat) :
    ∃ before after, tracks.flatMap stored = before ++ (stored track ++ after) ∧
      (offsetsFrom start tracks)[index]? = some (start + before.length) := by
  induction tracks generalizing index start with
  | nil => cases here
  | cons first tracks ih =>
    cases index with
    | zero =>
      cases here
      exact ⟨[], tracks.flatMap stored, rfl, rfl⟩
    | succ index =>
      obtain ⟨before, after, split, place⟩ := ih here (start + (stored first).length)
      refine ⟨stored first ++ before, after, ?_, ?_⟩
      · rw [List.flatMap_cons, split, List.append_assoc]
      · rw [offsetsFrom, List.getElem?_cons_succ, place, List.length_append, Nat.add_assoc]

theorem offsetsFrom_lt {start bound : Nat} {tracks : List Bytes}
    (fits : start + (tracks.flatMap stored).length < bound) :
    ∀ offset ∈ offsetsFrom start tracks, offset < bound := by
  induction tracks generalizing start with
  | nil =>
    intro offset member
    cases member
  | cons track tracks ih =>
    rw [List.flatMap_cons, List.length_append] at fits
    intro offset member
    rcases List.mem_cons.1 member with rfl | later
    · omega
    · exact ih (by omega) offset later

theorem getElem?_halfTracks (offsets : List Nat) (index : Nat) :
    (offsets.flatMap fun offset => [offset, 0])[index * 2]? = offsets[index]? := by
  induction offsets generalizing index with
  | nil => rfl
  | cons offset offsets ih =>
    cases index with
    | zero => rfl
    | succ index =>
      rw [Nat.succ_mul]
      exact ih index

theorem length_flatMap_stored_le {tracks : List Bytes}
    (short : ∀ track ∈ tracks, track.length < 65536) :
    (tracks.flatMap stored).length ≤ tracks.length * 65537 := by
  induction tracks with
  | nil => exact Nat.zero_le _
  | cons track tracks ih =>
    have rest := ih fun other member => short other (List.mem_cons_of_mem _ member)
    have here := short track List.mem_cons_self
    rw [List.flatMap_cons, List.length_append, List.length_cons, stored, List.length_append]
    simp only [Bytes.ofWord16, List.length_cons, List.length_nil]
    omega

section Parts

variable (tracks : List Bytes)

theorem toBytes_write : (write tracks).toBytes
    = headerOf tracks.length ++ (tableOf (placesOf tracks) ++ tracks.flatMap stored) := rfl

theorem length_placesOf : (placesOf tracks).length = tracks.length := length_offsetsFrom _ _

theorem slice_header : (write tracks).slice 0 tableOffset = .ok (headerOf tracks.length) :=
  @Container.slice_of_split _ [] (headerOf tracks.length) _ (toBytes_write tracks)

theorem slice_table :
    (write tracks).slice tableOffset (2 * tracks.length * 4) = .ok (tableOf (placesOf tracks)) := by
  have size : (headerOf tracks.length).length = tableOffset := rfl
  have read := Container.slice_of_split (toBytes_write tracks)
  rwa [length_tableOf, length_placesOf, Nat.mul_comm tracks.length 2, size] at read

variable {tracks} {track before after : Bytes}
  (split : tracks.flatMap stored = before ++ (stored track ++ after))
include split

/-- The length of a track stands at its place, and its bytes behind that. -/
theorem slice_track :
    (write tracks).slice (tableOffset + 8 * tracks.length + before.length) 2
        = .ok (Bytes.ofWord16 track.length) ∧
      (write tracks).slice (tableOffset + 8 * tracks.length + before.length + 2) track.length
        = .ok track := by
  have size : (headerOf tracks.length).length = tableOffset := rfl
  have front : (headerOf tracks.length ++ (tableOf (placesOf tracks) ++ before)).length
      = tableOffset + 8 * tracks.length + before.length := by
    rw [List.length_append, List.length_append, size, length_tableOf, length_placesOf]
    omega
  constructor
  · have read := @Container.slice_of_split (write tracks)
      (headerOf tracks.length ++ (tableOf (placesOf tracks) ++ before))
      (Bytes.ofWord16 track.length) (track ++ after) (by
        rw [toBytes_write, split, stored]
        simp only [List.append_assoc])
    rwa [front] at read
  · have read := @Container.slice_of_split (write tracks)
      (headerOf tracks.length ++ (tableOf (placesOf tracks) ++ before) ++ Bytes.ofWord16 track.length)
      track after (by
        rw [toBytes_write, split, stored]
        simp only [List.append_assoc])
    rw [List.length_append, front] at read
    exact read

end Parts

theorem placesOf_lt {tracks : List Bytes} (few : tracks.length < 128)
    (short : ∀ track ∈ tracks, track.length < 65536) :
    ∀ offset ∈ placesOf tracks, offset < 4294967296 := by
  apply offsetsFrom_lt
  have room := length_flatMap_stored_le short
  have : tableOffset = 12 := rfl
  omega

/-- Reading an image that was written gets each of its tracks back, and no others. -/
theorem open_write {tracks : List Bytes} (few : tracks.length < 128)
    (short : ∀ track ∈ tracks, track.length < 65536) :
    ∃ image, TrackImage.open (write tracks) = .ok image ∧
      (∀ index track, tracks[index]? = some track → image.trackData (index + 1) = .ok track) ∧
      ∀ index, tracks.length ≤ index → image.trackOffsets.getD (index * 2) 0 = 0 := by
  refine ⟨⟨write tracks, ((placesOf tracks).flatMap fun offset => [offset, 0]).toArray, 7928⟩,
    ?_, ?_, ?_⟩
  · have mark : (headerOf tracks.length).field 0 signature.length = signature := rfl
    have count : ((headerOf tracks.length).byte 0x09).toNat = 2 * tracks.length := by
      change (Bytes.low (2 * tracks.length)).toNat = _
      simp [Bytes.low]
      omega
    have most : (headerOf tracks.length).le16 0x0A = 7928 := rfl
    unfold TrackImage.open
    rw [slice_header]
    simp only [bind, Except.bind, mark, count, slice_table, records_tableOf (placesOf_lt few short),
      most]
    rfl
  · intro index track here
    obtain ⟨before, after, split, place⟩ := split_of_track here (tableOffset + 8 * tracks.length)
    obtain ⟨sizes, data⟩ := slice_track split
    have length := short track (List.mem_of_getElem? here)
    have offset : ((placesOf tracks).flatMap fun offset => [offset, 0]).toArray.getD
        ((index + 1 - 1) * 2) 0 = tableOffset + 8 * tracks.length + before.length := by
      rw [Nat.add_sub_cancel, Array.getD_eq_getD_getElem?, List.getElem?_toArray,
        getElem?_halfTracks, placesOf, place]
      rfl
    unfold TrackImage.trackData
    rw [if_neg (Nat.succ_ne_zero index)]
    dsimp only
    rw [offset, if_neg (by have : tableOffset = 12 := rfl; omega), sizes]
    dsimp only [bind, Except.bind]
    rw [le16_ofWord16 length, data]
  · intro index beyond
    have none : (placesOf tracks)[index]? = none :=
      List.getElem?_eq_none ((length_placesOf tracks).symm ▸ beyond)
    rw [Array.getD_eq_getD_getElem?, List.getElem?_toArray, getElem?_halfTracks, none]
    rfl

end RetroMedia.Disk.TrackImage
