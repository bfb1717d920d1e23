import RetroMedia.Proofs.HardDisk.Trail
import RetroMedia.Proofs.Image.Entries
import RetroMedia.Proofs.Image.Request
import RetroMedia.Proofs.Image.Seeking
import RetroMedia.Proofs.Vfs.Plain

/-! Incomplete entries. A hard disk lists what it cannot read: subdirectories, files behind trees of
pointers, and files whose pointer leads nowhere. Main statement: to open such an entry, to descend
into it and to read from it fails as partial; but to read an empty one yields its end. -/
namespace RetroMedia

namespace HardDisk.Volume

variable {volume : Volume} {index : Nat} {slot : Bytes}

/-- An entry is incomplete just where its slot cannot be resolved, and then has the stored size. -/
theorem incomplete_readSlot (stuck : (volume.readSlot index slot).incomplete = true) :
    volume.Unresolvable slot ∧ (volume.readSlot index slot).size = slot.le32 0x08 := by
  have located := (describes_readSlot volume index slot).data
  have unresolvable := located.incomplete.1 stuck
  exact ⟨unresolvable, (located.stored unresolvable).2⟩

end HardDisk.Volume

/-- An entry that the image lists but cannot open. -/
def Image.Withholds (image : Image) (entry : Entry) : Prop :=
  entry.incomplete = true ∧ image.handler.openEntry entry image.limits = .error .partialEntry

theorem Image.withholds_of_hardDisk {image : Image} {volume : HardDisk.Volume} {entry : Entry}
    (disk : image.handler = .hardDisk volume) (stuck : entry.incomplete = true) :
    image.Withholds entry := by
  refine ⟨stuck, ?_⟩
  rw [disk, Handler.openEntry, HardDisk.Volume.openEntry, if_pos stuck]

namespace File

variable {file : File} {host : Host} {held : HeldImage} {entry : Entry}

theorem reader_of_withheld (node : file.node = .entry held entry)
    (withheld : held.image.Withholds entry) :
    file.reader host = .error (.media .partialEntry) := by
  unfold reader
  rw [node]
  dsimp only
  rw [withheld.2]
  exact ite_self _

theorem container_of_withheld (node : file.node = .entry held entry)
    (withheld : held.image.Withholds entry) :
    file.container host = .error (.media .partialEntry) := by
  unfold container
  rw [reader_of_withheld node withheld, node]
  rfl

variable {store : ImageStore} {alive : ImageId → Bool}

theorem image_of_withheld (node : file.node = .entry held entry)
    (withheld : held.image.Withholds entry) (directory : entry.isDirectory = true)
    (alone : store.broker = none) :
    file.image ⟨host, alive⟩ store = .error (.media .partialEntry) store := by
  cases claimed : file.system? host with
  | none =>
    have reason : file.notContainer = .partialEntry := by
      unfold notContainer entry?
      rw [node]
      simp [directory, withheld.1]
    rw [image_of_none claimed, reason]
  | some system =>
    have failed : file.own host = .error (.media .partialEntry) := by
      unfold own
      rw [claimed, container_of_withheld node withheld]
      rfl
    rw [image_of_some claimed, ImageStore.obtain, ImageStore.lent_of_free alone, failed]

theorem isHostDirectory_of_entry (node : file.node = .entry held entry) :
    file.isHostDirectory host = false := by
  unfold isHostDirectory
  rw [node]

theorem child_of_withheld (node : file.node = .entry held entry)
    (withheld : held.image.Withholds entry) (directory : entry.isDirectory = true)
    (alone : store.broker = none) (name : String) :
    file.child name ⟨host, alive⟩ store = .error (.media .partialEntry) store := by
  rw [child_of_container (isHostDirectory_of_entry node),
    image_of_withheld node withheld directory alone]

theorem next_of_withheld (node : file.node = .entry held entry)
    (withheld : held.image.Withholds entry) (directory : entry.isDirectory = true)
    (alone : store.broker = none) (unlisted : file.listing = none) :
    file.next ⟨host, alive⟩ store = .ok (.error (.media .partialEntry), file) store := by
  unfold next
  rw [unlisted, startListing_of_container (isHostDirectory_of_entry node),
    image_of_withheld node withheld directory alone]
  obtain ⟨registry, url, name, node, listing⟩ := file
  cases unlisted
  rfl

end File

namespace Checkout

variable {image : Image} {checkout : Checkout} {entry : Entry}

/-- While an entry that cannot be opened is selected, the stream has no reader and stands at its
beginning. -/
structure Barren (image : Image) (checkout : Checkout) : Prop where
  here : checkout.image = image
  idle : ∀ entry, checkout.stream.selected = some entry → image.Withholds entry →
    checkout.stream.reader = none ∧ checkout.stream.entryPosition = 0

theorem readerOf_of_barren (barren : checkout.Barren image)
    (chosen : checkout.stream.selected = some entry) (withheld : image.Withholds entry) :
    checkout.readerOf entry = .error .partialEntry := by
  unfold readerOf
  rw [(barren.idle entry chosen withheld).1, barren.here]
  exact withheld.2

theorem read_of_barren (barren : checkout.Barren image)
    (chosen : checkout.stream.selected = some entry) (withheld : image.Withholds entry)
    {count : Nat} (some : 0 < count) :
    checkout.read count
      = if entry.size = 0 then (.ok [], checkout) else (.error .partialEntry, checkout) := by
  have place := (barren.idle entry chosen withheld).2
  unfold read readEntry available size position
  rw [chosen]
  dsimp only
  rw [place, Nat.sub_zero, readerOf_of_barren barren chosen withheld]
  by_cases empty : entry.size = 0
  · rw [if_pos empty, if_pos (by omega)]
  · rw [if_neg empty, if_neg (by omega)]

theorem skipTo_of_barren (barren : checkout.Barren image)
    (chosen : checkout.stream.selected = some entry) (withheld : image.Withholds entry)
    (target : Nat) : (checkout.skipTo entry target).2 = checkout := by
  have place := (barren.idle entry chosen withheld).2
  unfold skipTo
  rw [readerOf_of_barren barren chosen withheld, place]
  dsimp only
  split
  · rename_i idle
    have here : target = checkout.stream.entryPosition := by omega
    rw [here]
    rfl
  · rfl

/-- To seek in an entry that cannot be opened goes nowhere. -/
theorem seek_of_barren (barren : checkout.Barren image)
    (chosen : checkout.stream.selected = some entry) (withheld : image.Withholds entry)
    (target : Seek) : (checkout.seek target).2 = checkout := by
  have place := (barren.idle entry chosen withheld).2
  unfold seek
  split
  · rfl
  · rename_i goal _
    have skipped := skipTo_of_barren barren chosen withheld goal
    rw [chosen]
    dsimp only
    unfold seekInEntry
    rw [if_neg (by omega)]
    split <;> rename_i step <;> rw [step] at skipped <;> exact skipped

/-- Whatever is done with a stream, it gets nothing out of an entry that cannot be opened. -/
theorem invariant_barren (image : Image) : Invariant image (Barren image) where
  here barren := barren.here
  share barren _ := ⟨barren.here, barren.idle⟩
  choose barren _ := ⟨barren.here, fun _ _ _ => ⟨rfl, rfl⟩⟩
  walk barren _ := ⟨barren.here, barren.idle⟩
  move barren _ _ := ⟨barren.here, barren.idle⟩
  seek := by
    intro checkout barren target
    obtain ⟨same, _, selected⟩ := checkout.seek_sameChoice target
    refine ⟨same.trans barren.here, fun entry chosen withheld => ?_⟩
    have chosen' := selected.symm.trans chosen
    rw [seek_of_barren barren chosen' withheld]
    exact barren.idle entry chosen' withheld
  read := by
    intro checkout barren count
    obtain ⟨same, _, selected⟩ := checkout.read_sameChoice count
    refine ⟨same.trans barren.here, fun entry chosen withheld => ?_⟩
    have chosen' := selected.symm.trans chosen
    have still : (checkout.read count).2 = checkout := by
      rcases Nat.eq_zero_or_pos count with rfl | some
      · unfold read readEntry
        rw [chosen']
        simp
      · rw [read_of_barren barren chosen' withheld some]
        split <;> rfl
    rw [still]
    exact barren.idle entry chosen' withheld

theorem barren_start (image : Image) (shared : Shared) : Barren image { image, shared } :=
  ⟨rfl, fun _ never => by cases never⟩

theorem meetAll_seekIndex {index : Nat} {after : Checkout}
    (found : seekIndex index checkout = .ok entry after) :
    checkout.meetAll [.inquiry (.request (.seekIndex index))] = after := by
  change (answered .entry (seekIndex index checkout)).2 = _
  rw [found]
  rfl

/-- A path through a subdirectory that cannot be read leads nowhere. -/
theorem seekPath_of_withheld {path name inner : String} {rest : List String} {after : Checkout}
    (names : pathNames path = name :: inner :: rest)
    (found : seekEntry name checkout = .ok entry after) (directory : entry.isDirectory = true)
    (stuck : entry.incomplete = true) :
    ∃ after, seekPath path checkout = .error .partialEntry after := by
  have split : seekPath path checkout = EStateM.bind (seekEntry name) (fun entry => do
      clearEntry
      if entry.isDirectory && entry.incomplete then throw .partialEntry
      else if entry.isDirectory then throw .notFound
      else throw .notADirectory) checkout := by
    unfold seekPath
    rw [names]
    rfl
  rw [split, EStateM.bind, found]
  simp only [directory, stuck, Bool.and_self, if_true]
  exact ⟨_, rfl⟩

end Checkout

/-- What the directory of a hard disk says of an entry is read off a slot. -/
theorem Image.exists_slot {image : Image} {volume : HardDisk.Volume} {signals : Signals}
    {table : List Entry} {entry : Entry} (disk : image.handler = .hardDisk volume)
    (listed : (image.entries { signals }).1 = .ok table) (member : entry ∈ table) :
    ∃ index slot, entry = volume.readSlot index slot := by
  have always : Signals.Lasting fun _ => True := fun _ _ _ _ => trivial
  have yields := HardDisk.Volume.yields_entries always volume image.limits
    (image.entryCounter signals) ⟨rfl, trivial⟩
  unfold Image.entries at listed
  rw [disk, Handler.entries] at listed
  dsimp only at listed
  split at listed <;> rename_i step <;> rw [step] at yields
  · cases listed
    exact yields.2 entry member
  · cases listed

/-! A disk with one subdirectory of a given stored size. -/

def subdirectorySlot (size : UInt8) : Bytes :=
  (HardDisk.slotOf "SUB" size [] 0xA5).takeD HardDisk.slotSize 0

def subdirectoryDisk (size : UInt8) : List Bytes :=
  [HardDisk.directoryOf [subdirectorySlot size] []]

def subdirectoryVolume (size : UInt8) : HardDisk.Volume :=
  HardDisk.volumeOf (subdirectoryDisk size)

def subdirectoryImage (size : UInt8) : Image := ⟨"", .hardDisk (subdirectoryVolume size), {}⟩

def subdirectory (size : UInt8) : Entry := (subdirectoryVolume size).readSlot 1 (subdirectorySlot size)

theorem open_subdirectoryDisk (size : UInt8) :
    Image.open "" (HardDisk.diskOf (subdirectoryDisk size)) (some .dfi) {}
      = .ok (subdirectoryImage size) := by
  rw [Image.open, Handler.open, Handler.openAs, HardDisk.Volume.open_diskOf]
  rfl

/-- The stored sizes that the disk is looked at for. -/
theorem slotsOn_subdirectoryVolume {size : UInt8} (known : size = 0 ∨ size = 3) :
    (subdirectoryVolume size).slotsOn [2] = [subdirectorySlot size] ∧
      ((subdirectoryVolume size).link 2).isNull = true := by
  have here : (HardDisk.sectorsOf (subdirectoryDisk size))[2]?
      = some (HardDisk.directoryOf [subdirectorySlot size] []) := rfl
  unfold subdirectoryVolume
  rw [HardDisk.Volume.slotsOn, List.flatMap_singleton, HardDisk.Volume.usedSlots_volumeOf here,
    HardDisk.Volume.link_volumeOf here]
  rcases known with rfl | rfl <;> decide +kernel

theorem entries_subdirectoryImage {size : UInt8} (known : size = 0 ∨ size = 3) :
    ∃ after, (subdirectoryImage size).handler.entries ((subdirectoryImage size).entryCounter {})
      = .ok [subdirectory size] after := by
  obtain ⟨slots, closed⟩ := slotsOn_subdirectoryVolume known
  have trail : (subdirectoryVolume size).Trail 10000 [2] := by
    refine ⟨⟨rfl, .singleton _, by decide, ?_⟩, by decide, ?_⟩
    · intro lba member
      cases List.mem_singleton.1 member
      exact HardDisk.Volume.inside_volumeOf rfl
    · rintro _ ⟨⟩
      exact closed
  obtain ⟨after, listed⟩ := @HardDisk.Volume.entries_of_trail (subdirectoryVolume size) [2]
    ((subdirectoryImage size).entryCounter {}) Signals.calm_quiet trail (by rw [slots]; rfl)
  rw [slots] at listed
  exact ⟨after, listed⟩

/-- The disk's subdirectory is selected by its number. -/
theorem selected_subdirectory {size : UInt8} (known : size = 0 ∨ size = 3) :
    (Checkout.meetAll { image := subdirectoryImage size }
      [.inquiry (.request (.seekIndex 1))]).stream.selected = some (subdirectory size) := by
  obtain ⟨after, listed⟩ := entries_subdirectoryImage known
  have found := Checkout.seekIndex_of_listed
    (@Checkout.entries_of_listed { image := subdirectoryImage size } _ _ rfl listed)
    (show [subdirectory size][0]? = _ from rfl)
  rw [Checkout.meetAll_seekIndex found]

/-- Whatever a hard disk lists as incomplete comes from a slot that cannot be resolved. To open it, to
take its content, to take a subdirectory as an image, to look for names in it, to list it and to go on
a path through it fails as partial. A read from it fails so and changes nothing, unless the slot
stores no size: then it yields no bytes. -/
theorem incomplete_refused_iff {image : Image} {volume : HardDisk.Volume} {signals : Signals}
    {table : List Entry} {entry : Entry} (disk : image.handler = .hardDisk volume)
    (listed : (image.entries { signals }).1 = .ok table) (member : entry ∈ table)
    (stuck : entry.incomplete = true) :
    ∃ index slot, entry = volume.readSlot index slot ∧ volume.Unresolvable slot ∧
      entry.size = slot.le32 0x08 ∧
      (∀ (file : File) (id : ImageId) (host : Host), file.node = .entry ⟨id, image⟩ entry →
        file.reader host = .error (.media .partialEntry) ∧
        file.container host = .error (.media .partialEntry) ∧
        (entry.isDirectory = true → ∀ (store : ImageStore) (alive : ImageId → Bool),
          store.broker = none →
          file.image ⟨host, alive⟩ store = .error (.media .partialEntry) store ∧
          (∀ name, file.child name ⟨host, alive⟩ store
            = .error (.media .partialEntry) store) ∧
          (file.listing = none →
            file.next ⟨host, alive⟩ store = .ok (.error (.media .partialEntry), file) store))) ∧
      ∀ shared events,
        let checkout := Checkout.meetAll { image, shared } events
        (checkout.stream.selected = some entry → ∀ count, 0 < count →
          (checkout.read count = (.error .partialEntry, checkout) ↔ slot.le32 0x08 ≠ 0)) ∧
        (entry.isDirectory = true → ∀ path name inner rest after,
          Checkout.pathNames path = name :: inner :: rest →
          Checkout.seekEntry name checkout = .ok entry after →
          ∃ after, Checkout.seekPath path checkout = .error .partialEntry after) := by
  obtain ⟨index, slot, same⟩ := Image.exists_slot disk listed member
  have withheld := Image.withholds_of_hardDisk disk stuck
  obtain ⟨stuck', size⟩ := HardDisk.Volume.incomplete_readSlot (same ▸ stuck)
  rw [← same] at size
  refine ⟨index, slot, same, stuck', size, ?_, ?_⟩
  · intro file id host node
    refine ⟨File.reader_of_withheld node withheld, File.container_of_withheld node withheld, ?_⟩
    intro directory store alive alone
    exact ⟨File.image_of_withheld node withheld directory alone,
      File.child_of_withheld node withheld directory alone,
      File.next_of_withheld node withheld directory alone⟩
  · intro shared events
    have barren := (Checkout.invariant_barren image).meetAll (Checkout.barren_start image shared) events
    refine ⟨?_, ?_⟩
    · intro chosen count some
      rw [Checkout.read_of_barren barren chosen withheld some, size]
      by_cases empty : slot.le32 0x08 = 0
      · simp [empty]
      · simp [empty]
    · intro directory path name inner rest after names found
      exact Checkout.seekPath_of_withheld names found directory stuck

/-- A subdirectory that stores a size is refused by each read. -/
theorem incomplete_refused_iff_of_subdirectory :
    (subdirectory 3).incomplete = true ∧
    let checkout := Checkout.meetAll { image := subdirectoryImage 3 }
      [.inquiry (.request (.seekIndex 1))]
    checkout.read 4 = (.error .partialEntry, checkout) := by
  have stuck : (subdirectory 3).incomplete = true := rfl
  have known : (3 : UInt8) = 0 ∨ (3 : UInt8) = 3 := .inr rfl
  obtain ⟨after, step⟩ := entries_subdirectoryImage known
  have listed : ((subdirectoryImage 3).entries { signals := {} }).1 = .ok [subdirectory 3] :=
    congrArg Prod.fst (Image.entries_of_ok step)
  obtain ⟨_, slot, _, _, size, _, reads⟩ :=
    incomplete_refused_iff rfl listed (List.mem_singleton.2 rfl) stuck
  have stored : slot.le32 0x08 = 3 := size.symm.trans rfl
  have chosen := selected_subdirectory known
  exact ⟨stuck, ((reads _ _).1 chosen 4 (by decide)).2 (by omega)⟩

/-- A subdirectory that stores no size is read as if it were an empty file. -/
theorem empty_subdirectory_reads_as_file :
    ∃ image table shared entry events,
      Image.open "" (HardDisk.diskOf (subdirectoryDisk 0)) (some .dfi) {} = .ok image ∧
      image.entries {} = (.ok table, shared) ∧ entry ∈ table ∧ entry.incomplete = true ∧
      (Checkout.meetAll { image } events).stream.selected = some entry ∧
      ((Checkout.meetAll { image } events).read 4).1 = .ok [] := by
  have known : (0 : UInt8) = 0 ∨ (0 : UInt8) = 3 := .inl rfl
  obtain ⟨after, listed⟩ := entries_subdirectoryImage known
  have chosen := selected_subdirectory known
  have barren := (Checkout.invariant_barren _).meetAll
    (Checkout.barren_start (subdirectoryImage 0) {}) [.inquiry (.request (.seekIndex 1))]
  refine ⟨_, _, _, subdirectory 0, _, open_subdirectoryDisk 0, Image.entries_of_ok listed,
    List.mem_singleton.2 rfl, rfl, chosen, ?_⟩
  rw [Checkout.read_of_barren barren chosen (Image.withholds_of_hardDisk rfl rfl) (by decide)]
  rfl

end RetroMedia
