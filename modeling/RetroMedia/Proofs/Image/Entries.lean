import RetroMedia.Handler
import RetroMedia.Proofs.Disk.Survey
import RetroMedia.Proofs.HardDisk.Directory
import RetroMedia.Proofs.Progress.Yield
import RetroMedia.Proofs.Stream.Steady

/-! The entries of a directory and what reading them yields. Whatever the format, the reader of an
entry that can be read has exactly as many bytes before it as the directory says. -/
namespace RetroMedia

open Disk (ChainReader ChainWalk courseSize)

/-- A reader of exactly so many bytes, with no failure behind them. -/
def Reader.Fills (reader : Reader) (size : Nat) : Prop :=
  ∃ bytes, reader.Faces ⟨bytes, none⟩ ∧ bytes.length = size

namespace Reader

theorem fills_range {head : Bytes} {data : RangeReader} {size : Nat}
    (inside : data.remaining ≤ data.container.size - data.offset)
    (whole : head.length + data.remaining = size) : (range head data).Fills size := by
  refine ⟨head ++ data.container.readAt data.offset data.remaining, ⟨trivial, trivial, ?_⟩, ?_⟩
  · intro signals _
    simp only [outlook, Outlook.behind, RangeReader.outlook, if_pos inside]
  · rw [List.length_append, Container.length_readAt, Nat.min_eq_left inside]
    exact whole

/-- A load address is two bytes ahead of the data. -/
theorem fills_withLoadAddress {container : Container} {entry : Entry}
    (room : entry.addressSize ≤ entry.size)
    (inside : entry.size - entry.addressSize ≤ container.size - entry.offset) :
    (withLoadAddress entry.loadAddress
      ⟨container, entry.offset, entry.size - entry.addressSize⟩).Fills entry.size := by
  apply fills_range inside
  refine Eq.trans ?_ (Nat.add_sub_cancel' room)
  congr 1
  unfold Entry.addressSize
  cases entry.loadAddress <;> rfl

theorem fills_memory (bytes : Bytes) : (memory bytes).Fills bytes.length :=
  ⟨bytes, ⟨trivial, trivial, fun _ _ => rfl⟩, rfl⟩

theorem fills_chain {source : Disk.SectorSource} (honest : source.Honest)
    {location : Disk.Location} {limits : Limits} {size : Nat}
    (whole : courseSize (ChainWalk.start source location limits) = .ok size) :
    (chain (ChainReader.start source location limits)).Fills size := by
  have ahead (signals : Signals) := @ChainReader.outlook_start _ signals honest location limits
  unfold courseSize at whole
  rcases course : (ChainWalk.start source location limits).course with ⟨sectors, _ | error⟩
  · rw [course] at whole ahead
    cases whole
    exact ⟨_, ⟨ChainReader.sound_start _ _ _, honest, ahead⟩, Disk.length_payload sectors⟩
  · rw [course] at whole
    cases whole

end Reader

variable {kept : Progress → Prop}

namespace Tape

theorem dataSize_le (start finish available : Nat) : dataSize start finish available ≤ available := by
  unfold dataSize
  split <;> omega

theorem yields_listRecords (steady : Walk.Steady kept) (tape : Tape) (count slot index : Nat) :
    Walk.Yields kept (tape.listRecords count slot index)
      fun table => ∀ entry ∈ table, ∃ index record, entry = tape.readRecord index record := by
  induction count generalizing slot index with
  | zero => exact Walk.yields_nil
  | succ count ih =>
    unfold listRecords
    split
    · exact Walk.yields_nil
    · split
      · exact ih (slot + 1) index
      · apply steady.bind
        intro _ _
        exact Walk.yields_cons ⟨_, _, rfl⟩ (ih (slot + 1) (index + 1))

theorem fills_openEntry (tape : Tape) (index : Nat) (record : Bytes) :
    (tape.openEntry (tape.readRecord index record)).Fills (tape.readRecord index record).size := by
  have inside := dataSize_le (record.le16 0x02) (record.le16 0x04)
    (tape.container.size - record.le32 0x08)
  exact Reader.fills_withLoadAddress (Nat.le_add_left _ _) inside

end Tape

namespace Cartridge

theorem yields_listRecords (steady : Walk.Steady kept) (cartridge : Cartridge)
    (count slot index : Nat) :
    Walk.Yields kept (cartridge.listRecords count slot index)
      fun table => ∀ entry ∈ table, ∃ index record, entry = cartridge.readRecord index record := by
  induction count generalizing slot index with
  | zero => exact Walk.yields_nil
  | succ count ih =>
    unfold listRecords
    split
    · exact Walk.yields_nil
    · split
      · exact Walk.yields_nil
      · split
        · exact ih (slot + 1) index
        · apply steady.bind
          intro _ _
          exact Walk.yields_cons ⟨_, _, rfl⟩ (ih (slot + 1) (index + 1))

theorem fills_openEntry (cartridge : Cartridge) (index : Nat) (record : Bytes) :
    (cartridge.openEntry (cartridge.readRecord index record)).Fills
      (cartridge.readRecord index record).size := by
  have inside : cartridge.container.clamp (flashOffset + record.le16 0x11 * pageSize)
      (record.le24 0x13) ≤ cartridge.container.size - (flashOffset + record.le16 0x11 * pageSize) :=
    Nat.min_le_right _ _
  have left : (cartridge.readRecord index record).size
        - (cartridge.readRecord index record).addressSize
      = cartridge.container.clamp (flashOffset + record.le16 0x11 * pageSize) (record.le24 0x13) :=
    Nat.add_sub_cancel _ _
  apply Reader.fills_withLoadAddress
  · exact Nat.le_add_left _ _
  · rw [left]
    exact inside

end Cartridge

namespace Lynx.Archive

theorem yields_listRecords (steady : Walk.Steady kept) (archive : Archive)
    (count index offset : Nat) (cursor : Cursor) :
    Walk.Yields kept (archive.listRecords count index offset cursor)
      fun table => ∀ entry ∈ table,
        ∃ index offset record stored, entry = archive.entryOf index offset record stored := by
  induction count generalizing index offset cursor with
  | zero => exact Walk.yields_nil
  | succ count ih =>
    unfold listRecords
    apply steady.bind
    intro _ _
    split
    · exact Walk.yields_throw _
    · split
      · exact Walk.yields_throw _
      · split
        · exact Walk.yields_throw _
        · exact Walk.yields_cons ⟨_, _, _, _, rfl⟩ (ih (index + 1) _ _)

theorem yields_entries (steady : Walk.Steady kept) (archive : Archive) :
    Walk.Yields kept archive.entries fun table => ∀ entry ∈ table,
      ∃ index offset record stored, entry = archive.entryOf index offset record stored := by
  unfold entries
  apply Walk.yields_get
  intro progress _
  dsimp only
  split
  · apply Walk.Yields.bind (Walk.yields_throw _)
    intro _ (_ : True)
    exact yields_listRecords steady archive _ _ _ _
  · exact yields_listRecords steady archive _ _ _ _

theorem fills_openEntry (archive : Archive) (index offset : Nat) (record : Record) (stored : Nat) :
    (archive.openEntry (archive.entryOf index offset record stored)).Fills
      (archive.entryOf index offset record stored).size := by
  have inside : archive.container.clamp offset stored ≤ archive.container.size - offset :=
    Nat.min_le_right _ _
  exact Reader.fills_range inside (Nat.zero_add _)

end Lynx.Archive

namespace HardDisk.Volume

/-- Data that could be resolved lies in the container. -/
theorem resolveData_le (volume : Volume) (attributes : UInt8) (pointer : Pointer) (stored : Nat)
    (resolved : (volume.resolveData attributes pointer stored).2.2 = false) :
    (volume.resolveData attributes pointer stored).2.1
      ≤ volume.container.size - (volume.resolveData attributes pointer stored).1 := by
  unfold resolveData at resolved ⊢
  split
  · rename_i tree
    rw [if_pos tree] at resolved
    cases resolved
  · rename_i flat
    rw [if_neg flat] at resolved
    split
    · exact Nat.zero_le _
    · rename_i some
      rw [if_neg some] at resolved
      split at resolved
      · exact Nat.min_le_right _ _
      · cases resolved

theorem yields_listSlots (steady : Walk.Steady kept) (volume : Volume) (index : Nat)
    (slots : List Bytes) :
    Walk.Yields kept (volume.listSlots index slots)
      fun table => ∀ entry ∈ table, ∃ index slot, entry = volume.readSlot index slot := by
  induction slots generalizing index with
  | nil => exact Walk.yields_nil
  | cons slot rest ih =>
    unfold listSlots
    split
    · exact ih index
    · apply steady.bind
      intro _ _
      exact Walk.yields_cons ⟨_, _, rfl⟩ (ih (index + 1))

private theorem yields_listSector (steady : Walk.Steady kept) (volume : Volume) (limit lba : Nat)
    (visited : List Nat) (steps index : Nat)
    (rest : ∀ next index, Walk.Yields kept
      (volume.listSectors limit next (lba :: visited) steps index)
      fun table => ∀ entry ∈ table, ∃ index slot, entry = volume.readSlot index slot) :
    Walk.Yields kept (volume.listSector limit lba visited steps index)
      fun table => ∀ entry ∈ table, ∃ index slot, entry = volume.readSlot index slot := by
  unfold listSector
  split
  · exact Walk.yields_throw _
  · apply (yields_listSlots steady volume index _).bind
    intro here listed
    dsimp only
    split
    · exact Walk.yields_pure listed
    · split
      · exact Walk.yields_throw _
      · apply (rest _ _).bind
        intro more later
        apply Walk.yields_pure
        intro entry member
        rcases List.mem_append.1 member with early | late
        · exact listed entry early
        · exact later entry late

/-- What is kept of a counter must not depend on its count. -/
theorem yields_listSectors (steady : Walk.Steady kept) (volume : Volume) (limit lba : Nat)
    (visited : List Nat) (steps index : Nat)
    (counter : ∀ progress steps, kept progress → kept (chainCounter progress limit steps))
    (signals : ∀ progress after, kept progress → kept after →
      kept { progress with signals := after.signals }) :
    Walk.Yields kept (volume.listSectors limit lba visited steps index)
      fun table => ∀ entry ∈ table, ∃ index slot, entry = volume.readSlot index slot := by
  induction left : limit - steps using Nat.strongRecOn generalizing lba visited steps index with
  | ind remaining ih =>
    intro progress here
    have law := steady (chainCounter progress limit steps) (counter progress steps here)
    rw [listSectors_eq]
    match step : Progress.tick (chainCounter progress limit steps) with
    | .error error after =>
      rw [step] at law
      exact signals progress after here law
    | .ok _ after =>
      rw [step] at law
      obtain ⟨count, within⟩ := @Progress.tick_ok_le _ _ limit rfl step
      have taken : after.count = steps + 1 := count
      have nearer : limit - after.count < remaining := by omega
      have onward := signals progress after here law.1
      dsimp only
      by_cases loop : lba ∈ visited
      · rw [if_pos loop]
        exact onward
      · rw [if_neg loop]
        apply yields_listSector steady volume limit lba visited after.count index _ _ onward
        intro next index
        exact ih _ nearer next (lba :: visited) after.count index rfl

theorem yields_entries {fit : Signals → Prop} (lasting : Signals.Lasting fit) (volume : Volume)
    (limits : Limits) :
    Walk.Yields (Progress.Under limits fit) volume.entries
      fun table => ∀ entry ∈ table, ∃ index slot, entry = volume.readSlot index slot := by
  unfold entries
  apply Walk.yields_get
  intro progress _
  apply yields_listSectors (Walk.steady_under lasting limits)
  · intro _ _ here
    exact here
  · intro _ _ here after
    exact ⟨here.1, after.2⟩

theorem fills_openEntry (volume : Volume) {index : Nat} {slot : Bytes}
    (resolved : (volume.readSlot index slot).incomplete = false) :
    ∃ reader, volume.openEntry (volume.readSlot index slot) = .ok reader ∧
      reader.Fills (volume.readSlot index slot).size := by
  have data := volume.resolveData_le (slot.byte 0x10) (Pointer.ofBytes (slot.drop 0x0C))
    (slot.le32 0x08) resolved
  let found := volume.readSlot index slot
  refine ⟨.range [] ⟨volume.container, found.offset, found.size⟩, ?_, ?_⟩
  · unfold openEntry
    rw [resolved]
    rfl
  · exact Reader.fills_range data (Nat.zero_add _)

end HardDisk.Volume

namespace Document

theorem yields_listMembers (steady : Walk.Steady kept) (position : Nat)
    (before members : List (String × Json)) (here : before.length = position) :
    Walk.Yields kept (listMembers position members) fun table => ∀ entry ∈ table,
      ∃ position member, (before ++ members)[position]? = some member ∧
        entry = entryOf position member := by
  induction members generalizing position before with
  | nil => exact Walk.yields_nil
  | cons member rest ih =>
    unfold listMembers
    apply steady.bind
    intro _ _
    apply Walk.yields_cons
    · refine ⟨position, member, ?_, rfl⟩
      rw [← here, List.getElem?_append_right (Nat.le_refl _), Nat.sub_self]
      rfl
    · have later := ih (position + 1) (before ++ [member]) (by simp [here])
      rw [List.append_assoc] at later
      exact later

theorem fills_openEntry (document : Document) {position : Nat} {member : String × Json}
    (found : document.members[position]? = some member) :
    ∃ reader, document.openEntry (entryOf position member) = .ok reader ∧
      reader.Fills (entryOf position member).size := by
  refine ⟨_, ?_, Reader.fills_memory (contentBytes member.2)⟩
  unfold openEntry value?
  have here : document.members[(entryOf position member).offset]? = some member := found
  rw [here]
  rfl

end Document

namespace Disk.Volume

variable {volume : Volume} {limits : Limits}

/-- The entries of a directory are those of a survey, which tells more of them. -/
theorem survey_of_entries {progress after : Progress} {table : List Entry}
    (listed : volume.entries progress = .ok table after) :
    ∃ surveyed, volume.survey progress = .ok surveyed after ∧ surveyed.map Prod.fst = table := by
  rw [← map_survey, Walk.run_map] at listed
  split at listed
  · rename_i surveyed last step
    cases listed
    exact ⟨surveyed, step, rfl⟩
  · cases listed

/-- An entry whose chain could be walked is read as exactly as many bytes as the walk came to. -/
theorem fills_openEntry (honest : volume.source.Honest) {fit : Signals → Prop} {entry : Entry}
    {size : Nat} (surveyed : volume.Surveyed limits fit (entry, .ok size)) :
    ∃ reader, volume.openEntry entry limits = .ok reader ∧ reader.Fills entry.size := by
  obtain ⟨_, location, signals, place, _, walked, length⟩ := surveyed
  have course := (chainSize_cases honest location limits signals).2 size walked.symm
  have same : entry.size = size := length size rfl
  refine ⟨.chain (ChainReader.start volume.source location limits), ?_, ?_⟩
  · unfold openEntry
    rw [place]
  · rw [same]
    exact Reader.fills_chain honest course

end Disk.Volume

namespace Handler

/-- The sectors of a disk depend on nothing but its image. -/
def Honest : Handler → Prop
  | disk volume => volume.source.Honest
  | _ => True

/-- An entry that can be read: its data is resolved, and its chain, if it has one, can be walked. -/
def Readable (handler : Handler) (limits : Limits) (entry : Entry) : Prop :=
  entry.incomplete = false ∧ ∀ location, entry.location = some location →
    ∃ size, (handler.chainSize location limits .quiet).1 = .ok size

/-- Only disks keep their data in chains. -/
def Unchained : Handler → Prop
  | disk _ => False
  | _ => True

/-- Where there are no chains, every entry whose data is resolved is read as exactly as many bytes as
it announces. -/
theorem fills_of_unchained {handler : Handler} (unchained : handler.Unchained)
    {fit : Signals → Prop} (lasting : Signals.Lasting fit) (limits : Limits) :
    Walk.Yields (Progress.Under limits fit) handler.entries
      fun table => ∀ entry ∈ table, entry.incomplete = false →
        ∃ reader, handler.openEntry entry limits = .ok reader ∧ reader.Fills entry.size := by
  have steady := Walk.steady_under lasting limits
  cases handler with
  | disk volume => cases unchained
  | archive archive =>
    apply (archive.yields_entries steady).mono
    intro table listed entry member _
    obtain ⟨index, offset, record, stored, rfl⟩ := listed entry member
    exact ⟨_, rfl, archive.fills_openEntry index offset record stored⟩
  | tape tape =>
    apply (tape.yields_listRecords steady _ _ _).mono
    intro table listed entry member _
    obtain ⟨index, record, rfl⟩ := listed entry member
    exact ⟨_, rfl, tape.fills_openEntry index record⟩
  | cartridge cartridge =>
    apply (cartridge.yields_listRecords steady _ _ _).mono
    intro table listed entry member _
    obtain ⟨index, record, rfl⟩ := listed entry member
    exact ⟨_, rfl, cartridge.fills_openEntry index record⟩
  | hardDisk volume =>
    apply (volume.yields_entries lasting limits).mono
    intro table listed entry member resolved
    obtain ⟨index, slot, rfl⟩ := listed entry member
    exact volume.fills_openEntry resolved
  | document document =>
    apply (Document.yields_listMembers steady 0 [] document.members rfl).mono
    intro table listed entry member _
    obtain ⟨position, found, here, rfl⟩ := listed entry member
    exact document.fills_openEntry here

/-- An entry that was listed in full: its data is resolved, and on a disk the walk along its chain, by
which it was measured, came to an end. -/
def Resolved (handler : Handler) (progress : Progress) (entry : Entry) : Prop :=
  match handler with
  | disk volume => ∃ surveyed after size, volume.survey progress = .ok surveyed after ∧
      (entry, .ok size) ∈ surveyed
  | _ => entry.incomplete = false

variable {handler : Handler} {progress after : Progress} {table : List Entry} {entry : Entry}

/-- Whatever the flag did meanwhile, every entry that was listed in full is read as exactly as many
bytes as it announces. -/
theorem fills_of_resolved (honest : handler.Honest)
    (listed : handler.entries progress = .ok table after) (member : entry ∈ table)
    (resolved : handler.Resolved progress entry) :
    entry.incomplete = false ∧ ∃ reader,
      handler.openEntry entry progress.limits = .ok reader ∧ reader.Fills entry.size := by
  have lasting : Signals.Lasting fun _ => True := fun _ _ _ _ => trivial
  have unchained (free : handler.Unchained) (complete : entry.incomplete = false) :
      entry.incomplete = false ∧ ∃ reader,
        handler.openEntry entry progress.limits = .ok reader ∧ reader.Fills entry.size := by
    have law := fills_of_unchained free lasting progress.limits progress ⟨rfl, trivial⟩
    rw [listed] at law
    exact ⟨complete, law.2 entry member complete⟩
  cases handler with
  | disk volume =>
    obtain ⟨surveyed, last, size, step, found⟩ := resolved
    have law := Disk.Volume.yields_survey honest lasting progress ⟨rfl, trivial⟩
    rw [step] at law
    have holds := law.2 _ found
    exact ⟨holds.1, Disk.Volume.fills_openEntry honest holds⟩
  | archive | tape | cartridge | hardDisk | document => exact unchained trivial resolved

/-- Where nothing is cancelled, every entry that can be read is listed in full. -/
theorem resolved_of_readable (honest : handler.Honest) (calm : progress.signals.Calm)
    (listed : handler.entries progress = .ok table after) (member : entry ∈ table)
    (readable : handler.Readable progress.limits entry) : handler.Resolved progress entry := by
  cases handler with
  | disk volume =>
    obtain ⟨surveyed, step, same⟩ := Disk.Volume.survey_of_entries listed
    obtain ⟨⟨_, walked⟩, found, rfl⟩ := List.mem_map.1 (same ▸ member)
    have law := Disk.Volume.yields_survey honest Signals.lasting_calm progress ⟨rfl, calm⟩
    rw [step] at law
    obtain ⟨_, location, signals, place, still, same, _⟩ := law.2 _ found
    obtain ⟨size, whole⟩ := readable.2 location place
    obtain ⟨_, _, here⟩ := Disk.chainSize_of_calm honest location progress.limits still
    obtain ⟨_, _, there⟩ :=
      Disk.chainSize_of_calm honest location progress.limits Signals.calm_quiet
    refine ⟨surveyed, after, size, step, ?_⟩
    simp only [chainSize, there] at whole
    dsimp only at same
    rw [here, whole] at same
    exact same ▸ found
  | archive | tape | cartridge | hardDisk | document => exact readable.1

end Handler
end RetroMedia
