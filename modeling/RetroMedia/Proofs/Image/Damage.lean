import RetroMedia.Proofs.Disk.Damage
import RetroMedia.Proofs.Disk.SectorImage
import RetroMedia.Proofs.Image.Sizes

/-! Files whose chain is damaged. Whoever reads such a file itself is told of the failure behind the
last byte that can be read. A stream reads no further than the size of the entry, which counts the
sectors of the directory slot, so it meets the failure only if the readable part is shorter. -/
namespace RetroMedia

open Disk (ChainReader ChainWalk Location chainedSize payload)
open Disk.Volume (slotEntry)

variable {image : Image} {entry : Entry} {error : MediaError} {reader : Reader} {bytes : Bytes}

theorem Outlook.lasting_clip (lasting : error ≠ .cancelled) (bytes : Bytes) (size : Nat) :
    ((Outlook.mk bytes (some error)).clip size).lasting
      = if bytes.length < size then some error else none := by
  unfold clip
  by_cases enough : size ≤ bytes.length
  · rw [if_pos enough, if_neg (Nat.not_lt.2 enough)]
    rfl
  · rw [if_neg enough, if_pos (Nat.lt_of_not_le enough)]
    simp [Outlook.lasting, Option.filter, lasting]

/-- A file that stands for an entry with a failure behind its bytes does not become a container. -/
theorem File.container_of_failure {file : File} {held : HeldImage} (node : file.node = .entry held entry)
    {host : Host} (read : file.reader host = .ok reader)
    (faces : reader.Faces ⟨bytes, some error⟩) (lasting : error ≠ .cancelled) :
    file.container host = .error (.media error) := by
  have drained := (faces.drain Signals.calm_quiet).2
  unfold File.container
  rw [node, read]
  dsimp only [bind, Except.bind]
  rcases step : ByteSource.drain (reader, Signals.quiet) with ⟨found, failure, last⟩
  rw [step] at drained
  dsimp only at drained
  have final : failure = some error := by simp [drained, Outlook.lasting, Option.filter, lasting]
  rw [final]
  rfl

namespace Disk.Volume

variable {volume : Volume} {progress : Progress}

/-- The reader of a damaged chain: what can be read, and then the failure. -/
theorem Damaged.openEntry (honest : volume.source.Honest) (calm : progress.signals.Calm)
    (damaged : volume.Damaged progress entry error) :
    ∃ reader bytes, volume.openEntry entry progress.limits = .ok reader ∧
      reader.Faces ⟨bytes, some error⟩ := by
  obtain ⟨index, slot, sectors, rfl, course⟩ := damaged.course honest calm
  refine ⟨.chain (ChainReader.start volume.source (Location.ofBytes (slot.drop 0x03))
    progress.limits), payload sectors, rfl, ChainReader.sound_start _ _ _, honest, ?_⟩
  intro signals calm'
  rw [Reader.outlook, ChainReader.outlook_start honest _ _ calm', course]

end Disk.Volume

theorem Image.decided_of_open {url : String} {container : Container} {format : Option Format}
    {limits : Limits} (opened : Image.open url container format limits = .ok image)
    {volume : Disk.Volume} (disk : image.handler = .disk volume) : volume.source.Decided := by
  unfold Image.open at opened
  cases found : Handler.open container format with
  | error error =>
    rw [found] at opened
    cases opened
  | ok handler =>
    rw [found] at opened
    cases opened
    cases disk
    obtain ⟨_, same⟩ := Handler.openAs_of_open found
    exact Handler.decided_of_disk same

/-- The entry of a damaged chain is listed with the number of sectors of its slot as its size. Reading a
file that stands for it comes to the failure of the walk behind all that can be read. A stream that
selects it comes to this failure if and only if less than the size can be read; otherwise the stream
ends at the size as if nothing were wrong. -/
theorem damaged_chain_fails_short_of_size {url : String} {container : Container}
    {format : Option Format} {limits : Limits}
    (opened : Image.open url container format limits = .ok image) {volume : Disk.Volume}
    (disk : image.handler = .disk volume) {signals : Signals} (calm : signals.Calm)
    (damaged : volume.Damaged (image.entryCounter signals) entry error) :
    (∃ table, (image.entries { signals }).1 = .ok table ∧ entry ∈ table) ∧
      (∃ index slot, entry = slotEntry index slot) ∧
      ∃ readable : Bytes,
        (∀ (file : File) (held : HeldImage) (host : Host), held.image = image →
          file.node = .entry held entry →
          file.container host = .error (.media error) ∧
            ∃ reader, file.reader host = .ok reader ∧ ∀ later : Signals, later.Calm →
              (ByteSource.drain (reader, later)).1 = readable ∧
                (ByteSource.drain (reader, later)).2.1 = some error) ∧
        ∀ checkout : Checkout, checkout.image = image → checkout.shared.signals.Calm →
          ∃ chosen, Checkout.select entry checkout = .ok () chosen ∧ chosen.size = entry.size ∧
            (ByteSource.drain chosen).1 = readable.take entry.size ∧
            (ByteSource.drain chosen).2.1
              = if readable.length < entry.size then some error else none := by
  have honest : volume.source.Honest := by
    have law := (Image.regular_of_open opened).honest
    rwa [disk] at law
  have lasting := damaged.ne_cancelled honest calm (Image.decided_of_open opened disk)
  obtain ⟨index, slot, _, same, _⟩ := damaged.course honest calm
  obtain ⟨reader, readable, found, faces⟩ := damaged.openEntry honest calm
  have opened' : image.handler.openEntry entry image.limits = .ok reader := by
    rw [disk]
    exact found
  refine ⟨?_, ⟨index, slot, same⟩, readable, ?_, ?_⟩
  · obtain ⟨surveyed, after, step, member⟩ := damaged
    have listed : image.handler.entries (image.entryCounter signals)
        = .ok (surveyed.map Prod.fst) after := by
      rw [disk, Handler.entries, ← Disk.Volume.map_survey, Walk.run_map, step]
    refine ⟨surveyed.map Prod.fst, ?_, List.mem_map_of_mem member⟩
    rw [Image.entries, listed]
  · intro file held host here node
    have complete : entry.incomplete = false := by rw [same]; rfl
    have read := File.reader_of_entry here node complete opened' host
    refine ⟨File.container_of_failure node read faces lasting, reader, read, ?_⟩
    intro later calm'
    obtain ⟨all, failure⟩ := faces.drain calm'
    refine ⟨all, failure.trans ?_⟩
    simp [Outlook.lasting, Option.filter, lasting]
  · intro checkout here calm'
    obtain ⟨chosen, step, room, sound, ahead⟩ := Checkout.select_outlook here calm' opened' faces
    obtain ⟨all, failure⟩ := Checkout.foretells.drain_eq chosen sound
    rw [ahead] at all failure
    exact ⟨chosen, step, room, all.trans (Outlook.bytes_clip _ _),
      failure.trans (Outlook.lasting_clip lasting readable entry.size)⟩

namespace Disk

/-- The directory slot of a file that begins at track 1, sector 0. -/
def damagedSlot (name blocks : UInt8) : Bytes :=
  [0, 63, 0x82, 1, 0, name] ++ List.replicate 15 0xA0 ++ List.replicate 9 0 ++ [blocks, 0]

/-- A disk whose files A and B have one sector and two sectors, as their slots say. Their chain is the
same: behind its first sector it leads to a track that does not exist. -/
def damagedDisk (location : Location) : Block :=
  if location = ⟨18, 1⟩ then .ofBytes (damagedSlot 0x41 1 ++ damagedSlot 0x42 2)
  else if location = ⟨1, 0⟩ then .ofBytes [36, 0]
  else .ofBytes []

/-- What the sectors of this disk are looked up in. -/
def damagedSource : SectorSource :=
  SectorSource.ofLookup fun location =>
    if location.sector < Geometry.track35.sectors location.track then .ok (damagedDisk location)
    else .error .invalidLocation

theorem source_damagedDisk : (sectorVolume damagedDisk).source = damagedSource := by
  unfold sectorVolume
  exact Geometry.source_imageOf Geometry.track35 damagedDisk

theorem chainSize_damagedSource :
    chainSize damagedSource ⟨1, 0⟩ {} .quiet = (.error .invalidLocation, .quiet) := by
  rw [chainSize, ChainWalk.whole, ChainWalk.sectors_of_ok rfl, ChainWalk.sectors_of_error rfl]
  rfl

/-- What can be read of the chain. -/
theorem course_damagedSource :
    (ChainWalk.start damagedSource ⟨1, 0⟩ {}).course
      = ([⟨(damagedDisk ⟨1, 0⟩).bytes, ⟨1, 0⟩⟩], some .invalidLocation) := by
  have found : damagedSource.lookup ⟨1, 0⟩ = .ok (damagedDisk ⟨1, 0⟩) := by
    rw [damagedSource, SectorSource.lookup_eq SectorSource.heeds_ofLookup, if_pos (by decide)]
  have link : ChainLink.ofBytes (damagedDisk ⟨1, 0⟩).bytes = .ok (.next ⟨36, 0⟩) := rfl
  have first : ChainWalk.settled ⟨damagedSource, {}, none, ∅, 0, 0⟩ ⟨1, 0⟩
      = (.ok ⟨(damagedDisk ⟨1, 0⟩).bytes, ⟨1, 0⟩⟩,
          ⟨damagedSource, {}, some ⟨36, 0⟩, (∅ : LocationSet).insert ⟨1, 0⟩, 1, 0⟩) := by
    rw [ChainWalk.settled, if_neg (by decide), if_neg (by decide), found]
    dsimp only
    rw [link]
  have second : (ChainWalk.settled ⟨damagedSource, {}, none, (∅ : LocationSet).insert ⟨1, 0⟩, 1, 0⟩
      ⟨36, 0⟩).1 = .error .invalidLocation := rfl
  have ending : ChainWalk.course ⟨damagedSource, {}, some ⟨36, 0⟩,
      (∅ : LocationSet).insert ⟨1, 0⟩, 1, 0⟩ = ([], some .invalidLocation) := by
    rcases settles : ChainWalk.settled ⟨damagedSource, {}, none, (∅ : LocationSet).insert ⟨1, 0⟩,
      1, 0⟩ ⟨36, 0⟩ with ⟨result, after⟩
    rw [settles] at second
    cases second
    exact ChainWalk.course_of_error rfl settles
  have whole := @ChainWalk.course_of_ok ⟨damagedSource, {}, some ⟨1, 0⟩, ∅, 0, 0⟩ _ _ _ rfl first
  rw [ending] at whole
  exact whole

theorem survey_damagedDisk :
    ∃ after, after.signals = .quiet ∧ (sectorVolume damagedDisk).survey { bound := some 4096 }
      = .ok [(slotEntry 1 (damagedSlot 0x41 1), .error .invalidLocation),
          (slotEntry 2 (damagedSlot 0x42 2), .error .invalidLocation)] after := by
  have broken : chainSize (sectorVolume damagedDisk).source ⟨1, 0⟩ {} .quiet
      = (.error .invalidLocation, .quiet) := by
    rw [source_damagedDisk]
    exact chainSize_damagedSource
  have first : (ChainWalk.start (sectorVolume damagedDisk).source ⟨18, 1⟩ {}).advance .quiet
      = (some (.ok ⟨(damagedDisk ⟨18, 1⟩).bytes.take 64, ⟨18, 1⟩⟩),
          ⟨damagedSource, {}, none, (∅ : LocationSet).insert ⟨18, 1⟩, 1, 0⟩, .quiet) := by
    rw [source_damagedDisk]
    rfl
  have listed : (sectorVolume damagedDisk).surveySlots 1 [damagedSlot 0x41 1, damagedSlot 0x42 2]
      { bound := some 4096 } = .ok _ _ :=
    Volume.surveySlots_of_walked rfl rfl broken (Volume.surveySlots_of_walked rfl rfl broken rfl)
  exact ⟨_, rfl, Volume.survey_of_sector first rfl listed⟩

end Disk

/-- The image of the disk with a damaged chain. -/
def damagedImage : Image where
  url := "disk"
  handler := .disk (Disk.sectorVolume Disk.damagedDisk)

theorem open_damagedImage :
    Image.open "disk" (Disk.Geometry.track35.imageOf Disk.damagedDisk) (some .d64) {}
      = .ok damagedImage := by
  rw [Image.open, Handler.open, Handler.openAs, Disk.openSectors_imageOf]
  rfl

/-- The reader of both files. -/
def damagedReader : Reader :=
  .chain (ChainReader.start (Disk.sectorVolume Disk.damagedDisk).source ⟨1, 0⟩ {})

theorem faces_damagedReader :
    damagedReader.Faces ⟨(Disk.damagedDisk ⟨1, 0⟩).bytes.drop 2, some .invalidLocation⟩ := by
  have honest : Disk.damagedSource.Honest :=
    Disk.SectorSource.honest_of_heeds Disk.SectorSource.heeds_ofLookup
  rw [damagedReader, Disk.source_damagedDisk]
  refine ⟨ChainReader.sound_start _ _ _, honest, ?_⟩
  intro signals calm
  rw [Reader.outlook, ChainReader.outlook_start honest _ _ calm, Disk.course_damagedSource]
  simp only [payload, List.flatMap_cons, List.flatMap_nil, List.append_nil,
    Disk.ChainSector.payload]

theorem length_damagedDisk : ((Disk.damagedDisk ⟨1, 0⟩).bytes.drop 2).length = 254 := by
  rw [List.length_drop, (Disk.damagedDisk ⟨1, 0⟩).length_eq]
  rfl

/-- A stream that reads the file whose slot counts two sectors comes to the failure of its chain. -/
theorem damaged_chain_fails_short_of_size_of_disk :
    ∃ chosen, Checkout.select (slotEntry 2 (Disk.damagedSlot 0x42 2)) { image := damagedImage }
        = .ok () chosen ∧
      chosen.size = 508 ∧ (ByteSource.drain chosen).1.length = 254 ∧
      (ByteSource.drain chosen).2.1 = some .invalidLocation := by
  let entry := slotEntry 2 (Disk.damagedSlot 0x42 2)
  let file : File :=
    { registry := ⟨[], {}⟩, url := "disk/B", name := "B", node := .entry ⟨0, damagedImage⟩ entry }
  obtain ⟨after, _, listed⟩ := Disk.survey_damagedDisk
  obtain ⟨_, _, readable, files, streams⟩ := damaged_chain_fails_short_of_size open_damagedImage rfl
    Signals.calm_quiet ⟨_, after, listed, List.mem_cons_of_mem _ List.mem_cons_self⟩
  obtain ⟨_, reader, found, drained⟩ := files file ⟨0, damagedImage⟩ {} rfl rfl
  obtain ⟨chosen, step, size, all, failure⟩ :=
    streams { image := damagedImage } rfl Signals.calm_quiet
  have read : file.reader {} = .ok damagedReader := rfl
  have length : readable.length = 254 := by
    cases read.symm.trans found
    rw [← (drained .quiet Signals.calm_quiet).1, (faces_damagedReader.drain Signals.calm_quiet).1]
    exact length_damagedDisk
  have blocks : entry.size = 508 := rfl
  refine ⟨chosen, step, size, ?_, ?_⟩
  · rw [all, List.length_take, length]
    rfl
  · rw [failure, length]
    rfl

/-- The file whose slot counts one sector reads through a stream as if it were whole. -/
theorem damaged_chain_reads_as_whole :
    ∃ image volume entry chosen,
      Image.open "disk" (Disk.Geometry.track35.imageOf Disk.damagedDisk) (some .d64) {} = .ok image ∧
      image.handler = .disk volume ∧
      volume.Damaged (image.entryCounter {}) entry .invalidLocation ∧
      Checkout.select entry { image } = .ok () chosen ∧
      (ByteSource.drain chosen).1.length = 254 ∧ (ByteSource.drain chosen).2.1 = none := by
  let entry := slotEntry 1 (Disk.damagedSlot 0x41 1)
  obtain ⟨after, _, listed⟩ := Disk.survey_damagedDisk
  have damaged : (Disk.sectorVolume Disk.damagedDisk).Damaged (damagedImage.entryCounter {}) entry
      .invalidLocation := ⟨_, after, listed, List.mem_cons_self⟩
  have found : damagedImage.handler.openEntry entry damagedImage.limits = .ok damagedReader := rfl
  obtain ⟨chosen, step, _, sound, ahead⟩ := Checkout.select_outlook
    (show Checkout.image { image := damagedImage } = damagedImage from rfl) Signals.calm_quiet found
    faces_damagedReader
  obtain ⟨all, failure⟩ := Checkout.foretells.drain_eq chosen sound
  rw [ahead] at all failure
  have blocks : entry.size = 254 := rfl
  refine ⟨damagedImage, _, entry, chosen, open_damagedImage, rfl, damaged, step, ?_, ?_⟩
  · rw [all, Outlook.bytes_clip, List.length_take, length_damagedDisk, blocks]
    rfl
  · rw [failure, Outlook.lasting_clip (by decide), length_damagedDisk, blocks]
    rfl

end RetroMedia
