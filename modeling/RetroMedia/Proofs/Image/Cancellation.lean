import RetroMedia.Proofs.Disk.Absorption
import RetroMedia.Proofs.Image.Damage
import RetroMedia.Proofs.Image.Request

/-! Directories that are read while the flag may be set. Wherever a reading of the flag that is no part
of a walk along a file finds it set, the directory is not read. A walk along a file that is cancelled is
taken for one that cannot be made, so its file is listed with the size that its slot stores, and if the
flag is not found set again, that table is kept. -/
namespace RetroMedia

open Disk (Estimated Location)
open Disk.Volume (slotEntry)

namespace Image

/-- Where a reading of the flag finds it set, the directory is not read and nothing is kept, so that what
is kept is what is read of the same image where nothing is cancelled. -/
def Reports (image : Image) (signals : Signals) : Prop :=
  (signals.Interrupted (image.entries { signals }).2.signals →
      (image.entries { signals }).1 = .error .cancelled ∧
        (image.entries { signals }).2.table = none) ∧
    ∀ table, (image.entries { signals }).2.table = some table → (image.entries {}).1 = .ok table

end Image

variable {image : Image}

/-- A disk reports that its listing was cancelled, unless the listing absorbs it. Whatever the flag does,
the listing is cancelled, or it fails as a listing does that is not cancelled, or it gives the same
entries, where some may have the sizes of their slots. -/
theorem cancellation_reported_iff {url : String} {container : Container} {format : Option Format}
    {limits : Limits} (opened : Image.open url container format limits = .ok image)
    {volume : Disk.Volume} (disk : image.handler = .disk volume) (signals : Signals) :
    ((image.entries { signals }).1 = .error .cancelled ∨
      (∃ error, (image.entries { signals }).1 = .error error ∧ (image.entries {}).1 = .error error) ∨
      ∃ table table', (image.entries { signals }).1 = .ok table ∧ (image.entries {}).1 = .ok table' ∧
        List.Forall₂ Estimated table table') ∧
      (image.Reports signals ↔ ¬ volume.Absorbs (image.entryCounter signals)) := by
  have honest : volume.source.Honest := by
    have law := (Image.regular_of_open opened).honest
    rwa [disk] at law
  have listed (signals : Signals) :
      image.handler.entries (image.entryCounter signals) = volume.entries (image.entryCounter signals) := by
    rw [disk]
    rfl
  rcases volume.entries_cases honest (Image.decided_of_open opened disk) (image.entryCounter signals)
      (image.entryCounter .quiet) rfl rfl rfl Signals.calm_quiet with
    ⟨after, step, stopped, reported⟩ | ⟨error, after, after', step, step', own, absorbs⟩ |
      ⟨table, table', after, after', step, step', same, estimated, absorbs⟩
  · have found := Image.entries_of_error ((listed signals).trans step)
    rw [found]
    refine ⟨.inl rfl, iff_of_true ⟨?_, ?_⟩ reported⟩
    · rw [found]
      exact fun _ => ⟨rfl, rfl⟩
    · rw [found]
      intro table never
      cases never
  · have found := Image.entries_of_error ((listed signals).trans step)
    have plain := Image.entries_of_error ((listed .quiet).trans step')
    refine ⟨.inr (.inl ⟨error, by rw [found], congrArg Prod.fst plain⟩), ?_⟩
    rw [absorbs, Image.Reports, found]
    constructor
    · rintro ⟨reports, _⟩ stopped
      obtain ⟨cancelled, _⟩ := reports stopped
      cases cancelled
      exact own rfl
    · intro clear
      exact ⟨fun stopped => absurd stopped clear, fun _ never => by cases never⟩
  · have found := Image.entries_of_ok ((listed signals).trans step)
    have plain := congrArg Prod.fst (Image.entries_of_ok ((listed .quiet).trans step'))
    refine ⟨.inr (.inr ⟨table, table', by rw [found], plain, estimated⟩), ?_⟩
    rw [absorbs, Image.Reports, found]
    constructor
    · rintro ⟨reports, _⟩ stopped
      obtain ⟨cancelled, _⟩ := reports stopped
      cases cancelled
    · intro clear
      refine ⟨fun stopped => absurd stopped clear, ?_⟩
      rintro _ ⟨⟩
      rw [same clear]
      exact plain

namespace Disk

/-- The directory slot of a file of one sector that begins at track 1, sector 0. -/
def briefSlot : Bytes :=
  [0, 31, 0x82, 1, 0, 0x41] ++ List.replicate 15 0xA0 ++ List.replicate 9 0 ++ [1, 0]

/-- A disk with one file of five bytes. -/
def briefDisk (location : Location) : Block :=
  if location = ⟨18, 1⟩ then .ofBytes briefSlot
  else if location = ⟨1, 0⟩ then .ofBytes [0, 6, 1, 2, 3, 4, 5]
  else .ofBytes []

/-- What the sectors of this disk are looked up in. -/
def briefSource : SectorSource :=
  SectorSource.ofLookup fun location =>
    if location.sector < Geometry.track35.sectors location.track then .ok (briefDisk location)
    else .error .invalidLocation

theorem source_briefDisk : (sectorVolume briefDisk).source = briefSource := by
  unfold sectorVolume
  exact Geometry.source_imageOf Geometry.track35 briefDisk

/-- The flag is set for good when it is read for the third time. -/
def raisedLate : Signals := { cancel := some fun poll => decide (2 ≤ poll) }

theorem interrupted_raisedLate : raisedLate.Interrupted { raisedLate with polls := 3 } :=
  ⟨_, 2, rfl, by decide, by decide, rfl⟩

theorem chainSize_briefSource :
    chainSize briefSource ⟨1, 0⟩ {} .quiet = (.ok 5, .quiet) := by
  rw [chainSize, ChainWalk.whole, ChainWalk.sectors_of_ok rfl, ChainWalk.sectors_of_over rfl]
  rfl

theorem chainSize_briefSource_of_raised :
    chainSize briefSource ⟨1, 0⟩ {} { raisedLate with polls := 2 }
      = (.error .cancelled, { raisedLate with polls := 3 }) := by
  rw [chainSize, ChainWalk.whole, ChainWalk.sectors_of_error rfl]
  rfl

theorem survey_briefDisk :
    (sectorVolume briefDisk).survey { bound := some 4096 }
      = .ok [({ slotEntry 1 briefSlot with size := 5 }, .ok 5)]
          { count := 1, bound := some 4096 } := by
  have found : chainSize (sectorVolume briefDisk).source ⟨1, 0⟩ {} .quiet = (.ok 5, .quiet) := by
    rw [source_briefDisk]
    exact chainSize_briefSource
  have first : (ChainWalk.start (sectorVolume briefDisk).source ⟨18, 1⟩ {}).advance .quiet
      = (some (.ok ⟨(briefDisk ⟨18, 1⟩).bytes.take 32, ⟨18, 1⟩⟩),
          ⟨briefSource, {}, none, (∅ : LocationSet).insert ⟨18, 1⟩, 1, 0⟩, .quiet) := by
    rw [source_briefDisk]
    rfl
  have listed : (sectorVolume briefDisk).surveySlots 1 [briefSlot] { bound := some 4096 } = .ok _ _ :=
    Volume.surveySlots_of_walked rfl rfl found rfl
  exact Volume.survey_of_sector first rfl listed

theorem survey_briefDisk_of_raised :
    (sectorVolume briefDisk).survey { bound := some 4096, signals := raisedLate }
      = .ok [(slotEntry 1 briefSlot, .error .cancelled)]
          { count := 1, bound := some 4096, signals := { raisedLate with polls := 3 } } := by
  have found : chainSize (sectorVolume briefDisk).source ⟨1, 0⟩ {} { raisedLate with polls := 2 }
      = (.error .cancelled, { raisedLate with polls := 3 }) := by
    rw [source_briefDisk]
    exact chainSize_briefSource_of_raised
  have first : (ChainWalk.start (sectorVolume briefDisk).source ⟨18, 1⟩ {}).advance raisedLate
      = (some (.ok ⟨(briefDisk ⟨18, 1⟩).bytes.take 32, ⟨18, 1⟩⟩),
          ⟨briefSource, {}, none, (∅ : LocationSet).insert ⟨18, 1⟩, 1, 0⟩,
          { raisedLate with polls := 1 }) := by
    rw [source_briefDisk]
    rfl
  have listed : (sectorVolume briefDisk).surveySlots 1 [briefSlot]
      { bound := some 4096, signals := { raisedLate with polls := 1 } } = .ok _ _ :=
    Volume.surveySlots_of_walked rfl rfl found rfl
  exact Volume.survey_of_sector first rfl listed

end Disk

/-- The image of the disk with one short file. -/
def briefImage : Image where
  url := "disk"
  handler := .disk (Disk.sectorVolume Disk.briefDisk)

theorem open_briefImage :
    Image.open "disk" (Disk.Geometry.track35.imageOf Disk.briefDisk) (some .d64) {}
      = .ok briefImage := by
  rw [Image.open, Handler.open, Handler.openAs, Disk.openSectors_imageOf]
  rfl

theorem entries_briefImage (signals : Signals) {surveyed : List (Entry × Except MediaError Nat)}
    {after : Progress}
    (listed : (Disk.sectorVolume Disk.briefDisk).survey (briefImage.entryCounter signals)
      = .ok surveyed after) :
    briefImage.entries { signals }
      = (.ok (surveyed.map Prod.fst),
          { table := some (surveyed.map Prod.fst), signals := after.signals }) := by
  apply Image.entries_of_ok
  change (Disk.sectorVolume Disk.briefDisk).entries _ = _
  rw [← Disk.Volume.map_survey, Walk.run_map, listed]

/-- Where nothing is cancelled the disk with one short file has nothing to report. Where the flag is set
during the walk along the file, the listing absorbs it. -/
theorem cancellation_reported_iff_of_disk :
    Image.open "disk" (Disk.Geometry.track35.imageOf Disk.briefDisk) (some .d64) {}
        = .ok briefImage ∧
      briefImage.handler = .disk (Disk.sectorVolume Disk.briefDisk) ∧
      briefImage.Reports .quiet ∧
      ¬ (Disk.sectorVolume Disk.briefDisk).Absorbs (briefImage.entryCounter .quiet) ∧
      ¬ briefImage.Reports Disk.raisedLate ∧
      (Disk.sectorVolume Disk.briefDisk).Absorbs (briefImage.entryCounter Disk.raisedLate) := by
  have reports : briefImage.Reports .quiet := by
    refine ⟨fun stopped => absurd stopped Signals.calm_quiet.not_interrupted, ?_⟩
    intro table kept
    have listed := entries_briefImage .quiet Disk.survey_briefDisk
    rw [listed] at kept
    cases kept
    exact congrArg Prod.fst listed
  have fails : ¬ briefImage.Reports Disk.raisedLate := by
    rintro ⟨stopped, _⟩
    rw [entries_briefImage Disk.raisedLate Disk.survey_briefDisk_of_raised] at stopped
    obtain ⟨never, _⟩ := stopped Disk.interrupted_raisedLate
    cases never
  have law (signals : Signals) := (cancellation_reported_iff open_briefImage rfl signals).2
  exact ⟨open_briefImage, rfl, reports, (law _).1 reports, fails,
    Classical.not_not.1 fun clear => fails ((law _).2 clear)⟩

/-- The flag is set during the walk along the only file of a disk and stays set. The walk is cancelled,
but the directory is read without a failure, and it is kept with a file of 254 bytes. The file has five
bytes. -/
theorem cancelled_walk_absorbed :
    Image.open "disk" (Disk.Geometry.track35.imageOf Disk.briefDisk) (some .d64) {}
        = .ok briefImage ∧
      Disk.raisedLate.Interrupted (briefImage.entries { signals := Disk.raisedLate }).2.signals ∧
      (briefImage.entries { signals := Disk.raisedLate }).1 = .ok [slotEntry 1 Disk.briefSlot] ∧
      (briefImage.entries { signals := Disk.raisedLate }).2.table
        = some [slotEntry 1 Disk.briefSlot] ∧
      (slotEntry 1 Disk.briefSlot).size = 254 ∧
      (briefImage.entries {}).1 = .ok [{ slotEntry 1 Disk.briefSlot with size := 5 }] := by
  rw [entries_briefImage Disk.raisedLate Disk.survey_briefDisk_of_raised]
  refine ⟨open_briefImage, ?_, rfl, rfl, rfl, ?_⟩
  · exact Disk.interrupted_raisedLate
  · exact congrArg Prod.fst (entries_briefImage .quiet Disk.survey_briefDisk)

end RetroMedia
