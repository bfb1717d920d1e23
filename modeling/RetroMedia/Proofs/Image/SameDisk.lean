import RetroMedia.Proofs.Disk.ChainOutlook
import RetroMedia.Proofs.Disk.TrackContents
import RetroMedia.Proofs.Image.Listing
import RetroMedia.Proofs.Stream.Steady

/-! One disk in two kinds of images. A track image and a sector image of the same contents cannot be
told apart by their headers, their directories, the lengths of their chains or the bytes of their
entries. -/
namespace RetroMedia

open Disk (Block Geometry HeaderLayout Location SectorSource TrackImage Volume payload)

namespace Handler

/-- What draining an entry comes to: its bytes, and the failure that ends them if there is one. -/
def drained (handler : Handler) (entry : Entry) (limits : Limits) (signals : Signals) :
    Except MediaError (Bytes × Option MediaError) :=
  (handler.openEntry entry limits).map fun reader =>
    ((ByteSource.drain (reader, signals)).1, (ByteSource.drain (reader, signals)).2.1)

end Handler

namespace Disk.Volume

variable {first second : Volume} {signals signals' : Signals}

theorem Twins.chainSize (twins : Twins first second) (location : Location) (limits : Limits)
    (calm : signals.Calm) (calm' : signals'.Calm) :
    ((Handler.disk first).chainSize location limits signals).1
      = ((Handler.disk second).chainSize location limits signals').1 := by
  obtain ⟨_, _, size⟩ := chainSize_of_calm twins.honest location limits calm
  obtain ⟨_, _, size'⟩ := chainSize_of_calm twins.honest' location limits calm'
  simp only [Handler.chainSize, size, size', courseSize, (twins.start location rfl).course]

theorem Twins.drained (twins : Twins first second) (entry : Entry) (limits : Limits)
    (calm : signals.Calm) (calm' : signals'.Calm) :
    (Handler.disk first).drained entry limits signals
      = (Handler.disk second).drained entry limits signals' := by
  unfold Handler.drained
  simp only [Handler.openEntry, Volume.openEntry]
  cases entry.location with
  | none => rfl
  | some location =>
    have same := (twins.start location (rfl : limits = limits)).course
    have law := Reader.foretells.drain_eq
      (Reader.chain (ChainReader.start first.source location limits), signals)
      (ChainReader.sound_start _ _ _)
    have law' := Reader.foretells.drain_eq
      (Reader.chain (ChainReader.start second.source location limits), signals')
      (ChainReader.sound_start _ _ _)
    simp only [Reader.outlook, ChainReader.outlook_start twins.honest location limits calm] at law
    simp only [Reader.outlook, ChainReader.outlook_start twins.honest' location limits calm'] at law'
    rw [same] at law
    simp only [Except.map, law.1, law.2, law'.1, law'.2]

theorem Twins.imageEntries (twins : Twins first second) {image image' : Image}
    (disk : image.handler = .disk first) (disk' : image'.handler = .disk second)
    (limits : image.limits = image'.limits) (calm : signals.Calm) (calm' : signals'.Calm) :
    (image.entries { signals }).1 = (image'.entries { signals := signals' }).1 := by
  have agrees : image.handler.entries.Agrees Signals.Calm image'.handler.entries := by
    rw [disk, disk']
    exact twins.parallel.entries Signals.uniform_calm
  obtain ⟨result, _, _, _, _, first, second⟩ := Image.entries_agree agrees limits calm calm'
  rw [first, second]

end Disk.Volume

namespace Disk

/-- The disk of a track image that holds the contents. -/
def trackVolume (container : Container) (image : TrackImage) (contents : Location → Block) :
    Volume where
  format := .g64
  container
  source := image.source
  header := Header.parse (contents ⟨18, 0⟩).bytes .track18
  firstDirectory := ⟨18, 1⟩

variable {container : Container} {image : TrackImage} {contents : Location → Block}

theorem openTracks_of_holds (opened : TrackImage.open container = .ok image)
    (holds : image.Holds contents) :
    Volume.openTracks container = .ok (trackVolume container image contents) := by
  rw [Volume.openTracks, opened]
  exact Volume.openWith_of_lookup .g64 container (holds.lookup ⟨18, 0⟩)

theorem twins_of_holds (container : Container) (holds : image.Holds contents) :
    Volume.Twins (trackVolume container image contents) (sectorVolume contents) := by
  refine ⟨image.regular_source.honest, (Geometry.track35.regular_source _).honest, ?_, rfl⟩
  funext location
  exact (holds.lookup location).trans (Geometry.track35.lookup_imageOf contents location).symm

end Disk

/-- A track image and the sector image of the same disk open with the same header, and under any
limits they come to the same directory, the same length of every chain and the same bytes of every
entry, or to the same failures, as long as nothing is cancelled. -/
theorem track_image_like_sector_image {container : Container} {image : TrackImage}
    {contents : Location → Block} (opened : TrackImage.open container = .ok image)
    (holds : image.Holds contents) :
    ∃ tracks sectors : Volume,
      Handler.openAs container .g64 = .ok (.disk tracks) ∧
      Handler.openAs (Geometry.track35.imageOf contents) .d64 = .ok (.disk sectors) ∧
      tracks.header = sectors.header ∧
      ∀ (limits : Limits) (signals signals' : Signals), signals.Calm → signals'.Calm →
        (∀ url url', (Image.entries ⟨url, .disk tracks, limits⟩ { signals }).1
          = (Image.entries ⟨url', .disk sectors, limits⟩ { signals := signals' }).1) ∧
        (∀ location, ((Handler.disk tracks).chainSize location limits signals).1
          = ((Handler.disk sectors).chainSize location limits signals').1) ∧
        ∀ entry, (Handler.disk tracks).drained entry limits signals
          = (Handler.disk sectors).drained entry limits signals' := by
  have twins := Disk.twins_of_holds container holds
  refine ⟨Disk.trackVolume container image contents, Disk.sectorVolume contents, ?_, ?_, rfl, ?_⟩
  · rw [Handler.openAs, Disk.openTracks_of_holds opened holds]
    rfl
  · rw [Handler.openAs, Disk.openSectors_imageOf contents]
    rfl
  · intro limits signals signals' calm calm'
    refine ⟨fun url url' => ?_, fun location => ?_, fun entry => ?_⟩
    · exact twins.imageEntries rfl rfl rfl calm calm'
    · exact twins.chainSize location limits calm calm'
    · exact twins.drained entry limits calm calm'

/-- The disk each of whose sectors links to the next number: its chains end in failures of all
kinds. -/
theorem track_image_like_sector_image_of_links :
    ∃ image, ∃ tracks sectors : Volume,
      TrackImage.open (Disk.trackImageOf fun location =>
        .ofBytes [location.track, location.sector + 1]) = .ok image ∧
      Handler.openAs (Disk.trackImageOf fun location =>
        .ofBytes [location.track, location.sector + 1]) .g64 = .ok (.disk tracks) ∧
      Handler.openAs (Geometry.track35.imageOf fun location =>
        .ofBytes [location.track, location.sector + 1]) .d64 = .ok (.disk sectors) ∧
      tracks.header = sectors.header ∧
      ∀ location, ((Handler.disk tracks).chainSize location {} .quiet).1
        = ((Handler.disk sectors).chainSize location {} .quiet).1 := by
  obtain ⟨image, opened, holds⟩ := Disk.exists_holds fun location =>
    .ofBytes [location.track, location.sector + 1]
  obtain ⟨tracks, sectors, asTracks, asSectors, header, law⟩ :=
    track_image_like_sector_image opened holds
  exact ⟨image, tracks, sectors, opened, asTracks, asSectors, header,
    (law {} .quiet .quiet Signals.calm_quiet Signals.calm_quiet).2.1⟩

end RetroMedia
