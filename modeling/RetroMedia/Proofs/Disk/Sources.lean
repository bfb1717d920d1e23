import RetroMedia.Handler
import RetroMedia.Proofs.Gcr.Search

/-! Honest sources of sectors. Such a source yields for each sector what it yields without a flag,
or is cancelled by a flag that it found set. Sector images and track images are more than that: they
go a fixed course for each sector. -/
namespace RetroMedia.Disk

namespace SectorSource

/-- What a source yields for a sector where nothing interrupts it. -/
def lookup (source : SectorSource) (location : Location) : Except MediaError Block :=
  match source location {} with
  | .ok block _ => .ok block
  | .error error _ => .error error

/-- Nothing but the flag decides what the source yields, besides the location. -/
def Honest (source : SectorSource) : Prop :=
  ∀ location, (source location).Heeds (source.lookup location)

variable {source : SectorSource} {plain : Location → Except MediaError Block}

theorem lookup_eq (heeds : ∀ location, (source location).Heeds (plain location)) :
    source.lookup = plain := by
  funext location
  have law := heeds location {} rfl
  unfold lookup
  match step : source location {} with
  | .ok block after =>
    rw [step] at law
    exact law.2.2.2.symm
  | .error error after =>
    rw [step] at law
    obtain ⟨_, _, clear | stopped⟩ := law
    · exact clear.2.symm
    · exact absurd stopped.1 Signals.calm_quiet.not_interrupted

theorem honest_of_heeds (heeds : ∀ location, (source location).Heeds (plain location)) :
    source.Honest := by
  intro location
  rw [lookup_eq heeds]
  exact heeds location

/-- A source that goes a fixed course for each sector: whatever its counter, it counts the same steps
and comes to the same. -/
def Regular (source : SectorSource) : Prop :=
  ∀ location, ∃ result steps, source location = Walk.counted result steps

theorem Regular.honest (regular : source.Regular) : source.Honest := by
  have course : ∀ location, ∃ result, (source location).Heeds result := by
    intro location
    obtain ⟨result, steps, same⟩ := regular location
    exact ⟨result, same ▸ Walk.heeds_counted result steps⟩
  exact honest_of_heeds fun location => (course location).choose_spec

theorem ofLookup_eq_counted (location : Location) :
    ofLookup plain location = Walk.counted (plain location) 0 := by
  funext progress
  unfold ofLookup
  cases plain location with
  | ok block => rfl
  | error error => rfl

theorem heeds_ofLookup (location : Location) : (ofLookup plain location).Heeds (plain location) := by
  rw [ofLookup_eq_counted]
  exact Walk.heeds_counted _ 0

theorem regular_ofLookup : (ofLookup plain).Regular :=
  fun location => ⟨plain location, 0, ofLookup_eq_counted location⟩

end SectorSource

namespace Geometry

theorem regular_source (geometry : Geometry) (container : Container) :
    (geometry.source container).Regular := SectorSource.regular_ofLookup

end Geometry

namespace TrackImage

/-- The contents of a sector, where nothing interrupts the search for it. -/
def contents (image : TrackImage) (location : Location) : Except MediaError Block :=
  if Gcr.sectorsPerTrack location.track ≤ location.sector then .error .invalidLocation
  else
    match image.trackData location.track.toNat with
    | .error error => .error error
    | .ok bytes =>
      (Gcr.Track.search bytes.length location.track location.sector 0 (bytes ++ bytes) false).bind
        fun found => .ok ⟨found.data, found.length_eq⟩

/-- The sector that is looked for, and the bytes around it, decide how many steps the search counts. -/
theorem source_eq_counted (image : TrackImage) (location : Location) :
    ∃ steps, image.source location = Walk.counted (image.contents location) steps := by
  unfold source contents
  by_cases beyond : Gcr.sectorsPerTrack location.track ≤ location.sector
  · rw [if_pos beyond, if_pos beyond]
    exact ⟨0, rfl⟩
  · rw [if_neg beyond, if_neg beyond]
    dsimp only
    cases image.trackData location.track.toNat with
    | error error => exact ⟨0, rfl⟩
    | ok bytes =>
      obtain ⟨steps, found⟩ := Gcr.Track.scan_eq_counted bytes.length location.track
        location.sector 0 (bytes ++ bytes) false
      refine ⟨steps, ?_⟩
      rw [← Walk.counted_bind, ← found]
      rfl

theorem heeds_source (image : TrackImage) (location : Location) :
    (image.source location).Heeds (image.contents location) := by
  obtain ⟨steps, same⟩ := image.source_eq_counted location
  rw [same]
  exact Walk.heeds_counted _ steps

theorem regular_source (image : TrackImage) : image.source.Regular := by
  intro location
  obtain ⟨steps, same⟩ := image.source_eq_counted location
  exact ⟨image.contents location, steps, same⟩

end TrackImage

namespace Volume

theorem source_of_openWith {format : Format} {container : Container} {source : SectorSource}
    {layout : HeaderLayout} {volume : Volume}
    (opened : openWith format container source layout = .ok volume) : volume.source = source := by
  unfold openWith at opened
  split at opened <;> cases opened
  rfl

theorem source_of_openSectors {container : Container} {format : Format} {volume : Volume}
    (opened : openSectors container format = .ok volume) :
    ∃ geometry : Geometry, volume.source = geometry.source container := by
  unfold openSectors at opened
  split at opened
  · cases opened
  · split at opened
    · cases opened
    · rename_i geometry _
      exact ⟨geometry, source_of_openWith opened⟩

theorem source_of_openTracks {container : Container} {volume : Volume}
    (opened : openTracks container = .ok volume) :
    ∃ image : TrackImage, volume.source = image.source := by
  unfold openTracks at opened
  cases found : TrackImage.open container with
  | error error =>
    rw [found] at opened
    cases opened
  | ok image =>
    rw [found] at opened
    exact ⟨image, source_of_openWith opened⟩

end Volume
end Disk

namespace Handler

theorem map_eq_ok {α β : Type} {result : Except MediaError α} {make : α → β} {value : β}
    (found : result.map make = .ok value) : ∃ inner, result = .ok inner ∧ make inner = value := by
  cases result with
  | error error => cases found
  | ok inner => exact ⟨inner, rfl, by cases found; rfl⟩

theorem map_eq_error {α β : Type} {result : Except MediaError α} {make : α → β} {error : MediaError}
    (failed : result.map make = .error error) : result = .error error := by
  cases result with
  | error error' =>
    cases failed
    rfl
  | ok value => cases failed

/-- The sectors of a disk that can be opened come from their offsets or from coded tracks. -/
theorem source_of_disk {container : Container} {format : Format} {volume : Disk.Volume}
    (opened : openAs container format = .ok (.disk volume)) :
    (∃ geometry : Disk.Geometry, volume.source = geometry.source container) ∨
      ∃ image : Disk.TrackImage, volume.source = image.source := by
  cases format with
  | g64 =>
    simp only [openAs] at opened
    obtain ⟨inner, found, same⟩ := map_eq_ok opened
    cases same
    exact .inr (Disk.Volume.source_of_openTracks found)
  | d64 | d71 | d81 =>
    simp only [openAs] at opened
    obtain ⟨inner, found, same⟩ := map_eq_ok opened
    cases same
    exact .inl (Disk.Volume.source_of_openSectors found)
  | lnx | t64 | tcrt | dfi | json =>
    simp only [openAs] at opened
    obtain ⟨inner, _, same⟩ := map_eq_ok opened
    cases same
  | sha256 | qr => cases opened

/-- Every disk that can be opened has a regular source. -/
theorem regular_of_disk {container : Container} {format : Format} {volume : Disk.Volume}
    (opened : openAs container format = .ok (.disk volume)) : volume.source.Regular := by
  rcases source_of_disk opened with ⟨geometry, same⟩ | ⟨image, same⟩
  · exact same ▸ geometry.regular_source container
  · exact same ▸ image.regular_source

/-- The sectors of a disk are looked for in a fixed course. -/
def Regular : Handler → Prop
  | disk volume => volume.source.Regular
  | _ => True

theorem regular_of_openAs {container : Container} {format : Format} {handler : Handler}
    (opened : openAs container format = .ok handler) : handler.Regular := by
  cases handler with
  | disk volume => exact regular_of_disk opened
  | archive | tape | cartridge | hardDisk | document => trivial

end Handler
end RetroMedia
