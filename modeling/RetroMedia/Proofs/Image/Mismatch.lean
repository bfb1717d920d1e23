import RetroMedia.Proofs.Disk.Sources
import RetroMedia.Proofs.Lynx.Lines

/-! Why containers cannot be opened. Most formats fail only in ways that say that the container is in
another one. Two of them can fail for more than that, where their signature is there but what they
announce cannot be read. -/
namespace RetroMedia

/-- If this fails, then only since the container is in another format. -/
def OnlyMismatches {α : Type} (result : Except MediaError α) : Prop :=
  ∀ error, result = .error error → Handler.isMismatch error = true

section OnlyMismatches

variable {α β : Type}

theorem onlyMismatches_ok (value : α) : OnlyMismatches (.ok value) := nofun

theorem onlyMismatches_error {error : MediaError} (mismatch : Handler.isMismatch error = true) :
    OnlyMismatches (.error error : Except MediaError α) := by
  intro other same
  cases same
  exact mismatch

theorem OnlyMismatches.bind {first : Except MediaError α} {next : α → Except MediaError β}
    (early : OnlyMismatches first) (late : ∀ value, OnlyMismatches (next value)) :
    OnlyMismatches (first >>= next) := by
  cases first with
  | ok value => exact late value
  | error error => exact onlyMismatches_error (early error rfl)

theorem OnlyMismatches.map {first : Except MediaError α} (only : OnlyMismatches first) (make : α → β) :
    OnlyMismatches (first.map make) := by
  cases first with
  | ok value => exact onlyMismatches_ok _
  | error error => exact onlyMismatches_error (only error rfl)

/-- Where only mismatches occur, there is no other failure. -/
theorem OnlyMismatches.not_serious {result : Except MediaError α} (only : OnlyMismatches result)
    {error : MediaError} (failed : result = .error error)
    (serious : Handler.isMismatch error = false) : False :=
  Bool.eq_false_iff.1 serious (only error failed)

theorem onlyMismatches_slice (container : Container) (offset length : Nat) :
    OnlyMismatches (container.slice offset length) := by
  unfold Container.slice
  split
  · exact onlyMismatches_ok _
  · exact onlyMismatches_error rfl

end OnlyMismatches

theorem Tape.onlyMismatches_open (container : Container) : OnlyMismatches (Tape.open container) := by
  unfold Tape.open
  refine (onlyMismatches_slice container 0 headerSize).bind fun header => ?_
  dsimp only
  split
  · exact onlyMismatches_error rfl
  · exact onlyMismatches_ok _

theorem Cartridge.onlyMismatches_open (container : Container) :
    OnlyMismatches (Cartridge.open container) := by
  unfold Cartridge.open
  refine (onlyMismatches_slice container 0 flashOffset).bind fun header => ?_
  dsimp only
  split
  · exact onlyMismatches_error rfl
  · exact onlyMismatches_ok _

namespace Disk

/-- The header of a sector image lies on one of its tracks. -/
theorem sectors_of_sectorLayout? {format : Format} {geometries : List Geometry} {layout : HeaderLayout}
    (known : Volume.sectorLayout? format = some (geometries, layout)) :
    ∀ geometry ∈ geometries, ¬ geometry.sectors layout.location.track ≤ layout.location.sector := by
  cases format <;> cases known <;> decide

theorem Geometry.onlyMismatches_source {geometry : Geometry} {location : Location}
    (inside : ¬ geometry.sectors location.track ≤ location.sector) (container : Container) :
    OnlyMismatches ((geometry.source container).lookup location) := by
  have plain := @SectorSource.lookup_eq (geometry.source container) _
    fun location => SectorSource.heeds_ofLookup location
  rw [plain]
  have placed : OnlyMismatches (geometry.offset location) := by
    unfold Geometry.offset
    rw [if_neg inside]
    exact onlyMismatches_ok _
  refine placed.bind fun offset => ?_
  split
  · exact onlyMismatches_ok _
  · rename_i failed
    exact onlyMismatches_error (onlyMismatches_slice container offset blockSize _ failed)

namespace Volume

theorem openWith_eq_error {format : Format} {container : Container} {source : SectorSource}
    {layout : HeaderLayout} {error : MediaError}
    (failed : openWith format container source layout = .error error) :
    source.lookup layout.location = .error error := by
  unfold openWith at failed
  unfold SectorSource.lookup
  cases found : source layout.location {} with
  | ok block after =>
    rw [found] at failed
    cases failed
  | error error' after =>
    rw [found] at failed
    cases failed
    rfl

theorem onlyMismatches_openSectors (container : Container) (format : Format) :
    OnlyMismatches (openSectors container format) := by
  unfold openSectors
  split
  · exact onlyMismatches_error rfl
  · rename_i geometries layout known
    split
    · exact onlyMismatches_error rfl
    · rename_i geometry fits
      intro error failed
      have inside := sectors_of_sectorLayout? known geometry (List.mem_of_find?_eq_some fits)
      exact geometry.onlyMismatches_source inside container error (openWith_eq_error failed)

end Volume

theorem TrackImage.onlyMismatches_open (container : Container) :
    OnlyMismatches (TrackImage.open container) := by
  unfold TrackImage.open
  refine (onlyMismatches_slice container 0 tableOffset).bind fun header => ?_
  dsimp only
  split
  · exact onlyMismatches_error rfl
  · split
    · exact onlyMismatches_error rfl
    · exact onlyMismatches_ok _

/-- The coded bytes of a track are absent, or the container is too short for them. -/
theorem TrackImage.trackData_eq_error {image : TrackImage} {track : Nat} {error : MediaError}
    (failed : image.trackData track = .error error) (serious : Handler.isMismatch error = false) :
    error = .invalidLocation := by
  unfold trackData at failed
  dsimp only at failed
  split at failed
  · cases failed
    rfl
  · split at failed
    · cases failed
      rfl
    · have only := (onlyMismatches_slice image.container (image.trackOffsets.getD ((track - 1) * 2) 0)
        2).bind fun length => onlyMismatches_slice image.container
          (image.trackOffsets.getD ((track - 1) * 2) 0 + 2) (length.le16 0)
      exact (only.not_serious failed serious).elim

end Disk

namespace Lynx

/-- Where reading the lines fails, it is for the given reason. -/
def Blames {α : Type} (reason : MediaError) (program : Lines α) : Prop :=
  ∀ cursor error after, program cursor = .error error after → error = reason

section Blames

variable {α β : Type} {reason : MediaError}

theorem blames_pure (value : α) : Blames reason (pure value) := nofun

theorem blames_throw : Blames reason (throw reason : Lines α) := by
  intro cursor error after failed
  cases failed
  rfl

theorem Blames.bind {first : Lines α} {next : α → Lines β} (early : Blames reason first)
    (late : ∀ value, Blames reason (next value)) : Blames reason (first >>= next) := by
  intro cursor error after failed
  cases step : first cursor with
  | ok value between =>
    rw [run_of_ok step] at failed
    exact late value between error after failed
  | error error' between =>
    change EStateM.bind first next cursor = _ at failed
    rw [EStateM.bind, step] at failed
    cases failed
    exact early cursor _ _ step

/-- A cursor never fails, so there always is a next line. -/
theorem blames_line : Blames reason line := by
  have scanned (cursor : Cursor) (newestFirst : Bytes) :
      ∃ bytes after, ByteSource.scanUntil lineEnd cursor newestFirst = (.ok bytes, after) := by
    fun_induction ByteSource.scanUntil lineEnd cursor newestFirst with
    | case1 => exact ⟨_, _, rfl⟩
    | case2 => exact ⟨_, _, rfl⟩
    | case3 cursor newestFirst byte rest after step other ih => exact ih
    | case4 cursor newestFirst after step ih => cases step
    | case5 cursor newestFirst error after known step => cases step
  intro cursor error after failed
  obtain ⟨bytes, behind, read⟩ := scanned cursor []
  rw [line, ByteSource.readUntil, read] at failed
  cases failed

theorem blames_textLine : Blames reason textLine := blames_line.bind fun _ => blames_pure _

theorem blames_numberLine : Blames reason (numberLine reason) := by
  refine blames_textLine.bind fun text => ?_
  split
  · exact blames_pure _
  · exact blames_throw

theorem blames_readHeader : Blames .invalidHeader readHeader := by
  have got : Blames .invalidHeader (get : Lines Cursor) := nofun
  refine blames_textLine.bind fun signature => blames_numberLine.bind fun directoryBlocks =>
    blames_numberLine.bind fun entryCount => blames_textLine.bind fun creator =>
    got.bind fun cursor => ?_
  dsimp only
  split
  · intro cursor error after failed
    cases failed
    rfl
  · split
    · exact blames_pure _
    · exact blames_throw

end Blames

theorem Archive.onlyMismatches_open (container : Container) :
    OnlyMismatches (Archive.open container) := by
  unfold Archive.open
  split
  · exact onlyMismatches_error rfl
  · split
    · exact onlyMismatches_ok _
    · rename_i failed
      cases blames_readHeader _ _ _ failed
      exact onlyMismatches_error rfl

end Lynx

namespace Handler

variable {container : Container} {format : Format}

/-- The container is a track image as far as its signature and its table of tracks tell. -/
def ClaimsTracks (container : Container) : Prop := ∃ image, Disk.TrackImage.open container = .ok image

/-- The container begins with a whole boot sector that has the signature of a hard disk. -/
def ClaimsHardDisk (container : Container) : Prop :=
  ∃ boot, container.slice 0 HardDisk.sectorSize = .ok boot ∧
    boot.take HardDisk.signature.length = HardDisk.signature

/-- A track image that fails for another reason has a header sector that cannot be read. -/
theorem openTracks_eq_error {error : MediaError}
    (failed : Disk.Volume.openTracks container = .error error) (serious : isMismatch error = false) :
    ∃ image, Disk.TrackImage.open container = .ok image ∧
      image.contents Disk.HeaderLayout.track18.location = .error error := by
  unfold Disk.Volume.openTracks at failed
  cases opened : Disk.TrackImage.open container with
  | error error' =>
    rw [opened] at failed
    cases failed
    exact ((Disk.TrackImage.onlyMismatches_open container).not_serious opened serious).elim
  | ok image =>
    rw [opened] at failed
    have lost := Disk.Volume.openWith_eq_error failed
    rw [Disk.SectorSource.lookup_eq image.heeds_source] at lost
    exact ⟨image, rfl, lost⟩

/-- The header sector of a track image cannot be read for one of two reasons. -/
theorem contents_eq_error {image : Disk.TrackImage} {location : Disk.Location} {error : MediaError}
    (failed : image.contents location = .error error) (serious : isMismatch error = false) :
    error = .invalidLocation ∨ error = .badGcr := by
  unfold Disk.TrackImage.contents at failed
  split at failed
  · cases failed
    exact .inl rfl
  · cases track : image.trackData location.track.toNat with
    | error error' =>
      rw [track] at failed
      cases failed
      exact .inl (image.trackData_eq_error track serious)
    | ok bytes =>
      rw [track] at failed
      dsimp only at failed
      cases found : Gcr.Track.search bytes.length location.track location.sector 0 (bytes ++ bytes)
          false with
      | error error' =>
        rw [found] at failed
        cases failed
        exact Gcr.Track.search_eq_error found
      | ok data =>
        rw [found] at failed
        cases failed

theorem claimsHardDisk_of_error {error : MediaError}
    (failed : HardDisk.Volume.open container = .error error) (serious : isMismatch error = false) :
    ClaimsHardDisk container := by
  unfold HardDisk.Volume.open at failed
  cases read : container.slice 0 HardDisk.sectorSize with
  | error error' =>
    rw [read] at failed
    cases failed
    exact ((onlyMismatches_slice container _ _).not_serious read serious).elim
  | ok boot =>
    rw [read] at failed
    refine ⟨boot, read, Decidable.byContradiction fun other => ?_⟩
    change (if boot.take HardDisk.signature.length != HardDisk.signature then _ else _) = _ at failed
    rw [if_pos (bne_iff_ne.2 other)] at failed
    cases failed
    cases serious

/-- Just two formats fail for other reasons than that the container is in another format. -/
theorem serious_failure (probed : format ∈ Format.probeOrder) {error : MediaError}
    (failed : openAs container format = .error error) (serious : isMismatch error = false) :
    (format = .g64 ∧ (∃ image, Disk.TrackImage.open container = .ok image ∧
        image.contents Disk.HeaderLayout.track18.location = .error error) ∧
        (error = .invalidLocation ∨ error = .badGcr)) ∨
      (format = .dfi ∧ ClaimsHardDisk container) := by
  have never (only : OnlyMismatches (openAs container format)) : False :=
    only.not_serious failed serious
  cases format with
  | g64 =>
    obtain ⟨image, opened, lost⟩ := openTracks_eq_error (map_eq_error failed) serious
    exact .inl ⟨rfl, ⟨image, opened, lost⟩, contents_eq_error lost serious⟩
  | dfi => exact .inr ⟨rfl, claimsHardDisk_of_error (map_eq_error failed) serious⟩
  | d64 => exact (never ((Disk.Volume.onlyMismatches_openSectors container .d64).map disk)).elim
  | d71 => exact (never ((Disk.Volume.onlyMismatches_openSectors container .d71).map disk)).elim
  | d81 => exact (never ((Disk.Volume.onlyMismatches_openSectors container .d81).map disk)).elim
  | lnx => exact (never ((Lynx.Archive.onlyMismatches_open container).map archive)).elim
  | t64 => exact (never ((Tape.onlyMismatches_open container).map tape)).elim
  | tcrt => exact (never ((Cartridge.onlyMismatches_open container).map cartridge)).elim
  | json | sha256 | qr => exact absurd probed (by decide)

end Handler
end RetroMedia
