import Mathlib
import RetroMedia.Proofs.Image.Mismatch

/-! Containers of unknown format. One format after another is tried, and a failure that only says that
the container is in another format is passed over. Any other failure ends the search, even if a later
format could open the container. -/
namespace RetroMedia.Handler

variable {container : Container} {format : Format} {formats before after : List Format}

/-- To open the container in this format fails since it is in another one. -/
def PassedOver (container : Container) (format : Format) : Prop :=
  ∃ error, openAs container format = .error error ∧ isMismatch error = true

/-- The format is the first one that is not passed over. -/
def Decides (container : Container) (format : Format) : Prop :=
  ∃ before after, Format.probeOrder = before ++ format :: after ∧
    (∀ other ∈ before, PassedOver container other) ∧ ¬ PassedOver container format

/-- The format opens the container, and no format that is tried before it does. -/
def OpensFirst (container : Container) (format : Format) (handler : Handler) : Prop :=
  openAs container format = .ok handler ∧ ∃ before after,
    Format.probeOrder = before ++ format :: after ∧
      ∀ other ∈ before, ∀ handler', openAs container other ≠ .ok handler'

theorem PassedOver.ne_ok (passed : PassedOver container format) (handler : Handler) :
    openAs container format ≠ .ok handler := by
  obtain ⟨error, failed, _⟩ := passed
  rw [failed]
  nofun

/-- Formats that are passed over have no part in what comes of the search. -/
theorem probe_of_passedOver (passed : ∀ other ∈ before, PassedOver container other) :
    probe container (before ++ formats) = probe container formats := by
  induction before with
  | nil => rfl
  | cons other before ih =>
    obtain ⟨error, failed, mismatch⟩ := passed other List.mem_cons_self
    rw [List.cons_append, probe, failed]
    dsimp only
    rw [if_pos mismatch]
    exact ih fun other member => passed other (List.mem_cons_of_mem _ member)

/-- A format that is not passed over ends the search. -/
theorem probe_of_not_passedOver (settled : ¬ PassedOver container format) :
    probe container (format :: after) = openAs container format := by
  rw [probe]
  cases attempt : openAs container format with
  | ok handler => rfl
  | error error =>
    dsimp only
    rw [if_neg fun mismatch => settled ⟨error, attempt, mismatch⟩]

/-- Either all formats are passed over, or there is a first one that is not. -/
theorem exists_first_not_passedOver (container : Container) (formats : List Format) :
    (∀ format ∈ formats, PassedOver container format) ∨
      ∃ before format after, formats = before ++ format :: after ∧
        (∀ other ∈ before, PassedOver container other) ∧ ¬ PassedOver container format := by
  induction formats with
  | nil => exact .inl nofun
  | cons format rest ih =>
    by_cases passed : PassedOver container format
    · rcases ih with all | ⟨before, first, after, same, early, settled⟩
      · exact .inl (List.forall_mem_cons.2 ⟨passed, all⟩)
      · refine .inr ⟨format :: before, first, after, ?_, List.forall_mem_cons.2 ⟨passed, early⟩, settled⟩
        rw [same, List.cons_append]
    · exact .inr ⟨[], format, rest, rfl, nofun, passed⟩

theorem open_of_decides (decides : Decides container format) :
    Handler.open container none = openAs container format := by
  obtain ⟨before, after, order, passed, settled⟩ := decides
  rw [Handler.open, order, probe_of_passedOver passed, probe_of_not_passedOver settled]

theorem open_of_passedOver (passed : ∀ format ∈ Format.probeOrder, PassedOver container format) :
    Handler.open container none = .error .unknownFormat := by
  have all := @probe_of_passedOver container [] Format.probeOrder passed
  rwa [List.append_nil] at all

/-- The search comes to what the first format comes to that is not passed over. -/
theorem exists_decides (container : Container) :
    (∀ format ∈ Format.probeOrder, PassedOver container format) ∨
      ∃ format, Decides container format ∧ format ∈ Format.probeOrder := by
  rcases exists_first_not_passedOver container Format.probeOrder with
    all | ⟨before, format, after, order, passed, settled⟩
  · exact .inl all
  · refine .inr ⟨format, ⟨before, after, order, passed, settled⟩, ?_⟩
    rw [order]
    exact List.mem_append_right before List.mem_cons_self

theorem Decides.opensFirst (decides : Decides container format) {handler : Handler}
    (opened : openAs container format = .ok handler) : OpensFirst container format handler := by
  obtain ⟨before, after, order, passed, _⟩ := decides
  exact ⟨opened, before, after, order, fun other early => (passed other early).ne_ok⟩

/-- A container of unknown format is opened as the first format that is not passed over opens it, and is
of no known format if all of them are. What is opened is opened by the first format that can do it, and
nothing is opened if none can. A format that can is missed only where one that is tried before it fails
for more than being another format: a track image whose header sector cannot be read, or what begins as
a hard disk does. All containers that claim to be neither are opened as soon as one format opens them,
by the first one that does. -/
theorem probing_outcome (container : Container) :
    (∀ format, Decides container format →
        Handler.open container none = openAs container format) ∧
      ((∀ format ∈ Format.probeOrder, PassedOver container format) →
        Handler.open container none = .error .unknownFormat) ∧
      ((∀ format ∈ Format.probeOrder, PassedOver container format) ∨
        ∃ format, Decides container format ∧ format ∈ Format.probeOrder) ∧
      (∀ handler, Handler.open container none = .ok handler →
        ∃ format, OpensFirst container format handler) ∧
      ((∀ format ∈ Format.probeOrder, ∀ handler, openAs container format ≠ .ok handler) →
        ∀ handler, Handler.open container none ≠ .ok handler) ∧
      (∀ format ∈ Format.probeOrder, ∀ error, openAs container format = .error error →
        isMismatch error = false →
          (format = .g64 ∧ (∃ image, Disk.TrackImage.open container = .ok image ∧
              image.contents Disk.HeaderLayout.track18.location = .error error) ∧
              (error = .invalidLocation ∨ error = .badGcr)) ∨
            (format = .dfi ∧ ClaimsHardDisk container)) ∧
      (¬ ClaimsTracks container → ¬ ClaimsHardDisk container →
        ∀ format ∈ Format.probeOrder, ∀ handler, openAs container format = .ok handler →
          ∃ first found, OpensFirst container first found ∧
            Handler.open container none = .ok found) := by
  have opens : ∀ handler, Handler.open container none = .ok handler →
      ∃ format ∈ Format.probeOrder, OpensFirst container format handler := by
    intro handler opened
    rcases exists_decides container with all | ⟨format, decides, probed⟩
    · rw [open_of_passedOver all] at opened
      cases opened
    · rw [open_of_decides decides] at opened
      exact ⟨format, probed, decides.opensFirst opened⟩
  refine ⟨fun _ => open_of_decides, open_of_passedOver, exists_decides container, ?_, ?_,
    fun _ probed _ => serious_failure probed, ?_⟩
  · intro handler opened
    obtain ⟨format, _, first⟩ := opens handler opened
    exact ⟨format, first⟩
  · intro none_opens handler opened
    obtain ⟨format, probed, first, _⟩ := opens handler opened
    exact none_opens format probed handler first
  · intro no_tracks no_disk format probed handler opened
    rcases exists_decides container with all | ⟨first, decides, early⟩
    · exact absurd opened ((all format probed).ne_ok handler)
    · cases attempt : openAs container first with
      | ok found =>
        exact ⟨first, found, decides.opensFirst attempt, (open_of_decides decides).trans attempt⟩
      | error error =>
        obtain ⟨_, _, _, _, settled⟩ := decides
        have serious : isMismatch error = false :=
          Bool.eq_false_iff.2 fun mismatch => settled ⟨error, attempt, mismatch⟩
        rcases serious_failure early attempt serious with
          ⟨_, ⟨image, claimed, _⟩, _⟩ | ⟨_, claimed⟩
        · exact absurd ⟨image, claimed⟩ no_tracks
        · exact absurd claimed no_disk

/-- An archive without files that begins with the signature of a track image without tracks. -/
def archiveBehindTracks : Lynx.Archive where
  container := .ofBytes <| Disk.TrackImage.signature ++ [0, 0, 0, 0] ++ Lynx.marker
    ++ [0x0D, 0x31, 0x0D, 0x30, 0x0D, 0x58, 0x0D, 0]
  header := {
    signature := "GCR-1541\x00\x00\x00\x00LYNX", directoryBlocks := 1, entryCount := 0, creator := "X"
    directoryStart := 254, dataStart := 254 }

theorem open_archiveBehindTracks :
    Lynx.Archive.open archiveBehindTracks.container = .ok archiveBehindTracks := by
  have start : Lynx.headerStart? (archiveBehindTracks.container.readAt 0 Lynx.scanLimit) = some 0 := by
    decide +kernel
  rw [Lynx.Archive.open, start]
  dsimp only
  cbv

/-- The archive can be opened as such, but it is not found: the track image that it begins as has no
header sector. -/
theorem archive_hidden :
    .lnx ∈ Format.probeOrder ∧
      openAs archiveBehindTracks.container .lnx = .ok (.archive archiveBehindTracks) ∧
      Handler.open archiveBehindTracks.container none = .error .invalidLocation := by
  refine ⟨by decide, ?_, rfl⟩
  rw [openAs, open_archiveBehindTracks]
  rfl

end RetroMedia.Handler
