import RetroMedia.Image.Basic
import RetroMedia.Proofs.Disk.Parallel
import RetroMedia.Proofs.HardDisk.Directory
import RetroMedia.Proofs.Image.Entries

/-! Directories under a flag that keeps its value, above all where nothing is cancelled. In every format
a directory is then always listed the same, whatever the signals, and it fails in the same way if it
fails. -/
namespace RetroMedia

variable {fit : Signals → Prop} {flag : Bool}

theorem Tape.listRecords_agrees (uniform : Signals.Uniform fit flag) (tape : Tape)
    (count slot index : Nat) :
    (tape.listRecords count slot index).Agrees fit (tape.listRecords count slot index) := by
  induction count generalizing slot index with
  | zero => exact lockstep_pure _
  | succ count ih =>
    unfold Tape.listRecords
    split
    · exact lockstep_pure _
    · split
      · exact ih (slot + 1) index
      · apply (Walk.agrees_tick uniform).bind
        intro _
        exact (ih (slot + 1) (index + 1)).map _

theorem Cartridge.listRecords_agrees (uniform : Signals.Uniform fit flag) (cartridge : Cartridge)
    (count slot index : Nat) :
    (cartridge.listRecords count slot index).Agrees fit (cartridge.listRecords count slot index) := by
  induction count generalizing slot index with
  | zero => exact lockstep_pure _
  | succ count ih =>
    unfold Cartridge.listRecords
    split
    · exact lockstep_pure _
    · split
      · exact lockstep_pure _
      · split
        · exact ih (slot + 1) index
        · apply (Walk.agrees_tick uniform).bind
          intro _
          exact (ih (slot + 1) (index + 1)).map _

namespace Lynx.Archive

theorem listRecords_agrees (uniform : Signals.Uniform fit flag) (archive : Archive)
    (count index offset : Nat) (cursor : Cursor) :
    (archive.listRecords count index offset cursor).Agrees fit
      (archive.listRecords count index offset cursor) := by
  induction count generalizing index offset cursor with
  | zero => exact lockstep_pure _
  | succ count ih =>
    unfold listRecords
    apply (Walk.agrees_tick uniform).bind
    intro _
    split
    · exact lockstep_throw _
    · split
      · exact lockstep_throw _
      · split
        · exact lockstep_throw _
        · rename_i next _
          exact (ih (index + 1) next _).map _

theorem entries_agrees (uniform : Signals.Uniform fit flag) (archive : Archive) :
    archive.entries.Agrees fit archive.entries := by
  unfold entries
  apply lockstep_get
  intro progress progress' alike
  rw [alike.limits]
  by_cases finished : progress'.limits.maxEntries < archive.header.entryCount
  · rw [if_pos finished]
    exact (lockstep_throw _).bind fun _ => listRecords_agrees uniform archive _ _ _ _
  · rw [if_neg finished]
    exact (lockstep_pure _).bind fun _ => listRecords_agrees uniform archive _ _ _ _

end Lynx.Archive

theorem Document.listMembers_agrees (uniform : Signals.Uniform fit flag) (position : Nat)
    (members : List (String × Json)) :
    (Document.listMembers position members).Agrees fit (Document.listMembers position members) := by
  induction members generalizing position with
  | nil => exact lockstep_pure _
  | cons member rest ih =>
    unfold Document.listMembers
    apply (Walk.agrees_tick uniform).bind
    intro _
    exact (ih (position + 1)).map _

namespace Handler

/-- Where there are no chains, a directory is always listed the same. -/
theorem entries_agrees_of_unchained (uniform : Signals.Uniform fit flag) {handler : Handler}
    (unchained : handler.Unchained) : handler.entries.Agrees fit handler.entries := by
  cases handler with
  | disk volume => cases unchained
  | archive archive => exact archive.entries_agrees uniform
  | tape tape => exact tape.listRecords_agrees uniform _ _ _
  | cartridge cartridge => exact cartridge.listRecords_agrees uniform _ _ _
  | hardDisk volume => exact volume.entries_agrees uniform
  | document document => exact Document.listMembers_agrees uniform _ _

theorem entries_agrees {handler : Handler} (honest : handler.Honest) :
    handler.entries.Agrees Signals.Calm handler.entries := by
  cases handler with
  | disk volume =>
    have twins : volume.Twins volume := ⟨honest, honest, rfl, rfl⟩
    exact twins.parallel.entries Signals.uniform_calm
  | archive | tape | cartridge | hardDisk | document =>
    exact entries_agrees_of_unchained Signals.uniform_calm trivial

theorem openAs_of_open {container : Container} {format : Option Format} {handler : Handler}
    (opened : Handler.open container format = .ok handler) :
    ∃ found, openAs container found = .ok handler := by
  cases format with
  | some format => exact ⟨format, opened⟩
  | none =>
    have tried : ∀ formats, probe container formats = .ok handler →
        ∃ found, openAs container found = .ok handler := by
      intro formats probed
      induction formats with
      | nil => cases probed
      | cons format rest ih =>
        unfold probe at probed
        split at probed
        · rename_i found same
          cases probed
          exact ⟨format, same⟩
        · split at probed
          · exact ih probed
          · cases probed
    exact tried _ opened

theorem regular_of_open {container : Container} {format : Option Format} {handler : Handler}
    (opened : Handler.open container format = .ok handler) : handler.Regular := by
  obtain ⟨found, same⟩ := openAs_of_open opened
  exact regular_of_openAs same

theorem Regular.honest {handler : Handler} (regular : handler.Regular) : handler.Honest := by
  cases handler with
  | disk volume => exact Disk.SectorSource.Regular.honest regular
  | archive | tape | cartridge | hardDisk | document => trivial

end Handler

namespace Image

variable {image image' : Image} {signals signals' : Signals}

theorem regular_of_open {url : String} {container : Container} {format : Option Format}
    {limits : Limits} (opened : Image.open url container format limits = .ok image) :
    image.handler.Regular := by
  unfold Image.open at opened
  cases found : Handler.open container format with
  | error error =>
    rw [found] at opened
    cases opened
  | ok handler =>
    rw [found] at opened
    cases opened
    exact Handler.regular_of_open found

/-- A directory that is shown was listed by the handler. -/
theorem listed_of_entries {table : List Entry} (listed : (image.entries { signals }).1 = .ok table) :
    ∃ after, image.handler.entries (image.entryCounter signals) = .ok table after := by
  unfold entries at listed
  dsimp only at listed
  split at listed
  · rename_i after step
    cases listed
    exact ⟨after, step⟩
  · cases listed

/-- Two images whose directories agree show the same directory. -/
theorem entries_agree (agrees : image.handler.entries.Agrees fit image'.handler.entries)
    (limits : image.limits = image'.limits) (fits : fit signals) (fits' : fit signals') :
    ∃ result later later', fit later ∧ fit later' ∧
      image.entries { signals } = (result, { table := result.toOption, signals := later }) ∧
      image'.entries { signals := signals' }
        = (result, { table := result.toOption, signals := later' }) := by
  have alike : (image.entryCounter signals).Alike fit (image'.entryCounter signals') :=
    ⟨limits, rfl, congrArg (fun shared : Limits => some shared.maxEntries) limits, fits, fits'⟩
  have same := agrees _ _ alike
  unfold entries
  dsimp only
  match step : image.handler.entries (image.entryCounter signals),
      step' : image'.handler.entries (image'.entryCounter signals') with
  | .ok table after, .ok table' after' =>
    rw [step, step'] at same
    obtain ⟨rfl, onward⟩ := same
    exact ⟨.ok table, _, _, onward.fits, onward.fits', rfl, rfl⟩
  | .error error after, .error error' after' =>
    rw [step, step'] at same
    obtain ⟨rfl, onward⟩ := same
    exact ⟨.error error, _, _, onward.fits, onward.fits', rfl, rfl⟩
  | .ok table after, .error error after' | .error error after, .ok table after' =>
    rw [step, step'] at same
    cases same

/-- A directory that was listed once is listed the same ever after. -/
theorem entries_of_calm (honest : image.handler.Honest) {table : List Entry}
    (calm : signals.Calm) (calm' : signals'.Calm)
    (listed : (image.entries { signals }).1 = .ok table) :
    ∃ later, later.Calm ∧
      image.entries { signals := signals' }
        = (.ok table, { table := some table, signals := later }) := by
  obtain ⟨result, _, later, _, onward, first, second⟩ :=
    entries_agree (Handler.entries_agrees honest) rfl calm calm'
  rw [first] at listed
  cases listed
  exact ⟨later, onward, second⟩

end Image
end RetroMedia
