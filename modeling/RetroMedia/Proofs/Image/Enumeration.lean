import RetroMedia.Handler
import RetroMedia.Proofs.Disk.Allowance
import RetroMedia.Proofs.HardDisk.Directory

/-! The directories of all formats, counted and numbered alike. However slots are skipped, a listing
takes a step for each entry that it comes to and for no other, and numbers them from one on. -/
namespace RetroMedia

open Walk (Enumerates)

namespace Tape

theorem enumerates_listRecords (tape : Tape) (count slot index : Nat) :
    Enumerates index (tape.listRecords count slot index) (tape.listRecords count slot index) := by
  induction count generalizing slot index with
  | zero => exact Walk.enumerates_nil
  | succ count ih =>
    unfold listRecords
    split
    · exact Walk.enumerates_nil
    · split
      · exact ih (slot + 1) index
      · exact Walk.enumerates_cons rfl (ih (slot + 1) (index + 1))

end Tape

namespace Cartridge

theorem enumerates_listRecords (cartridge : Cartridge) (count slot index : Nat) :
    Enumerates index (cartridge.listRecords count slot index)
      (cartridge.listRecords count slot index) := by
  induction count generalizing slot index with
  | zero => exact Walk.enumerates_nil
  | succ count ih =>
    unfold listRecords
    split
    · exact Walk.enumerates_nil
    · split
      · exact Walk.enumerates_nil
      · split
        · exact ih (slot + 1) index
        · exact Walk.enumerates_cons rfl (ih (slot + 1) (index + 1))

end Cartridge

namespace Lynx.Archive

theorem narrows_listRecords (archive : Archive) (count index offset : Nat) (cursor : Cursor) :
    Walk.Narrows (fun before table after => Tally index before table after ∧ table.length = count)
      (archive.listRecords count index offset cursor)
      (archive.listRecords count index offset cursor) := by
  induction count generalizing index offset cursor with
  | zero => exact Walk.narrows_pure fun progress => ⟨.nil index progress, rfl⟩
  | succ count ih =>
    unfold listRecords
    apply Walk.narrows_tick.bind
    intro _
    split
    · exact Walk.narrows_throw _
    · split
      · exact Walk.narrows_throw _
      · split
        · exact Walk.narrows_throw _
        · apply (ih (index + 1) _ _).map
          rintro middle more after ⟨tally, length⟩ before step
          exact ⟨tally.cons rfl step, congrArg (· + 1) length⟩

/-- The number that an archive announces is the number of its entries, so it is refused at once only
where the limits would be overrun in the end. -/
theorem enumerates_entries (archive : Archive) : Enumerates 1 archive.entries archive.entries := by
  unfold entries
  apply Walk.narrows_get
  intro tight loose tighter
  have lists := archive.narrows_listRecords archive.header.entryCount 1 archive.header.dataStart
    { container := archive.container, position := archive.header.directoryStart }
  dsimp only
  by_cases many : tight.limits.maxEntries < archive.header.entryCount
  · rw [if_pos many]
    apply Walk.narrowed_chainTooLong
    intro table after finish
    by_cases many' : loose.limits.maxEntries < archive.header.entryCount
    · rw [if_pos many'] at finish
      cases finish
    · rw [if_neg many'] at finish
      have ended := lists loose loose (.refl loose)
      rw [show archive.listRecords _ _ _ _ loose = .ok table after from finish] at ended
      obtain ⟨_, _, leads, tally, length⟩ := ended
      have count := tally.takes.count
      have same := tighter.count
      exact ⟨by omega, .inl (by omega)⟩
  · have fewer := tighter.fewer
    rw [if_neg many, if_neg (by omega)]
    exact (lists tight loose tighter).behind (.refl tight) fun table after law => law.1

end Lynx.Archive

namespace HardDisk.Volume

theorem enumerates_listSlots (volume : Volume) (index : Nat) (slots : List Bytes) :
    Enumerates index (volume.listSlots index slots) (volume.listSlots index slots) := by
  induction slots generalizing index with
  | nil => exact Walk.enumerates_nil
  | cons slot rest ih =>
    unfold listSlots
    split
    · exact ih index
    · exact Walk.enumerates_cons rfl (ih (index + 1))

theorem enumerates_listSector (volume : Volume) (limit lba : Nat) (visited : List Nat)
    (steps index : Nat)
    (rest : ∀ next index, Enumerates index
      (volume.listSectors limit next (lba :: visited) steps index)
      (volume.listSectors limit next (lba :: visited) steps index)) :
    Enumerates index (volume.listSector limit lba visited steps index)
      (volume.listSector limit lba visited steps index) := by
  unfold listSector
  split
  · exact Walk.narrows_throw _
  · apply (volume.enumerates_listSlots index _).bind
    intro here
    dsimp only
    split
    · exact Walk.narrows_pure fun after before tally => tally
    · split
      · exact Walk.narrows_throw _
      · apply (rest _ _).map
        intro middle more after second before first
        exact first.append second

/-- The steps from sector to sector are counted apart, under the same bound for either limits. -/
theorem enumerates_listSectors (volume : Volume) (limit lba : Nat) (visited : List Nat)
    (steps index : Nat) :
    Enumerates index (volume.listSectors limit lba visited steps index)
      (volume.listSectors limit lba visited steps index) := by
  induction left : limit - steps using Nat.strongRecOn generalizing lba visited steps index with
  | ind remaining ih =>
    intro tight loose tighter
    have counters : chainCounter loose limit steps
        = (chainCounter tight limit steps).allowing loose.limits.maxEntries := by
      unfold chainCounter Progress.allowing
      dsimp only
      rw [← tighter.limits, tighter.signals]
    have ticks := Walk.indifferent_tick _ _ _ counters
    rw [listSectors_eq, listSectors_eq]
    match step : Progress.tick (chainCounter tight limit steps),
        step' : Progress.tick (chainCounter loose limit steps) with
    | .error error after, .error error' after' =>
      rw [step, step'] at ticks
      exact .inr ticks.1
    | .ok _ after, .ok _ after' =>
      rw [step, step'] at ticks
      obtain ⟨-, rfl⟩ := ticks
      obtain ⟨count, within⟩ := @Progress.tick_ok_le _ _ limit rfl step
      have here : after.count = steps + 1 := count
      have nearer : limit - after.count < remaining := by omega
      have onward := tighter.withSignals after.signals
      dsimp only [Progress.allowing]
      by_cases loop : lba ∈ visited
      · rw [if_pos loop, if_pos loop]
        exact .inr rfl
      · rw [if_neg loop, if_neg loop]
        have sector := volume.enumerates_listSector limit lba visited after.count index
          fun next index => ih _ nearer next (lba :: visited) after.count index rfl
        exact (sector _ _ onward).behind (tight.leads_withSignals _)
          fun table after tally => tally.of_signals
    | .ok _ after, .error error after' | .error error after, .ok _ after' =>
      rw [step, step'] at ticks
      cases ticks

theorem enumerates_entries (volume : Volume) : Enumerates 1 volume.entries volume.entries := by
  unfold entries
  apply Walk.narrows_get
  intro tight loose tighter
  have same : loose.limits.maxChainBlocks = tight.limits.maxChainBlocks := by
    rw [tighter.limits]
    rfl
  rw [same]
  exact volume.enumerates_listSectors _ _ [] 0 1 tight loose tighter

end HardDisk.Volume

namespace Document

theorem enumerates_listMembers (position : Nat) (members : List (String × Json)) :
    Enumerates (position + 1) (listMembers position members) (listMembers position members) := by
  induction members generalizing position with
  | nil => exact Walk.enumerates_nil
  | cons member rest ih =>
    unfold listMembers
    exact Walk.enumerates_cons rfl (ih (position + 1))

end Document

namespace Handler

/-- Whatever the format, the directory of a container that can be opened is numbered from one on, and
limits that allow fewer entries never cut it short. -/
theorem enumerates_entries {handler : Handler} (regular : handler.Regular) :
    Enumerates 1 handler.entries handler.entries := by
  cases handler with
  | disk volume => exact Disk.Volume.enumerates_entries regular
  | archive lynx => exact lynx.enumerates_entries
  | tape records => exact records.enumerates_listRecords records.recordCount 0 1
  | cartridge flash => exact flash.enumerates_listRecords Cartridge.directoryRecords 0 1
  | hardDisk volume => exact volume.enumerates_entries
  | document json => exact Document.enumerates_listMembers 0 json.members

end Handler
end RetroMedia
