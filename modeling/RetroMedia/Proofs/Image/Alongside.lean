import RetroMedia.Proofs.Image.Conduct
import RetroMedia.Proofs.Image.Listing

/-! One stream in two companies. The directory and the signals are all that a stream shares with the
other streams of its image. Where the flag keeps its value, the directory is the same whoever reads it
first, and the signals decide nothing, so the stream cannot tell which company it is in. -/
namespace RetroMedia

variable {fit : Signals → Prop} {flag : Bool} {signals signals' : Signals}

namespace Handler

variable {handler : Handler}

theorem entries_agrees_of_uniform (uniform : Signals.Uniform fit flag)
    (regular : handler.Regular) : handler.entries.Agrees fit handler.entries := by
  cases handler with
  | disk volume => exact (Disk.Volume.parallel_of_uniform uniform regular).entries uniform
  | archive | tape | cartridge | hardDisk | document =>
    exact entries_agrees_of_unchained uniform trivial

theorem chainSize_of_uniform (uniform : Signals.Uniform fit flag) (regular : handler.Regular)
    (location : Disk.Location) (limits : Limits) (fits : fit signals) (fits' : fit signals') :
    ∃ size last last', handler.chainSize location limits signals = (size, last) ∧
      handler.chainSize location limits signals' = (size, last') ∧ fit last ∧ fit last' := by
  cases handler with
  | disk volume =>
    exact (Disk.Volume.parallel_of_uniform uniform regular).chainSize location limits fits fits'
  | archive | tape | cartridge | hardDisk | document => exact ⟨_, _, _, rfl, rfl, fits, fits'⟩

theorem Regular.openEntry (regular : handler.Regular) {entry : Entry} {limits : Limits}
    {reader : Reader} (opened : handler.openEntry entry limits = .ok reader) : reader.Regular := by
  cases handler with
  | disk volume =>
    simp only [Handler.openEntry, Disk.Volume.openEntry] at opened
    split at opened
    · cases opened
      exact regular
    · cases opened
  | archive | tape | cartridge =>
    cases opened
    trivial
  | hardDisk volume =>
    simp only [Handler.openEntry, HardDisk.Volume.openEntry] at opened
    split at opened
    · cases opened
    · cases opened
      trivial
  | document document =>
    simp only [Handler.openEntry, Document.openEntry] at opened
    split at opened
    · cases opened
      trivial
    · cases opened

end Handler

namespace Image

/-- What the directory comes to under a flag that is constant. -/
def listing (image : Image) (flag : Bool) : Except MediaError (List Entry) :=
  (image.entries { signals := Signals.quiet.hold flag }).1

/-- What streams may share under a constant flag: a directory that is kept is that of the image. -/
structure Shares (image : Image) (flag : Bool) (shared : Shared) : Prop where
  held : shared.signals.Held flag
  known : ∀ table, shared.table = some table → image.listing flag = .ok table

variable {image : Image} {shared : Shared}

theorem Shares.onward (shares : image.Shares flag shared) (held : signals.Held flag) :
    image.Shares flag { shared with signals } := ⟨held, shares.known⟩

/-- Whoever asks for the directory is told the same, and it is kept if there is one. -/
theorem Shares.entries (shares : image.Shares flag shared) (regular : image.handler.Regular) :
    ∃ shared', image.entries shared = (image.listing flag, shared') ∧
      shared'.table = (image.listing flag).toOption ∧ image.Shares flag shared' := by
  obtain ⟨held, known⟩ := shares
  rcases shared with ⟨_ | table, signals⟩
  · have agrees := Handler.entries_agrees_of_uniform (Signals.uniform_held flag) regular
    obtain ⟨result, _, later, _, still, first, second⟩ :=
      entries_agree agrees rfl (Signals.held_hold .quiet flag) held
    have same : image.listing flag = result := congrArg Prod.fst first
    rw [second, same]
    refine ⟨_, rfl, rfl, still, ?_⟩
    intro table kept
    rw [same]
    cases result with
    | ok table' =>
      cases kept
      rfl
    | error error => cases kept
  · have listed := known table rfl
    exact ⟨⟨some table, signals⟩, by rw [listed]; rfl, by rw [listed]; rfl, held, known⟩

end Image

/-- A stream whose reader, if it has one, yields what the image holds. -/
def Stream.Regular (stream : Stream) : Prop :=
  ∀ reader, stream.reader = some reader → reader.Regular

namespace Checkout

/-- One stream of an image, in two companies. -/
inductive Alongside (image : Image) (flag : Bool) : Checkout → Checkout → Prop where
  | intro {shared shared' : Shared} {stream : Stream} (regular : stream.Regular)
      (shares : image.Shares flag shared) (shares' : image.Shares flag shared') :
      Alongside image flag ⟨image, shared, stream⟩ ⟨image, shared', stream⟩

variable {image : Image} {first second : Checkout}

theorem Alongside.stream (alongside : Alongside image flag first second) :
    first.stream = second.stream := by
  cases alongside
  rfl

theorem Alongside.regular (alongside : Alongside image flag first second) :
    first.stream.Regular := by
  cases alongside
  assumption

theorem Alongside.shares (alongside : Alongside image flag first second) :
    image.Shares flag first.shared := by
  cases alongside
  assumption

theorem lockstep_modifyStream {change : Stream → Stream}
    (kept : ∀ stream : Stream, stream.Regular → (change stream).Regular) :
    Lockstep (Alongside image flag) (modifyStream change) (modifyStream change) := by
  apply lockstep_modify
  rintro _ _ ⟨regular, shares, shares'⟩
  exact ⟨kept _ regular, shares, shares'⟩

theorem lockstep_entries (regular : image.handler.Regular) :
    Lockstep (Alongside image flag) entries entries := by
  rintro _ _ ⟨still, shares, shares'⟩
  obtain ⟨_, listed, _, onward⟩ := shares.entries regular
  obtain ⟨_, listed', _, onward'⟩ := shares'.entries regular
  unfold Checkout.entries
  dsimp only
  rw [listed, listed']
  cases image.listing flag with
  | ok table => exact ⟨rfl, still, onward, onward'⟩
  | error error => exact ⟨rfl, still, onward, onward'⟩

theorem lockstep_chainSize (regular : image.handler.Regular) (location : Disk.Location) :
    Lockstep (Alongside image flag) (chainSize location) (chainSize location) := by
  rintro _ _ ⟨still, shares, shares'⟩
  obtain ⟨size, last, last', same, same', held, held'⟩ :=
    Handler.chainSize_of_uniform (Signals.uniform_held flag) regular location image.limits
      shares.held shares'.held
  unfold Checkout.chainSize
  dsimp only
  rw [same, same']
  cases size with
  | ok size => exact ⟨rfl, still, shares.onward held, shares'.onward held'⟩
  | error error => exact ⟨rfl, still, shares.onward held, shares'.onward held'⟩

/-- The reader in use, or a new one, goes under the signals of both companies. -/
theorem paired_readerOf (regular : image.handler.Regular) {shared shared' : Shared} {stream : Stream}
    (still : stream.Regular) (shares : image.Shares flag shared)
    (shares' : image.Shares flag shared') {entry : Entry} {reader : Reader}
    (opened : readerOf ⟨image, shared, stream⟩ entry = .ok reader) :
    Reader.Paired (Signals.Held flag) (reader, shared.signals) (reader, shared'.signals) := by
  refine ⟨rfl, ?_, shares.held, shares'.held⟩
  unfold readerOf at opened
  dsimp only at opened
  split at opened
  · rename_i here
    cases opened
    exact still _ here
  · exact regular.openEntry opened

theorem regular_keep {reader : Reader} (regular : reader.Regular) (stream : Stream)
    (entryPosition : Nat) :
    Stream.Regular { stream with reader := some reader, entryPosition } := by
  rintro _ ⟨⟩
  exact regular

theorem sameAnswer_readEntry (regular : image.handler.Regular)
    (alongside : Alongside image flag first second) (entry : Entry) (count : Nat) :
    SameAnswer (Alongside image flag) (first.readEntry entry count)
      (second.readEntry entry count) := by
  obtain @⟨shared, shared', stream, still, shares, shares'⟩ := alongside
  have opens : readerOf ⟨image, shared, stream⟩ entry = readerOf ⟨image, shared', stream⟩ entry := rfl
  have room : available ⟨image, shared, stream⟩ = available ⟨image, shared', stream⟩ := rfl
  unfold readEntry
  rw [← opens, ← room]
  dsimp only
  split
  · exact ⟨rfl, still, shares, shares'⟩
  · cases opened : readerOf ⟨image, shared, stream⟩ entry with
    | error error => exact ⟨rfl, still, shares, shares'⟩
    | ok reader =>
      have paired := paired_readerOf regular still shares shares' opened
      obtain ⟨result, ⟨after, last⟩, ⟨_, last'⟩, same, same', rfl, onward, held, held'⟩ :=
        Reader.congruent (Signals.uniform_held flag) _ _
          (min count (available ⟨image, shared, stream⟩)) paired
      simp only [ByteSource.read] at same same'
      dsimp only
      rw [same, same']
      cases result with
      | ok bytes =>
        exact ⟨rfl, regular_keep onward _ _, shares.onward held, shares'.onward held'⟩
      | error error =>
        exact ⟨rfl, regular_keep onward _ _, shares.onward held, shares'.onward held'⟩

theorem sameAnswer_read (regular : image.handler.Regular)
    (alongside : Alongside image flag first second) (count : Nat) :
    SameAnswer (Alongside image flag) (first.read count) (second.read count) := by
  have entry := sameAnswer_readEntry regular alongside
  obtain @⟨shared, shared', stream, still, shares, shares'⟩ := alongside
  unfold read
  dsimp only
  cases chosen : stream.selected with
  | some selected => exact entry selected count
  | none => exact ⟨rfl, still, shares, shares'⟩

theorem sameAnswer_skipTo (regular : image.handler.Regular)
    (alongside : Alongside image flag first second) (entry : Entry) (target : Nat) :
    SameAnswer (Alongside image flag) (first.skipTo entry target) (second.skipTo entry target) := by
  obtain @⟨shared, shared', stream, still, shares, shares'⟩ := alongside
  have opens : readerOf ⟨image, shared, stream⟩ entry = readerOf ⟨image, shared', stream⟩ entry := rfl
  unfold skipTo
  rw [← opens]
  dsimp only
  split
  · exact ⟨rfl, still, shares, shares'⟩
  · cases opened : readerOf ⟨image, shared, stream⟩ entry with
    | error error => exact ⟨rfl, still, shares, shares'⟩
    | ok reader =>
      have paired := paired_readerOf regular still shares shares' opened
      obtain ⟨bytes, failure, ⟨after, last⟩, ⟨_, last'⟩, same, same', rfl, onward, held, held'⟩ :=
        (Reader.congruent (Signals.uniform_held flag)).gather paired
          (target - stream.entryPosition)
      dsimp only
      rw [same, same']
      cases failure with
      | none => exact ⟨rfl, regular_keep onward _ _, shares.onward held, shares'.onward held'⟩
      | some error => exact ⟨rfl, regular_keep onward _ _, shares.onward held, shares'.onward held'⟩

theorem sameAnswer_seekInEntry (regular : image.handler.Regular)
    (alongside : Alongside image flag first second) (entry : Entry) (target : Nat) :
    SameAnswer (Alongside image flag) (first.seekInEntry entry target)
      (second.seekInEntry entry target) := by
  have onward := sameAnswer_skipTo regular alongside entry target
  obtain @⟨shared, shared', stream, still, shares, shares'⟩ := alongside
  unfold seekInEntry
  dsimp only
  split
  · apply sameAnswer_skipTo regular
    refine ⟨?_, shares, shares'⟩
    intro reader never
    cases never
  · exact onward

theorem sameAnswer_seek (regular : image.handler.Regular)
    (alongside : Alongside image flag first second) (target : Seek) :
    SameAnswer (Alongside image flag) (first.seek target) (second.seek target) := by
  have within := sameAnswer_seekInEntry regular alongside
  obtain @⟨shared, shared', stream, still, shares, shares'⟩ := alongside
  have here : position ⟨image, shared, stream⟩ = position ⟨image, shared', stream⟩ := rfl
  have room : size ⟨image, shared, stream⟩ = size ⟨image, shared', stream⟩ := rfl
  unfold seek
  rw [← here, ← room]
  cases target.resolve (position ⟨image, shared, stream⟩) (size ⟨image, shared, stream⟩) with
  | error error => exact ⟨rfl, still, shares, shares'⟩
  | ok place =>
    dsimp only
    cases chosen : stream.selected with
    | none => exact ⟨rfl, still, shares, shares'⟩
    | some entry =>
      have law := within entry place
      rcases step : seekInEntry ⟨image, shared, stream⟩ entry place with ⟨result, after⟩
      rcases step' : seekInEntry ⟨image, shared', stream⟩ entry place with ⟨result', after'⟩
      rw [step, step'] at law
      obtain ⟨same, onward⟩ := law
      cases same
      dsimp only
      rw [step, step']
      cases result with
      | ok _ => exact ⟨rfl, onward⟩
      | error error => exact ⟨rfl, onward⟩

/-- Whatever a stream is asked for comes to the same in both companies. -/
theorem conducts_alongside (regular : image.handler.Regular) :
    Conducts image (Alongside image flag) where
  image_eq := by
    rintro _ _ ⟨⟩
    exact ⟨rfl, rfl⟩
  stream_eq alongside := alongside.stream
  entries := lockstep_entries regular
  choose selected := lockstep_modifyStream fun _ _ _ never => nomatch never
  walk cursor := lockstep_modifyStream fun _ still => still
  move position _ := lockstep_modifyStream fun _ still => still
  chainSize := lockstep_chainSize regular
  seek := sameAnswer_seek regular
  read := sameAnswer_read regular

end Checkout
end RetroMedia
