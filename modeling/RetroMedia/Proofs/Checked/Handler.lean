import RetroMedia.Handler
import RetroMedia.Proofs.Checked.Archive
import RetroMedia.Proofs.Checked.Directory
import RetroMedia.Proofs.Checked.HardDisk
import RetroMedia.Proofs.Checked.Readers
import RetroMedia.Proofs.Checked.Records
import RetroMedia.Proofs.Image.Sizes

/-! Containers of all formats with checked accesses: opened, listed and read, none of them makes a
machine stop. -/
namespace RetroMedia.Checked

open Disk (Location)

/-- A container opened in one of the formats of images. -/
inductive Handler where
  | disk (volume : Volume)
  | archive (archive : Lynx.Archive)
  | tape (tape : RetroMedia.Tape)
  | cartridge (cartridge : RetroMedia.Cartridge)
  | hardDisk (volume : RetroMedia.HardDisk.Volume)

namespace Handler

def plain : Handler → RetroMedia.Handler
  | disk volume => .disk volume.plain
  | archive lynx => .archive lynx
  | tape records => .tape records
  | cartridge flash => .cartridge flash
  | hardDisk volume => .hardDisk volume

/-- What opening a container makes sure of. -/
def Sound : Handler → Prop
  | disk volume => volume.Sound
  | archive lynx => Archive.Sound lynx
  | tape records => Tape.Sound records
  | cartridge flash => Cartridge.Sound flash
  | hardDisk volume => HardDisk.Sound volume

/-- The outcome of opening a container as something that a handler is made of. -/
def wrap (make : α → Handler) (opened : Checked (Except MediaError α)) :
    Checked (Except MediaError Handler) := do
  return (← opened).map make

/-- Open a container in a given format. -/
def openAs (container : Container) : Format → Checked (Except MediaError Handler)
  | .g64 => wrap disk (Volume.openTracks container)
  | .d64 => wrap disk (Volume.openSectors container .d64)
  | .d71 => wrap disk (Volume.openSectors container .d71)
  | .d81 => wrap disk (Volume.openSectors container .d81)
  | .lnx => wrap archive (Archive.openArchive container)
  | .t64 => wrap tape (Tape.openTape container)
  | .tcrt => wrap cartridge (Cartridge.openCartridge container)
  | .dfi => wrap hardDisk (HardDisk.openDisk container)
  | .json | .sha256 | .qr => return .error .unknownFormat

/-- Try formats in order. -/
def probe (container : Container) : List Format → Checked (Except MediaError Handler)
  | [] => return .error .unknownFormat
  | format :: rest => do
    match ← openAs container format with
    | .ok handler => return .ok handler
    | .error error =>
      if RetroMedia.Handler.isMismatch error then probe container rest else return .error error

/-- Open a container in the given format, or in the first one that fits. -/
def openIn (container : Container) : Option Format → Checked (Except MediaError Handler)
  | some format => openAs container format
  | none => probe container Format.probeOrder

variable (handler : Handler)

/-- The directory, in order. -/
def entries : Program Progress (List Entry) :=
  match handler with
  | disk volume => volume.entries
  | archive lynx => Archive.entries lynx
  | tape records => Tape.entries records
  | cartridge flash => Cartridge.entries flash
  | hardDisk volume => HardDisk.entries volume

/-- A range of a container as an entry tells it, with its load address ahead of it if there is one. -/
def loaded (container : Container) (entry : Entry) : Checked Reader := do
  let remaining ← sub entry.size entry.addressSize
  return .range (match entry.loadAddress with
    | some address => Bytes.ofWord16 address
    | none => []) { container, offset := entry.offset, remaining }

/-- A reader of the bytes of an entry. -/
def openEntry (entry : Entry) (limits : Limits) : Checked (Except MediaError Reader) :=
  match handler with
  | disk volume =>
    match entry.location with
    | some location =>
      return .ok (.chain volume.source (ChainReader.start volume.plain.source location limits))
    | none => return .error .invalidLocation
  | archive lynx =>
    return .ok (.range []
      { container := lynx.container, offset := entry.offset, remaining := entry.size })
  | tape records => do return .ok (← loaded records.container entry)
  | cartridge flash => do return .ok (← loaded flash.container entry)
  | hardDisk volume =>
    if entry.incomplete then return .error .partialEntry
    else return .ok (.range []
      { container := volume.container, offset := entry.offset, remaining := entry.size })

/-- The type of an entry as a listing shows it. It is looked up by cases, without a single access. -/
def decodeType (entry : Entry) : Checked String := return handler.plain.decodeType entry

/-- The data length of the chain that begins at a location. -/
def chainSize (location : Location) (limits : Limits) (signals : Signals) :
    Checked (Except MediaError Nat × Signals) :=
  match handler with
  | disk volume => Checked.chainSize volume.source volume.plain.source location limits signals
  | _ => return (.error .invalidLayout, signals)

theorem opens_wrap {sound : β → Prop} {plain : β → α} (make : β → Handler)
    {make' : α → RetroMedia.Handler} {checked : Checked (Except MediaError β)}
    {result : Except MediaError α} (opens : Opens sound plain checked result)
    (same : ∀ opened, (make opened).plain = make' (plain opened))
    (kept : ∀ opened, sound opened → (make opened).Sound) :
    Opens Sound Handler.plain (wrap make checked) (result.map make') := by
  obtain ⟨outcome, done, rfl, holds⟩ := opens
  subst done
  cases outcome with
  | error error => exact opens_error error
  | ok opened =>
    show Opens Sound Handler.plain _ (.ok (make' (plain opened)))
    rw [← same opened]
    exact opens_ok _ (kept opened (holds opened rfl))

variable {handler} {container : Container} (held : container.size ≤ longestArray)

include held

theorem opens_openAs {format : Format} (image : format ∈ Format.probeOrder) :
    Opens Sound plain (openAs container format) (RetroMedia.Handler.openAs container format) := by
  have addressable := size_lt held
  have disks (format : Format) :=
    opens_wrap disk (Volume.opens_openSectors addressable format) (fun _ => rfl) fun _ => id
  cases format with
  | g64 => exact opens_wrap disk (Volume.opens_openTracks addressable) (fun _ => rfl) fun _ => id
  | d64 => exact disks .d64
  | d71 => exact disks .d71
  | d81 => exact disks .d81
  | lnx => exact opens_wrap archive (Archive.opens_openArchive addressable) (fun _ => rfl) fun _ => id
  | t64 => exact opens_wrap tape (Tape.opens_openTape held) (fun _ => rfl) fun _ => id
  | tcrt => exact opens_wrap cartridge (Cartridge.opens_openCartridge held) (fun _ => rfl) fun _ => id
  | dfi => exact opens_wrap hardDisk (HardDisk.opens_openDisk addressable) (fun _ => rfl) fun _ => id
  | json | sha256 | qr => exact absurd image (by decide)

theorem opens_probe {formats : List Format} (images : ∀ format ∈ formats, format ∈ Format.probeOrder) :
    Opens Sound plain (probe container formats) (RetroMedia.Handler.probe container formats) := by
  induction formats with
  | nil => exact opens_error _
  | cons format rest ih =>
    obtain ⟨outcome, done, same, holds⟩ := opens_openAs held (images format List.mem_cons_self)
    unfold probe RetroMedia.Handler.probe
    rw [done, ok_bind, ← same]
    cases outcome with
    | ok handler => exact opens_ok _ (holds handler rfl)
    | error error =>
      dsimp only [Except.map]
      split
      · exact ih fun format member => images format (List.mem_cons_of_mem _ member)
      · exact opens_error error

theorem opens_openIn {format : Option Format} (image : ∀ known ∈ format, known ∈ Format.probeOrder) :
    Opens Sound plain (openIn container format) (RetroMedia.Handler.open container format) := by
  cases format with
  | none => exact opens_probe held fun _ member => member
  | some known => exact opens_openAs held (image known rfl)

omit held

/-- What listing an entry makes sure of: a load address is a part of the entry's size. -/
def Lists (handler : Handler) (entry : Entry) : Prop :=
  match handler with
  | tape _ | cartridge _ => entry.addressSize ≤ entry.size
  | _ => True

theorem entries_eq (sound : handler.Sound) {progress : Progress} (fresh : progress.count = 0) :
    handler.entries progress = .ok (handler.plain.entries progress) ∧
      ∀ listed after, handler.plain.entries progress = .ok listed after →
        ∀ entry ∈ listed, handler.Lists entry := by
  cases handler with
  | disk volume => exact ⟨Volume.entries_eq sound fresh, fun _ _ _ _ _ => trivial⟩
  | archive lynx => exact ⟨Archive.entries_eq sound fresh, fun _ _ _ _ _ => trivial⟩
  | tape records => exact (Tape.takes_entries sound).fresh (by decide) fresh
  | cartridge flash => exact (Cartridge.takes_entries sound).fresh (by decide) fresh
  | hardDisk volume => exact ⟨HardDisk.entries_eq sound fresh, fun _ _ _ _ _ => trivial⟩

theorem loaded_eq {container : Container} (addressable : container.size < UInt64.size)
    {entry : Entry} (fits : entry.addressSize ≤ entry.size) :
    ∃ reader, loaded container entry = .ok reader ∧ reader.Sound ∧
      reader.plain = .withLoadAddress entry.loadAddress
        { container, offset := entry.offset, remaining := entry.size - entry.addressSize } := by
  rw [loaded, sub_eq fits, ok_bind]
  exact ⟨_, rfl, addressable, rfl⟩

theorem opens_openEntry (sound : handler.Sound) {entry : Entry} (listed : handler.Lists entry)
    (limits : Limits) :
    Opens Reader.Sound Reader.plain (handler.openEntry entry limits)
      (handler.plain.openEntry entry limits) := by
  have loads {container : Container} (addressable : container.size < UInt64.size)
      (fits : entry.addressSize ≤ entry.size) :
      Opens Reader.Sound Reader.plain (do return .ok (← loaded container entry))
        (.ok (.withLoadAddress entry.loadAddress
          { container, offset := entry.offset, remaining := entry.size - entry.addressSize })) := by
    obtain ⟨reader, done, sound, same⟩ := loaded_eq addressable fits
    rw [done, ok_bind, ← same]
    exact opens_ok _ sound
  cases handler with
  | disk volume =>
    unfold openEntry
    show Opens _ _ _ (volume.plain.openEntry entry limits)
    unfold Disk.Volume.openEntry
    cases entry.location with
    | none => exact opens_error _
    | some location =>
      exact opens_ok Reader.plain (ChainReader.sound_start sound location limits)
  | archive lynx =>
    exact opens_ok Reader.plain (show Reader.Sound (.range [] _) from sound.addressable)
  | tape records => exact loads (size_lt sound.held) listed
  | cartridge flash => exact loads (size_lt sound) listed
  | hardDisk volume =>
    unfold openEntry
    show Opens _ _ _ (volume.openEntry entry)
    unfold RetroMedia.HardDisk.Volume.openEntry
    dsimp only
    split
    · exact opens_error _
    · exact opens_ok Reader.plain (show Reader.Sound (.range [] _) from sound.addressable)

theorem chainSize_eq (sound : handler.Sound) (location : Location) (limits : Limits)
    (signals : Signals) :
    handler.chainSize location limits signals
      = .ok (handler.plain.chainSize location limits signals) := by
  cases handler with
  | disk volume => exact Checked.chainSize_eq sound location limits signals
  | archive _ | tape _ | cartridge _ | hardDisk _ => rfl

end Handler

/-- Whatever is read through a reader, into buffers of whatever sizes or to its end, meets no fault and
comes to what it comes to without checks. -/
structure Reader.Harmless (reader : Reader) : Prop where
  sound : reader.Sound
  results : ∀ sizes : Nat → Nat, (∀ place, sizes place < UInt64.size) → ∀ count signals,
    reader.results sizes count signals
      = .ok (ByteSource.results (reader.plain, signals) sizes count)
  drain : ∀ signals, ∃ bytes failure after last,
    reader.drain sound signals = .ok (bytes, failure, after, last) ∧
      ByteSource.drain (reader.plain, signals) = (bytes, failure, after.plain, last)

theorem Reader.Sound.harmless {reader : Reader} (sound : reader.Sound) : reader.Harmless :=
  ⟨sound, fun _ words => results_eq sound words, drain_eq sound⟩

/-- Whatever is asked of an open container meets no fault and comes to what it comes to without checks:
its directory, listed on a fresh counter, the types and the readers of the entries listed, and the data
length of the chain that begins at any location. -/
structure Handler.Harmless (handler : Handler) : Prop where
  entries : ∀ progress : Progress, progress.count = 0 →
    handler.entries progress = .ok (handler.plain.entries progress)
  decodeType : ∀ entry, handler.decodeType entry = .ok (handler.plain.decodeType entry)
  openEntry : ∀ progress listed after, progress.count = 0 →
    handler.plain.entries progress = .ok listed after → ∀ entry ∈ listed, ∀ limits,
      Opens Reader.Harmless Reader.plain (handler.openEntry entry limits)
        (handler.plain.openEntry entry limits)
  chainSize : ∀ location limits signals, handler.chainSize location limits signals
    = .ok (handler.plain.chainSize location limits signals)

theorem Opens.imp {sound sound' : β → Prop} {plain : β → α} {checked : Checked (Except MediaError β)}
    {result : Except MediaError α} (opens : Opens sound plain checked result)
    (weaker : ∀ opened, sound opened → sound' opened) : Opens sound' plain checked result := by
  obtain ⟨outcome, done, same, holds⟩ := opens
  exact ⟨outcome, done, same, fun opened here => weaker opened (holds opened here)⟩

theorem Handler.Sound.harmless {handler : Handler} (sound : handler.Sound) : handler.Harmless where
  entries _ fresh := (entries_eq sound fresh).1
  decodeType _ := rfl
  openEntry _ _ _ fresh listed entry member limits :=
    (opens_openEntry sound ((entries_eq sound fresh).2 _ _ listed entry member) limits).imp
      fun _ sound => sound.harmless
  chainSize := chainSize_eq sound

/-- No container makes a machine stop. Whatever array of bytes is opened, in one of the formats of
images or in the first one that fits, every access on the way lies inside of its array and every result
fits into its word, and the same is true of everything that is asked of the container once it is open.
All that can happen instead is a failure that the library reports. -/
theorem parsers_meet_no_fault {container : Container} (held : container.size ≤ longestArray)
    {format : Option Format} (image : ∀ known ∈ format, known ∈ Format.probeOrder) :
    Opens Handler.Harmless Handler.plain (Handler.openIn container format)
      (RetroMedia.Handler.open container format) :=
  (Handler.opens_openIn held image).imp fun _ sound => sound.harmless

/-- A tape on which a file ends before it begins is opened, listed and read without a fault. -/
theorem parsers_meet_no_fault_of_tape :
    ∃ handler, Handler.openIn RetroMedia.Tape.ofReversedFile none = .ok (.ok handler) ∧
      handler.plain.format = .t64 ∧ handler.Harmless := by
  obtain ⟨outcome, done, same, harmless⟩ :=
    @parsers_meet_no_fault RetroMedia.Tape.ofReversedFile (by decide) none nofun
  cases outcome with
  | error error =>
    have opened : (RetroMedia.Handler.open RetroMedia.Tape.ofReversedFile none).isOk = true := rfl
    rw [← same] at opened
    cases opened
  | ok handler =>
    have opened : (RetroMedia.Handler.open RetroMedia.Tape.ofReversedFile none).map
      RetroMedia.Handler.format = .ok .t64 := rfl
    rw [← same] at opened
    exact ⟨handler, done, Except.ok.inj opened, harmless handler rfl⟩

end RetroMedia.Checked
