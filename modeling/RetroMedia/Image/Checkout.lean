import RetroMedia.Image.Basic
import RetroMedia.Text.Wildcard

/-! Checkouts. Each user of an image has a stream of its own: it reads the raw container, or the
bytes of one selected entry. Positions and selections are never shared. -/
namespace RetroMedia

/-- The state of one stream. -/
structure Stream where
  /-- The position in the raw container. -/
  position : Nat := 0
  selected : Option Entry := none
  /-- The reader of the selected entry, once it is needed. -/
  reader : Option Reader := none
  /-- The position in the selected entry. -/
  entryPosition : Nat := 0
  /-- Entries that the walk through the directory has passed. -/
  cursor : Nat := 0

/-- A stream together with the image it reads and what it shares with other streams. -/
structure Checkout where
  image : Image
  shared : Shared := {}
  stream : Stream := {}

namespace Checkout

/-- An operation on a stream. What it changed stays changed when it fails. -/
abbrev Action := EStateM MediaError Checkout

/-- The bytes that the stream stands for. -/
def size (checkout : Checkout) : Nat :=
  match checkout.stream.selected with
  | some entry => entry.size
  | none => checkout.image.container.size

def position (checkout : Checkout) : Nat :=
  match checkout.stream.selected with
  | some _ => checkout.stream.entryPosition
  | none => checkout.stream.position

def available (checkout : Checkout) : Nat := checkout.size - checkout.position

def isExhausted (checkout : Checkout) : Bool := checkout.available == 0

/-- Change the stream's own state. -/
def modifyStream (change : Stream → Stream) : Action Unit :=
  modify fun checkout => { checkout with stream := change checkout.stream }

/-- The directory of the image. -/
def entries : Action (List Entry) := fun checkout =>
  match checkout.image.entries checkout.shared with
  | (.ok table, shared) => .ok table { checkout with shared }
  | (.error error, shared) => .error error { checkout with shared }

/-- Read entry `entry` from its beginning. The position in the container stays. -/
def select (entry : Entry) : Action Unit :=
  modifyStream ({ · with selected := some entry, reader := none, entryPosition := 0 })

/-- Return to the raw container. -/
def clearEntry : Action Unit :=
  modifyStream ({ · with selected := none, reader := none, entryPosition := 0 })

/-- Select the first entry whose name fits the pattern. -/
def seekEntry (pattern : String) : Action Entry := do
  let table ← entries
  let caseSensitive := (← get).image.handler.caseSensitive
  match table.find? fun entry => Wildcard.fits pattern entry.name caseSensitive with
  | some entry =>
    select entry
    return entry
  | none => throw .notFound

/-- Select the entry with a number, counted from one. -/
def seekIndex (index : Nat) : Action Entry := do
  match index with
  | 0 => throw .invalidEntryIndex
  | before + 1 =>
    match (← entries)[before]? with
    | some entry =>
      select entry
      return entry
    | none => throw .notFound

/-- The names of a path; slashes at its ends and in a row do not matter. -/
def pathNames (path : String) : List String :=
  ((path.toList.splitOn '/').filter (!·.isEmpty)).map String.ofList

/-- Select the entry that a path names. A stream does not descend: a longer path is only told
apart by the kind of its first entry. -/
def seekPath (path : String) : Action Entry := do
  match pathNames path with
  | [] => throw .notFound
  | [name] => seekEntry name
  | name :: _ =>
    let entry ← seekEntry name
    clearEntry
    if entry.isDirectory && entry.incomplete then throw .partialEntry
    else if entry.isDirectory then throw .notFound
    else throw .notADirectory

/-- The next entry of the directory, or none at its end; after that it starts again. -/
def nextEntry : Action (Option Entry) := do
  let table ← entries
  match table[(← get).stream.cursor]? with
  | some entry =>
    modifyStream fun stream => { stream with cursor := stream.cursor + 1 }
    return some entry
  | none =>
    modifyStream ({ · with cursor := 0 })
    return none

/-- Start the walk through the directory again. -/
def rewind : Action Unit := modifyStream ({ · with cursor := 0 })

/-- Go to a place in the raw data behind the container's header. -/
def seekData (offset : Nat) : Action Nat := do
  let image := (← get).image
  let target := image.handler.dataOffset + offset
  if Seek.positionLimit ≤ target then throw .invalidOffset
  clearEntry
  let position := min target image.container.size
  modifyStream ({ · with position })
  return position

/-- The data length of the chain that begins at a location. -/
def chainSize (location : Disk.Location) : Action Nat := fun checkout =>
  match checkout.image.handler.chainSize location checkout.image.limits checkout.shared.signals with
  | (.ok size, signals) =>
    .ok size { checkout with shared := { checkout.shared with signals } }
  | (.error error, signals) =>
    .error error { checkout with shared := { checkout.shared with signals } }

/-- The reader of the selected entry: the one in use, or a new one. -/
def readerOf (checkout : Checkout) (entry : Entry) : Except MediaError Reader :=
  match checkout.stream.reader with
  | some reader => .ok reader
  | none => checkout.image.handler.openEntry entry checkout.image.limits

/-- Keep a reader and the signals it left behind. -/
def keepReader (checkout : Checkout) (reader : Reader) (signals : Signals) : Checkout :=
  { checkout with
    shared := { checkout.shared with signals }
    stream := { checkout.stream with reader := some reader } }

/-- Move the position in the selected entry. -/
def atEntryPosition (checkout : Checkout) (entryPosition : Nat) : Checkout :=
  { checkout with stream := { checkout.stream with entryPosition } }

/-- Read the selected entry, never past its size whatever its reader would yield. -/
def readEntry (checkout : Checkout) (entry : Entry) (count : Nat) :
    Except MediaError Bytes × Checkout :=
  let wanted := min count checkout.available
  if wanted = 0 then (.ok [], checkout)
  else
    match checkout.readerOf entry with
    | .error error => (.error error, checkout)
    | .ok reader =>
      match reader.read wanted checkout.shared.signals with
      | (.ok bytes, reader, signals) =>
        (.ok bytes, (checkout.keepReader reader signals).atEntryPosition
          (checkout.stream.entryPosition + bytes.length))
      | (.error error, reader, signals) => (.error error, checkout.keepReader reader signals)

/-- Read into a buffer of `count` bytes. -/
def read (checkout : Checkout) (count : Nat) : Except MediaError Bytes × Checkout :=
  match checkout.stream.selected with
  | some entry => checkout.readEntry entry count
  | none =>
    let bytes := checkout.image.container.readAt checkout.stream.position count
    (.ok bytes, { checkout with
      stream := { checkout.stream with position := checkout.stream.position + bytes.length } })

/-- Skip forward in the selected entry. -/
def skipTo (checkout : Checkout) (entry : Entry) (target : Nat) :
    Except MediaError Unit × Checkout :=
  let skip := target - checkout.stream.entryPosition
  if skip = 0 then (.ok (), checkout.atEntryPosition target)
  else
    match checkout.readerOf entry with
    | .error error => (.error error, checkout)
    | .ok reader =>
      match ByteSource.gather (reader, checkout.shared.signals) skip with
      | (_, some error, reader, signals) => (.error error, checkout.keepReader reader signals)
      | (_, none, reader, signals) =>
        (.ok (), (checkout.keepReader reader signals).atEntryPosition target)

/-- Go to a place in the selected entry. Readers only move forward, so going back starts over. -/
def seekInEntry (checkout : Checkout) (entry : Entry) (target : Nat) :
    Except MediaError Unit × Checkout :=
  if target < checkout.stream.entryPosition then
    skipTo { checkout with stream := { checkout.stream with reader := none, entryPosition := 0 } }
      entry target
  else checkout.skipTo entry target

/-- Go to a place in whatever the stream reads. -/
def seek (target : Seek) (checkout : Checkout) : Except MediaError Nat × Checkout :=
  match target.resolve checkout.position checkout.size with
  | .error error => (.error error, checkout)
  | .ok position =>
    match checkout.stream.selected with
    | none => (.ok position, { checkout with stream := { checkout.stream with position } })
    | some entry =>
      match checkout.seekInEntry entry position with
      | (.ok _, after) => (.ok position, after)
      | (.error error, after) => (.error error, after)

/-- The stream in log output. -/
def describe (checkout : Checkout) : String :=
  let entry := match checkout.stream.selected with
    | some entry => "Some(" ++ Quoted.quote entry.name ++ ")"
    | none => "None"
  Quoted.record "MediaStream" [("url", Quoted.quote checkout.image.url), ("entry", entry),
    ("position", toString checkout.position)]

/-- A bound on the bytes and interruptions still to come. -/
def measure (checkout : Checkout) : Nat :=
  checkout.available + match checkout.stream.selected with
    | none => 0
    | some entry =>
      match checkout.readerOf entry with
      | .ok reader => reader.measure
      | .error _ => 0

/-- To open an entry takes no time, so it cannot be cancelled. -/
theorem openEntry_ne_cancelled (handler : Handler) (entry : Entry) (limits : Limits) :
    handler.openEntry entry limits ≠ .error .cancelled := by
  cases handler <;>
    simp only [Handler.openEntry, Disk.Volume.openEntry, HardDisk.Volume.openEntry,
      Document.openEntry] <;>
    first | (split <;> simp) | simp

private theorem readEntry_shrinks (checkout : Checkout) (entry : Entry) (count : Nat)
    (chosen : checkout.stream.selected = some entry) :
    ReadShrinks measure checkout (checkout.readEntry entry count) := by
  unfold readEntry
  dsimp only
  split
  · trivial
  · rename_i wanted
    split
    · rename_i error failed
      unfold readerOf at failed
      split at failed
      · simp at failed
      · have := openEntry_ne_cancelled checkout.image.handler entry checkout.image.limits
        cases error <;> first | exact absurd failed this | trivial
    · rename_i reader opened
      have falls := Reader.read_shrinks reader (min count checkout.available)
        checkout.shared.signals (by omega)
      split
      · rename_i bytes after signals step
        rw [step] at falls
        cases bytes with
        | nil => trivial
        | cons byte rest =>
          simp only [ReadShrinks, measure, available, size, position, chosen, readerOf, keepReader,
            atEntryPosition, List.length_cons] at *
          rw [opened]
          dsimp only
          omega
      · rename_i error after signals step
        rw [step] at falls
        cases error <;> first
          | trivial
          | (simp only [ReadShrinks, measure, available, size, position, chosen, readerOf,
              keepReader] at *
             rw [opened]
             dsimp only
             omega)

private theorem checkout_read_shrinks (checkout : Checkout) (count : Nat) :
    ReadShrinks measure checkout (checkout.read count) := by
  unfold read
  split
  · rename_i entry chosen
    exact readEntry_shrinks checkout entry count chosen
  · rename_i raw
    have length := checkout.image.container.length_readAt checkout.stream.position count
    cases found : checkout.image.container.readAt checkout.stream.position count with
    | nil => trivial
    | cons byte rest =>
      rw [found] at length
      simp only [ReadShrinks, measure, available, size, position, raw, List.length_cons] at *
      omega

instance : ByteSource Checkout where
  read := read
  measure := measure
  shrinks checkout count _ := checkout_read_shrinks checkout count

end Checkout
end RetroMedia
