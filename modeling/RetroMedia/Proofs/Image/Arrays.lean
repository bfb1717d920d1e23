import RetroMedia.Proofs.Image.Listing
import RetroMedia.Proofs.Image.Request

/-! Streams as positions in arrays. An abstract machine knows the bytes of the container and of each
entry beforehand, and for the rest only where it stands. The only thing that it leaves open is how
many bytes a read hands out, as long as there are some. Every stream of an image whose entries can
be read is a run of this machine, as long as nothing is cancelled. -/
namespace RetroMedia

/-- What an image holds. -/
structure Machine where
  raw : Bytes
  table : List Entry
  data : Entry → Bytes
  caseSensitive : Bool
  dataOffset : Nat
  chainSize : Disk.Location → Except MediaError Nat

/-- Where a stream stands. -/
structure Machine.State where
  position : Nat := 0
  selected : Option Entry := none
  entryPosition : Nat := 0
  cursor : Nat := 0

namespace Machine

namespace State

def place (state : State) : Nat :=
  match state.selected with
  | some _ => state.entryPosition
  | none => state.position

def moveTo (state : State) (place : Nat) : State :=
  match state.selected with
  | some _ => { state with entryPosition := place }
  | none => { state with position := place }

/-- The position in the raw container stays. -/
def select (state : State) (entry : Entry) : State :=
  { state with selected := some entry, entryPosition := 0 }

def clear (state : State) : State := { state with selected := none, entryPosition := 0 }

end State

/-- The array that a stream reads. -/
def source (machine : Machine) (state : State) : Bytes :=
  match state.selected with
  | some entry => machine.data entry
  | none => machine.raw

/-- The first entry with a name that fits. -/
def find? (machine : Machine) (pattern : String) : Option Entry :=
  machine.table.find? fun entry => Wildcard.fits pattern entry.name machine.caseSensitive

/-- Select what was found. -/
def choose (state : State) : Option Entry → Except MediaError Reply × State
  | some entry => (.ok (.entry entry), state.select entry)
  | none => (.error .notFound, state)

/-- Select what a path names. A longer path clears the selection and fails. -/
def descend (machine : Machine) (state : State) : List String → Except MediaError Reply × State
  | [] => (.error .notFound, state)
  | [name] => choose state (machine.find? name)
  | name :: _ =>
    match machine.find? name with
    | none => (.error .notFound, state)
    | some entry =>
      if entry.isDirectory && entry.incomplete then (.error .partialEntry, state.clear)
      else if entry.isDirectory then (.error .notFound, state.clear)
      else (.error .notADirectory, state.clear)

/-- Where a seek leads, as a number without bounds. -/
def goal (machine : Machine) (state : State) : Seek → Int
  | .start offset => offset
  | .current delta => state.place + delta
  | .fromEnd delta => (machine.source state).length + delta

/-- What may be answered to a request. -/
def Allows (machine : Machine) (state : State) :
    Request → Except MediaError Reply × State → Prop
  | .seekEntry pattern, outcome => outcome = choose state (machine.find? pattern)
  | .seekIndex 0, outcome => outcome = (.error .invalidEntryIndex, state)
  | .seekIndex (before + 1), outcome => outcome = choose state machine.table[before]?
  | .seekPath path, outcome => outcome = machine.descend state (Checkout.pathNames path)
  | .clearEntry, outcome => outcome = (.ok .done, state.clear)
  | .nextEntry, outcome =>
    outcome = match machine.table[state.cursor]? with
      | some entry => (.ok (.next (some entry)), { state with cursor := state.cursor + 1 })
      | none => (.ok (.next none), { state with cursor := 0 })
  | .rewind, outcome => outcome = (.ok .done, { state with cursor := 0 })
  | .seekData offset, outcome =>
    outcome =
      if Seek.positionLimit ≤ machine.dataOffset + offset then (.error .invalidOffset, state)
      else
        let position := min (machine.dataOffset + offset) machine.raw.length
        (.ok (.position position), { state.clear with position })
  | .seek target, outcome =>
    outcome =
      if machine.goal state target < 0 then (.error .invalidOffset, state)
      else
        let place := min (machine.goal state target).toNat (machine.source state).length
        (.ok (.position place), state.moveTo place)
  | .read count, outcome =>
    if 0 < count ∧ state.place < (machine.source state).length then
      ∃ size, 0 < size ∧ size ≤ min count ((machine.source state).length - state.place) ∧
        outcome = (.ok (.bytes (((machine.source state).drop state.place).take size)),
          state.moveTo (state.place + size))
    else outcome = (.ok (.bytes []), state)
  | .chainSize location, outcome => outcome = ((machine.chainSize location).map .size, state)

variable {machine : Machine} {state : State} {outcome : Except MediaError Reply × State}

theorem allows_seek_iff {target : Seek} :
    machine.Allows state (.seek target) outcome ↔
      outcome =
        if machine.goal state target < 0 then (.error .invalidOffset, state)
        else
          (.ok (.position (min (machine.goal state target).toNat (machine.source state).length)),
            state.moveTo (min (machine.goal state target).toNat (machine.source state).length)) :=
  Iff.rfl

theorem allows_read_iff {count : Nat} :
    machine.Allows state (.read count) outcome ↔
      if 0 < count ∧ state.place < (machine.source state).length then
        ∃ size, 0 < size ∧ size ≤ min count ((machine.source state).length - state.place) ∧
          outcome = (.ok (.bytes (((machine.source state).drop state.place).take size)),
            state.moveTo (state.place + size))
      else outcome = (.ok (.bytes []), state) :=
  Iff.rfl

/-- The replies to requests in a row, and where they lead. -/
inductive Runs (machine : Machine) :
    State → List Request → List (Except MediaError Reply) → State → Prop
  | nil {state : State} : Runs machine state [] [] state
  | cons {state next last : State} {request : Request} {requests : List Request}
      {reply : Except MediaError Reply} {replies : List (Except MediaError Reply)}
      (step : machine.Allows state request (reply, next))
      (rest : Runs machine next requests replies last) :
      Runs machine state (request :: requests) (reply :: replies) last

/-- How many bytes an array in memory has at most, and how far an offset reaches to either side. -/
def arrayLimit : Nat := UInt64.size / 2

/-- The arrays fit into memory. -/
def InMemory (machine : Machine) : Prop :=
  machine.raw.length < arrayLimit ∧ ∀ entry ∈ machine.table, (machine.data entry).length < arrayLimit

end Machine

/-- Offsets are signed numbers of 64 bits. -/
def Request.Encodable : Request → Prop
  | .seek (.current delta) | .seek (.fromEnd delta) =>
    -(Machine.arrayLimit : Int) ≤ delta ∧ delta < Machine.arrayLimit
  | _ => True

instance : DecidablePred Request.Encodable
  | .seek (.current _) | .seek (.fromEnd _) => inferInstanceAs (Decidable (_ ∧ _))
  | .seek (.start _) | .seekEntry _ | .seekIndex _ | .seekPath _ | .clearEntry | .nextEntry | .rewind
  | .seekData _ | .read _ | .chainSize _ => .isTrue trivial

/-- What an image with the directory `table` holds. The bytes of an entry are those that draining its
reader yields. -/
def Image.machine (image : Image) (table : List Entry) : Machine where
  raw := image.container.toBytes
  table
  data entry :=
    match image.handler.openEntry entry image.limits with
    | .ok reader => (ByteSource.drain (reader, Signals.quiet)).1
    | .error _ => []
  caseSensitive := image.handler.caseSensitive
  dataOffset := image.handler.dataOffset
  chainSize location := (image.handler.chainSize location image.limits .quiet).1

/-- Where a stream stands. -/
def Checkout.state (checkout : Checkout) : Machine.State where
  position := checkout.stream.position
  selected := checkout.stream.selected
  entryPosition := checkout.stream.entryPosition
  cursor := checkout.stream.cursor

end RetroMedia
