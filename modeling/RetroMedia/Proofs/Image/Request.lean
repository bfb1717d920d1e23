import RetroMedia.Image.Checkout
import RetroMedia.Proofs.Progress.Lockstep

/-! Requests to a stream, and what it answers to a number of them in a row. Once the directory of an
image is known, an entry is found in it and selected without another look at the container. -/
namespace RetroMedia

inductive Request where
  | seekEntry (pattern : String)
  | seekIndex (index : Nat)
  | seekPath (path : String)
  | clearEntry
  | nextEntry
  | rewind
  | seekData (offset : Nat)
  | seek (target : Seek)
  | read (count : Nat)
  | chainSize (location : Disk.Location)

inductive Reply where
  | done
  | entry (entry : Entry)
  | next (entry : Option Entry)
  | position (position : Nat)
  | bytes (bytes : Bytes)
  | size (size : Nat)

namespace Checkout

def answered (reply : α → Reply) :
    EStateM.Result MediaError Checkout α → Except MediaError Reply × Checkout
  | .ok value after => (.ok (reply value), after)
  | .error error after => (.error error, after)

/-- Serve one request. -/
def serve (checkout : Checkout) : Request → Except MediaError Reply × Checkout
  | .seekEntry pattern => answered .entry (seekEntry pattern checkout)
  | .seekIndex index => answered .entry (seekIndex index checkout)
  | .seekPath path => answered .entry (seekPath path checkout)
  | .clearEntry => answered (fun _ => .done) (clearEntry checkout)
  | .nextEntry => answered .next (nextEntry checkout)
  | .rewind => answered (fun _ => .done) (rewind checkout)
  | .seekData offset => answered .position (seekData offset checkout)
  | .seek target => (checkout.seek target).map (·.map .position) id
  | .read count => (checkout.read count).map (·.map .bytes) id
  | .chainSize location => answered .size (chainSize location checkout)

/-- Serve requests in a row. A failure does not keep the next one from being served. -/
def serveAll (checkout : Checkout) : List Request → List (Except MediaError Reply) × Checkout
  | [] => ([], checkout)
  | request :: rest =>
    let (reply, after) := checkout.serve request
    let (replies, last) := after.serveAll rest
    (reply :: replies, last)

end Checkout

namespace Image

variable {image : Image} {signals : Signals}

theorem entries_of_ok {table : List Entry} {after : Progress}
    (listed : image.handler.entries (image.entryCounter signals) = .ok table after) :
    image.entries { signals } = (.ok table, { table := some table, signals := after.signals }) := by
  rw [entries, listed]

theorem entries_of_error {error : MediaError} {after : Progress}
    (listed : image.handler.entries (image.entryCounter signals) = .error error after) :
    image.entries { signals } = (.error error, { signals := after.signals }) := by
  rw [entries, listed]

end Image

namespace Checkout

variable {checkout after : Checkout} {table : List Entry}

/-- The directory that the handler lists is kept. -/
theorem entries_of_listed {listed : Progress} (fresh : checkout.shared.table = none)
    (step : checkout.image.handler.entries (checkout.image.entryCounter checkout.shared.signals)
      = .ok table listed) :
    entries checkout
      = .ok table { checkout with shared := { table := some table, signals := listed.signals } } := by
  rw [entries, Image.entries, fresh]
  dsimp only
  rw [step]

theorem seekEntry_of_entries (step : entries checkout = .ok table after) (pattern : String) :
    seekEntry pattern checkout = match table.find? fun entry =>
        Wildcard.fits pattern entry.name after.image.handler.caseSensitive with
      | some entry => (do select entry; return entry) after
      | none => .error .notFound after := by
  rw [seekEntry, run_of_ok step, run_get]
  split
  · rename_i entry found
    rw [found]
  · rename_i missing
    rw [missing]
    rfl

theorem seekIndex_of_entries (step : entries checkout = .ok table after) (before : Nat) :
    seekIndex (before + 1) checkout = match table[before]? with
      | some entry => (do select entry; return entry) after
      | none => .error .notFound after := by
  rw [seekIndex, run_of_ok step]
  cases table[before]? <;> rfl

/-- An entry that is listed can be selected by its number. -/
theorem seekIndex_of_listed {entry : Entry} {before : Nat} (step : entries checkout = .ok table after)
    (here : table[before]? = some entry) :
    seekIndex (before + 1) checkout = .ok entry { after with
      stream := { after.stream with selected := some entry, reader := none, entryPosition := 0 } } := by
  rw [seekIndex_of_entries step, here]
  rfl

end Checkout
end RetroMedia
