import RetroMedia.Cartridge
import RetroMedia.Proofs.Progress.Counting
import RetroMedia.Proofs.Stream.Outlook
import RetroMedia.Proofs.Stream.Readers
import RetroMedia.Tape

/-! Directories that are tables of records. Each record in use makes an entry, the entries are
numbered in the order of the records, and an entry is read as its load address and a piece of the
container. -/
namespace RetroMedia

/-- The entries made of some records, numbered from `index` on. -/
def numberedFrom (make : Nat → Bytes → Entry) (index : Nat) (records : List Bytes) : List Entry :=
  records.mapIdx fun place record => make (index + place) record

section Numbered

variable {make : Nat → Bytes → Entry} {index place : Nat} {record : Bytes} {records : List Bytes}

theorem numberedFrom_cons : numberedFrom make index (record :: records)
    = make index record :: numberedFrom make (index + 1) records := by
  simp only [numberedFrom, List.mapIdx_cons, Nat.add_zero, Nat.add_assoc, Nat.add_comm 1]

@[simp]
theorem length_numberedFrom : (numberedFrom make index records).length = records.length :=
  List.length_mapIdx

theorem getElem?_numberedFrom (here : records[place]? = some record) :
    (numberedFrom make index records)[place]? = some (make (index + place) record) := by
  rw [numberedFrom, List.getElem?_mapIdx, here, Option.map_some]

/-- A record in use takes a step, and its entry comes before those of the other records. -/
theorem counted_numberedFrom_cons :
    (Progress.tick >>= fun _ =>
      Walk.counted (.ok (numberedFrom make (index + 1) records)) records.length >>= fun more =>
        pure (make index record :: more))
      = Walk.counted (.ok (numberedFrom make index (record :: records)))
          (record :: records).length := by
  rw [List.length_cons, Walk.counted_succ, numberedFrom_cons]
  congr 1
  funext _
  exact Walk.counted_bind _ _ fun more => .ok (make index record :: more)

end Numbered

namespace Entry

/-- The load address as it is served ahead of the data. -/
def addressBytes (entry : Entry) : Bytes :=
  match entry.loadAddress with
  | some address => Bytes.ofWord16 address
  | none => []

/-- How many bytes of the container the entry takes up. -/
def dataSize (entry : Entry) : Nat := entry.size - entry.addressSize

end Entry

/-- What a slice holds is what a read at its place returns. -/
theorem Container.of_slice_eq_ok {container : Container} {offset length : Nat} {bytes : Bytes}
    (found : container.slice offset length = .ok bytes) :
    offset + length ≤ container.size ∧ container.readAt offset length = bytes := by
  unfold slice at found
  split at found
  · rename_i fits
    exact ⟨fits, Except.ok.inj found⟩
  · cases found

/-- A range that the container has all of yields what is served first and then its bytes. -/
theorem Reader.range_yields {head : Bytes} {data : RangeReader}
    (inside : data.remaining ≤ data.container.size - data.offset) (signals : Signals) :
    ByteSource.YieldsExactly (range head data, signals)
      (head ++ data.container.readAt data.offset data.remaining) := by
  have sound : (range head data).Sound := trivial
  refine Reader.foretells.yieldsExactly sound ?_
  change Outlook.behind head data.outlook = _
  rw [RangeReader.outlook, if_pos inside]
  rfl

/-- An entry whose data lies in the container is read as its load address and its data. -/
theorem Entry.range_yields {entry : Entry} {container : Container}
    (inside : entry.dataSize ≤ container.size - entry.offset) (signals : Signals) :
    ByteSource.YieldsExactly
      (Reader.withLoadAddress entry.loadAddress
        ⟨container, entry.offset, entry.size - entry.addressSize⟩, signals)
      (entry.addressBytes ++ container.readAt entry.offset entry.dataSize) :=
  Reader.range_yields inside signals

end RetroMedia
