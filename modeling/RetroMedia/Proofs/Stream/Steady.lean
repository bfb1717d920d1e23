import RetroMedia.Proofs.Disk.ChainWalk
import RetroMedia.Proofs.Stream.Readers

/-! Readers where nothing is cancelled. What such a reader faces does not depend on the signals, so
it can be told before any of it is read, and every read takes its bytes off the front of it. -/
namespace RetroMedia

namespace Disk.ChainReader

variable {reader : ChainReader} {signals signals' : Signals}

theorem fill_follows (honest : reader.walk.source.Honest) (wanted : Nat) (signals : Signals) :
    (reader.fill wanted signals).2.2.1.walk.source = reader.walk.source ∧
      signals.Follows (reader.fill wanted signals).2.2.2 := by
  fun_induction ChainReader.fill reader wanted signals with
  | case1 => exact ⟨rfl, .refl _⟩
  | case2 reader wanted signals idle left piece more failure after signals' filled ih =>
    rw [filled] at ih
    exact ih honest
  | case3 reader wanted signals idle left walk signals' step
  | case4 reader wanted signals idle left error walk signals' step =>
    obtain ⟨_, _, _, same, follows, source, _⟩ := reader.walk.advance_cases honest signals
    rw [step] at same
    cases same
    exact ⟨source, follows⟩
  | case5 reader wanted signals idle left sector walk signals' step ih =>
    obtain ⟨_, _, _, same, follows, source, _⟩ := reader.walk.advance_cases honest signals
    rw [step] at same
    cases same
    obtain ⟨still, on⟩ := ih (source ▸ honest)
    exact ⟨still.trans source, follows.trans on⟩

theorem read_follows (honest : reader.walk.source.Honest) (wanted : Nat) (signals : Signals) :
    (reader.read wanted signals).2.1.walk.source = reader.walk.source ∧
      signals.Follows (reader.read wanted signals).2.2 := by
  have law := fill_follows honest wanted signals
  unfold read
  split
  · exact ⟨rfl, .refl _⟩
  · split <;> rename_i filled <;> rw [filled] at law <;> exact law

/-- Where nothing will be cancelled, the signals do not matter. -/
theorem outlook_of_calm (honest : reader.walk.source.Honest) (calm : signals.Calm)
    (calm' : signals'.Calm) : reader.outlook signals = reader.outlook signals' := by
  obtain ⟨_, step, _⟩ := ChainWalk.sectors_of_calm honest calm
  obtain ⟨_, step', _⟩ := ChainWalk.sectors_of_calm honest calm'
  unfold outlook ahead
  rw [step, step']

/-- What the reader of a whole chain delivers where nothing will be cancelled. -/
theorem outlook_start {source : SectorSource} {signals : Signals}
    (honest : source.Honest) (location : Location) (limits : Limits) (calm : signals.Calm) :
    (start source location limits).outlook signals
      = ⟨payload (ChainWalk.start source location limits).course.1,
          (ChainWalk.start source location limits).course.2⟩ := by
  have honest' : (ChainWalk.start source location limits).source.Honest := honest
  obtain ⟨signals', step, _⟩ := ChainWalk.sectors_of_calm honest' calm
  rw [ChainReader.outlook, ChainReader.start]
  dsimp only
  rw [ChainReader.ahead, if_neg (by simp), step]
  rfl

end Disk.ChainReader

namespace Reader

/-- Only the sectors of a chain decide what its reader yields. -/
def Honest : Reader → Prop
  | chain data => data.walk.source.Honest
  | _ => True

variable {reader : Reader} {outlook' : Outlook} {signals signals' : Signals}

theorem read_follows (honest : reader.Honest) (count : Nat) (signals : Signals) :
    (reader.read count signals).2.1.Honest ∧ signals.Follows (reader.read count signals).2.2 := by
  match reader with
  | memory rest => exact ⟨trivial, .refl _⟩
  | range [] data => exact ⟨trivial, .refl _⟩
  | range (byte :: head) data => exact ⟨trivial, .refl _⟩
  | cursor data => exact ⟨trivial, .refl _⟩
  | chain data =>
    obtain ⟨source, follows⟩ := Disk.ChainReader.read_follows honest count signals
    refine ⟨?_, follows⟩
    change (data.read count signals).2.1.walk.source.Honest
    rw [source]
    exact honest

theorem outlook_of_calm (honest : reader.Honest) (calm : signals.Calm) (calm' : signals'.Calm) :
    reader.outlook signals = reader.outlook signals' := by
  cases reader with
  | chain data => exact Disk.ChainReader.outlook_of_calm honest calm calm'
  | memory | range | cursor => rfl

/-- A reader that nothing will cancel. -/
def Settled (state : Reader × Signals) : Prop :=
  state.1.Sound ∧ state.1.Honest ∧ state.2.Calm

theorem foretells_settled :
    ByteSource.Foretells Settled (fun state => state.1.outlook state.2) := by
  apply foretells.restrict
  rintro ⟨reader, signals⟩ count ⟨honest, calm⟩
  obtain ⟨still, follows⟩ := read_follows honest count signals
  exact ⟨still, calm.follows follows⟩

/-- What a reader has before it, as long as nothing is cancelled. -/
structure Faces (reader : Reader) (outlook : Outlook) : Prop where
  sound : reader.Sound
  honest : reader.Honest
  ahead : ∀ signals : Signals, signals.Calm → reader.outlook signals = outlook

theorem Settled.faces (settled : Settled (reader, signals)) :
    reader.Faces (reader.outlook signals) := by
  obtain ⟨sound, honest, calm⟩ := settled
  exact ⟨sound, honest, fun signals' calm' => outlook_of_calm honest calm' calm⟩

theorem Faces.settled (faces : reader.Faces outlook') (calm : signals.Calm) :
    Settled (reader, signals) :=
  ⟨faces.sound, faces.honest, calm⟩

/-- Some of the bytes before a reader are returned by a read, and the others stay before it. -/
theorem Faces.read (faces : reader.Faces outlook') (calm : signals.Calm) {count : Nat}
    (positive : 0 < count) (more : outlook'.bytes ≠ []) :
    ∃ size after signals', 0 < size ∧ size ≤ count ∧ size ≤ outlook'.bytes.length ∧
      reader.read count signals = (.ok (outlook'.bytes.take size), after, signals') ∧
      signals'.Calm ∧ after.Faces (outlook'.drop size) := by
  have here := faces.ahead signals calm
  obtain ⟨size, ⟨after, signals'⟩, some, fits, inside, step, settled, there⟩ :=
    foretells_settled.read_of_bytes (faces.settled calm) positive (by rw [here]; exact more)
  dsimp only at here there step inside
  rw [here] at there step inside
  have onward := Settled.faces settled
  rw [there] at onward
  exact ⟨size, after, signals', some, fits, inside, step, settled.2.2, onward⟩

/-- As many bytes as are asked for are gathered, if they are before the reader. -/
theorem Faces.gather (faces : reader.Faces outlook') (calm : signals.Calm) {wanted : Nat}
    (enough : wanted ≤ outlook'.bytes.length) :
    ∃ after signals', ByteSource.gather (reader, signals) wanted
        = (outlook'.bytes.take wanted, none, after, signals') ∧
      signals'.Calm ∧ after.Faces (outlook'.drop wanted) := by
  have here := faces.ahead signals calm
  obtain ⟨failure, ⟨after, signals'⟩, step, settled, law⟩ :=
    foretells_settled.gather_cases (reader, signals) wanted (faces.settled calm)
  dsimp only at step law
  rw [here] at step law
  rcases law with ⟨_, quiet, there⟩ | ⟨short, _⟩
  · have onward := Settled.faces settled
    rw [there] at onward
    rw [quiet] at step
    exact ⟨after, signals', step, settled.2.2, onward⟩
  · exact absurd enough (Nat.not_le_of_lt short)

/-- Draining a reader yields all that is before it. -/
theorem Faces.drain (faces : reader.Faces outlook') (calm : signals.Calm) :
    (ByteSource.drain (reader, signals)).1 = outlook'.bytes ∧
      (ByteSource.drain (reader, signals)).2.1 = outlook'.lasting := by
  have law := foretells_settled.drain_eq (reader, signals) (faces.settled calm)
  dsimp only at law
  rwa [faces.ahead signals calm] at law

end Reader
end RetroMedia
