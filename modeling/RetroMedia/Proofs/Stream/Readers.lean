import RetroMedia.Proofs.Disk.ChainOutlook
import RetroMedia.Stream.Reader

/-! The outlooks of the readers of entries. Whatever an entry is stored as, each read of it is
foretold: memory delivers what it holds, a range what the container has of it, and a chain what its
walk reaches. -/
namespace RetroMedia

namespace Container

theorem readAt_zero (container : Container) (offset : Nat) : container.readAt offset 0 = [] := by
  simp [readAt_eq]

/-- A read in two steps. -/
theorem readAt_add (container : Container) (offset first second : Nat) :
    container.readAt offset (first + second)
      = container.readAt offset first ++ container.readAt (offset + first) second := by
  simp [readAt_eq, List.take_add, List.drop_drop]

/-- To ask for more than there is makes no difference. -/
theorem readAt_length (container : Container) (offset count : Nat) :
    container.readAt offset (container.readAt offset count).length = container.readAt offset count := by
  simp only [readAt_eq, List.length_take]
  exact List.take_eq_take_min.symm

/-- The rest of a container is what a read returns and the rest behind that. -/
theorem readAt_rest (container : Container) (position count : Nat) :
    container.readAt position (container.size - position)
      = container.readAt position count
        ++ container.readAt (position + (container.readAt position count).length)
          (container.size - (position + (container.readAt position count).length)) := by
  have size := container.length_readAt position count
  have piece := container.readAt_length position count
  have whole : container.size - position = (container.readAt position count).length
      + (container.size - (position + (container.readAt position count).length)) := by omega
  calc container.readAt position (container.size - position)
      = container.readAt position (_ + _) := by rw [← whole]
    _ = _ := by rw [readAt_add, piece]

theorem readAt_eq_nil_iff {container : Container} {offset count : Nat} :
    container.readAt offset count = [] ↔ count = 0 ∨ container.size ≤ offset := by
  rw [← List.length_eq_zero_iff, length_readAt]
  omega

end Container

namespace RangeReader

/-- The part of the range that the container has; the rest of it is a failure. -/
def outlook (reader : RangeReader) : Outlook where
  bytes := reader.container.readAt reader.offset reader.remaining
  failure :=
    if reader.remaining ≤ reader.container.size - reader.offset then none else some .shortRead

theorem read_consumes (reader : RangeReader) (count : Nat) (positive : 0 < count) :
    ByteSource.Consumes (fun _ => True) outlook reader count (reader.read count) := by
  unfold read
  dsimp only
  split
  · rename_i idle
    have done : reader.remaining = 0 := by omega
    have finished : reader.outlook = .finished := by
      simp [outlook, done, Container.readAt_zero, Outlook.finished]
    exact ⟨trivial, Nat.zero_le _, (Outlook.behind_nil _).symm, fun _ => finished⟩
  · rename_i busy
    split
    · rename_i nothing
      have beyond : reader.container.size ≤ reader.offset :=
        (Container.readAt_eq_nil_iff.1 nothing).resolve_left busy
      have bytes : reader.container.readAt reader.offset reader.remaining = [] :=
        Container.readAt_eq_nil_iff.2 (.inr beyond)
      have missing : ¬ reader.remaining ≤ reader.container.size - reader.offset := by omega
      exact ⟨trivial, by simp [outlook, bytes, missing], fun cancelled => by cases cancelled⟩
    · rename_i byte rest found
      have size := reader.container.length_readAt reader.offset (min count reader.remaining)
      have piece := reader.container.readAt_length reader.offset (min count reader.remaining)
      rw [found] at size piece
      refine ⟨trivial, by omega, ?_, fun none => by simp at none⟩
      have whole : reader.remaining
          = (byte :: rest).length + (reader.remaining - (byte :: rest).length) := by omega
      simp only [outlook, Outlook.behind, Outlook.mk.injEq]
      constructor
      · calc reader.container.readAt reader.offset reader.remaining
            = reader.container.readAt reader.offset ((byte :: rest).length
                + (reader.remaining - (byte :: rest).length)) := by rw [← whole]
          _ = _ := by rw [Container.readAt_add, piece]
      · congr 1
        apply propext
        omega

end RangeReader

namespace Reader

/-- What a reader still has to deliver. -/
def outlook (reader : Reader) (signals : Signals) : Outlook :=
  match reader with
  | memory rest => ⟨rest, none⟩
  | range head data => data.outlook.behind head
  | chain data => data.outlook signals
  | cursor data => ⟨data.container.readAt data.position data.available, none⟩

/-- A failure is kept back only by a reader that has nothing else left. -/
def Sound : Reader → Prop
  | chain data => data.Sound
  | _ => True

theorem memory_consumes (rest : Bytes) (count : Nat) (signals : Signals)
    (positive : 0 < count) :
    ByteSource.Consumes (fun state : Reader × Signals => state.1.Sound)
      (fun state => state.1.outlook state.2) (memory rest, signals) count
      ((memory rest).read count signals) := by
  refine ⟨trivial, List.length_take_le .., ?_, fun none => ?_⟩
  · simp [outlook, Outlook.behind]
  · have empty : rest = [] := (List.take_eq_nil_iff.1 none).resolve_left (by omega)
    simp [outlook, empty, Outlook.finished]

theorem range_consumes (head : Bytes) (data : RangeReader) (count : Nat) (signals : Signals)
    (positive : 0 < count) :
    ByteSource.Consumes (fun state : Reader × Signals => state.1.Sound)
      (fun state => state.1.outlook state.2) (range head data, signals) count
      ((range head data).read count signals) := by
  cases head with
  | cons byte head =>
    refine ⟨trivial, List.length_take_le .., ?_, fun none => ?_⟩
    · simp [outlook, Outlook.behind, ← List.append_assoc]
    · simp at none
      omega
  | nil =>
    have law := data.read_consumes count positive
    simp only [read]
    rcases step : data.read count with ⟨error | piece, after⟩
    · rw [step] at law
      exact ⟨trivial, law.2.1, law.2.2⟩
    · rw [step] at law
      exact ⟨trivial, law.2.1, law.2.2.1, law.2.2.2⟩

theorem chain_consumes (data : Disk.ChainReader) (count : Nat) (signals : Signals)
    (sound : data.Sound) (positive : 0 < count) :
    ByteSource.Consumes (fun state : Reader × Signals => state.1.Sound)
      (fun state => state.1.outlook state.2) (chain data, signals) count
      ((chain data).read count signals) := by
  have law := Disk.ChainReader.foretells (data, signals) count sound positive
  change ByteSource.Consumes _ _ _ _ (data.read count signals) at law
  simp only [read]
  rcases step : data.read count signals with ⟨error | piece, after, signals'⟩
  · rw [step] at law
    exact law
  · rw [step] at law
    exact law

theorem cursor_consumes (data : Cursor) (count : Nat) (signals : Signals)
    (positive : 0 < count) :
    ByteSource.Consumes (fun state : Reader × Signals => state.1.Sound)
      (fun state => state.1.outlook state.2) (cursor data, signals) count
      ((cursor data).read count signals) := by
  have size := data.container.length_readAt data.position count
  refine ⟨trivial, size ▸ Nat.min_le_left .., ?_, fun none => ?_⟩
  · exact congrArg (Outlook.mk · none) (data.container.readAt_rest data.position count)
  · have beyond : data.container.size ≤ data.position :=
      (Container.readAt_eq_nil_iff.1 none).resolve_left (by omega)
    have done : data.available = 0 := by simp only [Cursor.available, Cursor.size]; omega
    simp [outlook, done, Container.readAt_zero, Outlook.finished]

/-- The outlook of a reader foretells all that it will deliver, in pieces of any size. -/
theorem foretells : ByteSource.Foretells (fun state : Reader × Signals => state.1.Sound)
    (fun state => state.1.outlook state.2) := by
  rintro ⟨reader, signals⟩ count sound positive
  cases reader with
  | memory rest => exact memory_consumes rest count signals positive
  | range head data => exact range_consumes head data count signals positive
  | chain data => exact chain_consumes data count signals sound positive
  | cursor data => exact cursor_consumes data count signals positive

end Reader
end RetroMedia
