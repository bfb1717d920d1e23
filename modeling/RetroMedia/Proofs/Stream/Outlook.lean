import RetroMedia.Stream.Source

/-! What is still to come from a source. An outlook names the bytes ahead and the failure behind
them. Where every read takes its bytes from the front of the outlook, draining the source and
gathering from it give the outlook itself, in whatever pieces the source hands it out. Where no
failure is ahead, whoever reads the source, into buffers of whatever sizes, gets all of its bytes
before the first empty read. -/
namespace RetroMedia

/-- The bytes ahead of a reader and the failure behind them, if there is one. -/
structure Outlook where
  bytes : Bytes := []
  failure : Option MediaError := none
  deriving DecidableEq

namespace Outlook

/-- Nothing is to come. -/
def finished : Outlook := {}

/-- The failure that a reader sees which retries interruptions. -/
def lasting (outlook : Outlook) : Option MediaError := outlook.failure.filter (· != .cancelled)

/-- The outlook behind the next `count` bytes. -/
def drop (outlook : Outlook) (count : Nat) : Outlook := ⟨outlook.bytes.drop count, outlook.failure⟩

/-- Some bytes ahead of an outlook. -/
def behind (piece : Bytes) (outlook : Outlook) : Outlook := ⟨piece ++ outlook.bytes, outlook.failure⟩

/-- The outlook of a reader that is used for at most `limit` bytes. -/
def clip (outlook : Outlook) (limit : Nat) : Outlook :=
  if limit ≤ outlook.bytes.length then ⟨outlook.bytes.take limit, none⟩ else outlook

theorem behind_nil (outlook : Outlook) : outlook.behind [] = outlook := rfl

theorem drop_zero (outlook : Outlook) : outlook.drop 0 = outlook := rfl

theorem drop_behind (outlook : Outlook) (piece : Bytes) (more : Nat) :
    (outlook.behind piece).drop (piece.length + more) = outlook.drop more := by
  simp [behind, drop, List.drop_append]

/-- Behind a piece that stands at a place stands what comes after the place and the piece. -/
theorem eq_drop_of_behind {whole after : Outlook} {place : Nat} {piece : Bytes}
    (here : whole.drop place = after.behind piece) : after = whole.drop (place + piece.length) := by
  calc after
      = (after.behind piece).drop (piece.length + 0) := (drop_behind after piece 0).symm
    _ = (whole.drop place).drop piece.length := by rw [← here, Nat.add_zero]
    _ = whole.drop (place + piece.length) := by simp only [drop, List.drop_drop]

theorem bytes_clip (outlook : Outlook) (limit : Nat) :
    (outlook.clip limit).bytes = outlook.bytes.take limit := by
  unfold clip
  by_cases enough : limit ≤ outlook.bytes.length
  · rw [if_pos enough]
  · rw [if_neg enough, List.take_of_length_le (Nat.le_of_not_le enough)]

theorem clip_zero (outlook : Outlook) : outlook.clip 0 = .finished := by
  simp [clip, finished]

theorem clip_over (limit : Nat) : finished.clip limit = .finished := by
  unfold clip finished
  split <;> simp

theorem clip_behind (outlook : Outlook) {piece : Bytes} {limit : Nat} (fits : piece.length ≤ limit) :
    (outlook.behind piece).clip limit = (outlook.clip (limit - piece.length)).behind piece := by
  simp only [clip, behind, List.length_append]
  by_cases enough : limit ≤ piece.length + outlook.bytes.length
  · rw [if_pos enough, if_pos (by omega), List.take_append, List.take_of_length_le fits]
  · rw [if_neg enough, if_neg (by omega)]

end Outlook

namespace ByteSource

variable {σ : Type u}

/-- What a read does to the outlook: bytes come from its front, no bytes mean that it is over, and a
failure is reported once nothing else is ahead. An interruption is the last that is heard of. -/
def Consumes (valid : σ → Prop) (outlook : σ → Outlook) (before : σ) (count : Nat) :
    Except MediaError Bytes × σ → Prop
  | (.ok piece, after) =>
    valid after ∧ piece.length ≤ count ∧ outlook before = (outlook after).behind piece ∧
      (piece = [] → outlook before = .finished)
  | (.error error, after) =>
    valid after ∧ outlook before = ⟨[], some error⟩ ∧
      (error = .cancelled → outlook after = .finished)

/-- The outlook foretells every read of the sources that are `valid`. -/
def Foretells [ByteSource σ] (valid : σ → Prop) (outlook : σ → Outlook) : Prop :=
  ∀ source count, valid source → 0 < count →
    Consumes valid outlook source count (read source count)

/-- The bytes that a read handed out. -/
def delivered : Except MediaError Bytes → Bytes
  | .ok bytes => bytes
  | .error _ => []

variable [ByteSource σ] {valid : σ → Prop} {outlook : σ → Outlook}

/-- What every read preserves, draining preserves. -/
theorem drain_invariant {kept : σ → Bytes → Prop}
    (step : ∀ source got, kept source got →
      kept (read source pieceSize).2 (got ++ delivered (read source pieceSize).1))
    (source : σ) (got : Bytes) (start : kept source got) :
    kept (drain source).2.2 (got ++ (drain source).1) := by
  fun_induction drain source generalizing got with
  | case1 source after found => simpa [found, delivered] using step source got start
  | case2 source byte bytes after found more failure last rest ih =>
    have next := ih (got ++ byte :: bytes) (by simpa [found, delivered] using step source got start)
    rw [rest] at next
    simpa using next
  | case3 source after found ih =>
    exact ih got (by simpa [found, delivered] using step source got start)
  | case4 source error after lasting found =>
    simpa [found, delivered] using step source got start

/-- What every read preserves, gathering preserves. -/
theorem gather_invariant {kept : σ → Bytes → Prop}
    (step : ∀ source got count, kept source got →
      kept (read source count).2 (got ++ delivered (read source count).1))
    (source : σ) (wanted : Nat) (got : Bytes) (start : kept source got) :
    kept (gather source wanted).2.2 (got ++ (gather source wanted).1) := by
  fun_induction gather source wanted generalizing got with
  | case1 source wanted positive after found =>
    simpa [found, delivered] using step source got wanted start
  | case2 source wanted positive byte bytes after found more failure last rest ih =>
    have next := ih (got ++ byte :: bytes)
      (by simpa [found, delivered] using step source got wanted start)
    rw [rest] at next
    simpa using next
  | case3 source wanted positive after found ih =>
    exact ih got (by simpa [found, delivered] using step source got wanted start)
  | case4 source wanted positive error after lasting found =>
    simpa [found, delivered] using step source got wanted start
  | case5 => simpa using start

namespace Foretells

theorem of_ok (foretold : Foretells valid outlook) {source after : σ} {count : Nat} {piece : Bytes}
    (sound : valid source) (positive : 0 < count) (step : read source count = (.ok piece, after)) :
    valid after ∧ piece.length ≤ count ∧ outlook source = (outlook after).behind piece ∧
      (piece = [] → outlook source = .finished) := by
  have law := foretold source count sound positive
  rwa [step] at law

theorem of_error (foretold : Foretells valid outlook) {source after : σ} {count : Nat}
    {error : MediaError} (sound : valid source) (positive : 0 < count)
    (step : read source count = (.error error, after)) :
    valid after ∧ outlook source = ⟨[], some error⟩ ∧
      (error = .cancelled → outlook after = .finished) := by
  have law := foretold source count sound positive
  rwa [step] at law

/-- What every read preserves may be required of the sources as well. -/
theorem restrict {kept : σ → Prop} (foretold : Foretells valid outlook)
    (step : ∀ source count, kept source → kept (read source count).2) :
    Foretells (fun source => valid source ∧ kept source) outlook := by
  intro source count sound positive
  have law := foretold source count sound.1 positive
  have still := step source count sound.2
  match result : read source count with
  | (.ok piece, after) | (.error error, after) =>
    rw [result] at law still
    exact ⟨⟨law.1, still⟩, law.2⟩

/-- A read that has bytes ahead returns some of them. -/
theorem read_of_bytes (foretold : Foretells valid outlook) {source : σ} {count : Nat}
    (sound : valid source) (positive : 0 < count) (ahead : (outlook source).bytes ≠ []) :
    ∃ size after, 0 < size ∧ size ≤ count ∧ size ≤ (outlook source).bytes.length ∧
      read source count = (.ok ((outlook source).bytes.take size), after) ∧ valid after ∧
      outlook after = (outlook source).drop size := by
  match step : read source count with
  | (.error error, after) =>
    obtain ⟨_, same, _⟩ := foretold.of_error sound positive step
    rw [same] at ahead
    exact absurd rfl ahead
  | (.ok piece, after) =>
    obtain ⟨still, fits, same, ends⟩ := foretold.of_ok sound positive step
    have some : piece ≠ [] := by
      intro none
      rw [ends none] at ahead
      exact ahead rfl
    refine ⟨piece.length, after, List.length_pos_iff.2 some, fits, ?_, ?_, still, ?_⟩
    · simp [same, Outlook.behind]
    · simp [same, Outlook.behind]
    · rw [same, ← Outlook.drop_zero (outlook after)]
      exact (Outlook.drop_behind (outlook after) piece 0).symm

/-- Draining a source gives its bytes and its failure, unless that is an interruption. -/
theorem drain_eq (foretold : Foretells valid outlook) (source : σ) (sound : valid source) :
    (drain source).1 = (outlook source).bytes ∧
      (drain source).2.1 = (outlook source).lasting := by
  have piece : 0 < pieceSize := by decide
  fun_induction drain source with
  | case1 source after step =>
    obtain ⟨_, _, _, ends⟩ := foretold.of_ok sound piece step
    rw [ends rfl]
    exact ⟨rfl, rfl⟩
  | case2 source byte bytes after step more failure last rest ih =>
    obtain ⟨still, _, same, _⟩ := foretold.of_ok sound piece step
    have tail := ih still
    rw [rest] at tail
    rw [same]
    exact ⟨by simp [Outlook.behind, ← tail.1], by simpa [Outlook.behind, Outlook.lasting] using tail.2⟩
  | case3 source after step ih =>
    obtain ⟨still, same, ends⟩ := foretold.of_error sound piece step
    have tail := ih still
    rw [ends rfl] at tail
    rw [same]
    exact ⟨tail.1, tail.2⟩
  | case4 source error after lasting step =>
    obtain ⟨_, same, _⟩ := foretold.of_error sound piece step
    rw [same]
    refine ⟨rfl, ?_⟩
    have final : error ≠ .cancelled := lasting
    simp [Outlook.lasting, Option.filter, final]

/-- A source that was drained without a failure is over. -/
theorem drain_spent (foretold : Foretells valid outlook) (source : σ) (sound : valid source)
    (quiet : (drain source).2.1 = none) : outlook (drain source).2.2 = .finished := by
  have piece : 0 < pieceSize := by decide
  fun_induction drain source with
  | case1 source after step =>
    obtain ⟨_, _, same, ends⟩ := foretold.of_ok sound piece step
    exact same.symm.trans (ends rfl)
  | case2 source byte bytes after step more failure last rest ih =>
    obtain ⟨still, _⟩ := foretold.of_ok sound piece step
    rw [rest] at ih
    exact ih still quiet
  | case3 source after step ih =>
    obtain ⟨still, _⟩ := foretold.of_error sound piece step
    exact ih still quiet
  | case4 source error after lasting step => cases quiet

/-- Gathering takes bytes off the outlook. Where there are too few of them, the source is over or
has failed for good. -/
theorem gather_cases (foretold : Foretells valid outlook) (source : σ) (wanted : Nat)
    (sound : valid source) :
    ∃ failure last, gather source wanted = ((outlook source).bytes.take wanted, failure, last) ∧
      valid last ∧
      ((wanted ≤ (outlook source).bytes.length ∧ failure = none ∧
          outlook last = (outlook source).drop wanted) ∨
        ((outlook source).bytes.length < wanted ∧ failure = (outlook source).lasting ∧
          (failure = none → outlook last = .finished))) := by
  fun_induction gather source wanted with
  | case1 source wanted positive after step =>
    obtain ⟨still, _, same, ends⟩ := foretold.of_ok sound positive step
    have finished := ends rfl
    have spent : outlook after = .finished := same.symm.trans finished
    rw [finished]
    exact ⟨none, after, by simp [Outlook.finished], still, .inr ⟨positive, rfl, fun _ => spent⟩⟩
  | case2 source wanted positive byte bytes after step more failure last rest ih =>
    obtain ⟨still, fits, same, _⟩ := foretold.of_ok sound positive step
    obtain ⟨failure', last', found, sound', law⟩ := ih still
    rw [rest] at found
    cases found
    have whole : wanted = (byte :: bytes).length + (wanted - (byte :: bytes).length) := by omega
    have lasting : (outlook source).lasting = (outlook after).lasting := by
      simp [same, Outlook.behind, Outlook.lasting]
    refine ⟨failure, last, ?_, sound', ?_⟩
    · rw [same, Outlook.behind, List.take_append, List.take_of_length_le fits]
    · rw [same] at lasting ⊢
      simp only [Outlook.behind, List.length_append] at *
      rcases law with ⟨enough, quiet, left⟩ | ⟨short, failed, ends⟩
      · refine .inl ⟨by omega, quiet, ?_⟩
        rw [left, whole, ← Outlook.behind, Outlook.drop_behind, Nat.add_sub_cancel_left]
      · exact .inr ⟨by omega, failed.trans lasting.symm, ends⟩
  | case3 source wanted positive after step ih =>
    obtain ⟨still, same, ends⟩ := foretold.of_error sound positive step
    obtain ⟨failure', last', found, sound', law⟩ := ih still
    rw [ends rfl] at found law
    rw [same]
    refine ⟨failure', last', found, sound', ?_⟩
    rcases law with ⟨enough, _, _⟩ | law
    · simp [Outlook.finished] at enough
      omega
    · exact .inr law
  | case4 source wanted positive error after lasting step =>
    obtain ⟨still, same, _⟩ := foretold.of_error sound positive step
    have final : error ≠ .cancelled := lasting
    rw [same]
    refine ⟨some error, after, by simp, still, .inr ⟨positive, ?_, fun quiet => by cases quiet⟩⟩
    simp [Outlook.lasting, Option.filter, final]
  | case5 source wanted idle =>
    have none : wanted = 0 := by omega
    subst none
    exact ⟨_, _, rfl, sound, .inl ⟨Nat.zero_le _, rfl, rfl⟩⟩

end Foretells
end ByteSource
end RetroMedia

namespace RetroMedia.ByteSource

variable {σ : Type u} [ByteSource σ]

/-- What the first reads into buffers of the given sizes come to. -/
def results (source : σ) (sizes : Nat → Nat) : Nat → List (Except MediaError Bytes)
  | 0 => []
  | count + 1 =>
    let (result, after) := read source (sizes 0)
    result :: results after (fun place => sizes (place + 1)) count

/-- Whatever the sizes of the buffers, the bytes are handed out in pieces, none of them empty, and
then nothing is. -/
def YieldsExactly (source : σ) (bytes : Bytes) : Prop :=
  ∀ sizes : Nat → Nat, (∀ place, 0 < sizes place) →
    ∃ pieces : List Bytes, [] ∉ pieces ∧ pieces.flatten = bytes ∧
      results source sizes (pieces.length + 1) = (pieces ++ [[]]).map .ok

variable {valid : σ → Prop} {outlook : σ → Outlook}

/-- A source without a failure ahead yields what is ahead. -/
theorem Foretells.yieldsExactly (foretold : Foretells valid outlook) {source : σ}
    (sound : valid source) {bytes : Bytes} (ahead : outlook source = ⟨bytes, none⟩) :
    YieldsExactly source bytes := by
  induction left : bytes.length using Nat.strongRecOn generalizing source bytes with
  | ind size ih =>
    intro sizes positive
    match step : read source (sizes 0) with
    | (.error error, after) =>
      obtain ⟨_, same, _⟩ := foretold.of_error sound (positive 0) step
      cases ahead.symm.trans same
    | (.ok [], after) =>
      obtain ⟨_, _, _, ends⟩ := foretold.of_ok sound (positive 0) step
      cases ahead.symm.trans (ends rfl)
      exact ⟨[], nofun, rfl, by simp [results, step]⟩
    | (.ok (byte :: piece), after) =>
      obtain ⟨still, _, same, _⟩ := foretold.of_ok sound (positive 0) step
      rcases there : outlook after with ⟨rest, failure⟩
      rw [ahead, there] at same
      cases same
      have nearer : rest.length < size := by
        rw [← left]
        simp only [List.length_append, List.length_cons]
        omega
      obtain ⟨pieces, some, whole, run⟩ :=
        ih rest.length nearer still there rfl _ fun place => positive (place + 1)
      refine ⟨(byte :: piece) :: pieces, ?_, ?_, ?_⟩
      · simp [some]
      · rw [List.flatten_cons, whole]
      · rw [List.length_cons, results, step]
        exact congrArg (Except.ok (byte :: piece) :: ·) run

end RetroMedia.ByteSource
