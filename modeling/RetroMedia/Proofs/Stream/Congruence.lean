import RetroMedia.Proofs.Disk.Undisturbed
import RetroMedia.Stream.Reader

/-! Sources that are read alike. Where two related sources answer every read the same and stay
related, everything that is made of reads comes to the same on both. The reader of an entry is related
to itself under other signals, as long as the flag keeps its value. -/
namespace RetroMedia

namespace ByteSource

variable {σ : Type} [ByteSource σ] {related : σ → σ → Prop}

/-- Related sources are read alike, and stay related. -/
def Congruent (related : σ → σ → Prop) : Prop :=
  ∀ source source' count, related source source' →
    ∃ result after after', read source count = (result, after) ∧
      read source' count = (result, after') ∧ related after after'

theorem gather_eq (source : σ) (wanted : Nat) :
    gather source wanted =
      if 0 < wanted then
        match read source wanted with
        | (.ok [], after) => ([], none, after)
        | (.ok (byte :: bytes), after) =>
          let (more, failure, last) := gather after (wanted - (byte :: bytes).length)
          (byte :: bytes ++ more, failure, last)
        | (.error .cancelled, after) => gather after wanted
        | (.error error, after) => ([], some error, after)
      else ([], none, source) := by
  rw [gather]
  split
  · split <;> rename_i step <;> simp [step]
  · rfl

theorem drain_eq (source : σ) :
    drain source =
      match read source pieceSize with
      | (.ok [], after) => ([], none, after)
      | (.ok (byte :: bytes), after) =>
        let (more, failure, last) := drain after
        (byte :: bytes ++ more, failure, last)
      | (.error .cancelled, after) => drain after
      | (.error error, after) => ([], some error, after) := by
  rw [drain]
  split <;> rename_i step <;> simp [step]

theorem scanUntil_eq (delimiter : UInt8) (source : σ) (newestFirst : Bytes) :
    scanUntil delimiter source newestFirst =
      match read source 1 with
      | (.ok [], after) => (.ok newestFirst.reverse, after)
      | (.ok (byte :: _), after) =>
        if byte == delimiter then (.ok newestFirst.reverse, after)
        else scanUntil delimiter after (byte :: newestFirst)
      | (.error .cancelled, after) => scanUntil delimiter after newestFirst
      | (.error error, after) => (.error error, after) := by
  rw [scanUntil]
  split <;> rename_i step <;> simp [step]

namespace Congruent

variable {source source' after : σ}

/-- The other source answers the same. -/
theorem step (congruent : Congruent related) (here : related source source') {count : Nat}
    {result : Except MediaError Bytes} (same : read source count = (result, after)) :
    ∃ after', read source' count = (result, after') ∧ related after after' := by
  obtain ⟨_, _, after', same', other, onward⟩ := congruent source source' count here
  rw [same] at same'
  cases same'
  exact ⟨after', other, onward⟩

theorem gather (congruent : Congruent related) (here : related source source') (wanted : Nat) :
    ∃ bytes failure after after', gather source wanted = (bytes, failure, after) ∧
      ByteSource.gather source' wanted = (bytes, failure, after') ∧ related after after' := by
  fun_induction ByteSource.gather source wanted generalizing source' with
  | case1 source wanted positive after step =>
    obtain ⟨after', same, onward⟩ := congruent.step here step
    rw [gather_eq source', if_pos positive, same]
    exact ⟨_, _, _, _, rfl, rfl, onward⟩
  | case2 source wanted positive byte bytes after step more failure last rest ih =>
    obtain ⟨after', same, onward⟩ := congruent.step here step
    obtain ⟨_, _, _, last', found, found', finish⟩ := ih onward
    rw [rest] at found
    cases found
    rw [gather_eq source', if_pos positive, same]
    dsimp only
    rw [found']
    exact ⟨_, _, _, _, rfl, rfl, finish⟩
  | case3 source wanted positive after step ih =>
    obtain ⟨after', same, onward⟩ := congruent.step here step
    rw [gather_eq source', if_pos positive, same]
    exact ih onward
  | case4 source wanted positive error after lasting step =>
    obtain ⟨after', same, onward⟩ := congruent.step here step
    rw [gather_eq source', if_pos positive, same]
    cases error <;> first | exact ⟨_, _, _, _, rfl, rfl, onward⟩ | exact absurd rfl lasting
  | case5 source wanted idle =>
    rw [gather_eq source', if_neg idle]
    exact ⟨_, _, _, _, rfl, rfl, here⟩

theorem drain (congruent : Congruent related) (here : related source source') :
    ∃ bytes failure after after', drain source = (bytes, failure, after) ∧
      ByteSource.drain source' = (bytes, failure, after') ∧ related after after' := by
  fun_induction ByteSource.drain source generalizing source' with
  | case1 source after step =>
    obtain ⟨after', same, onward⟩ := congruent.step here step
    rw [drain_eq source', same]
    exact ⟨_, _, _, _, rfl, rfl, onward⟩
  | case2 source byte bytes after step more failure last rest ih =>
    obtain ⟨after', same, onward⟩ := congruent.step here step
    obtain ⟨_, _, _, last', found, found', finish⟩ := ih onward
    rw [rest] at found
    cases found
    rw [drain_eq source', same]
    dsimp only
    rw [found']
    exact ⟨_, _, _, _, rfl, rfl, finish⟩
  | case3 source after step ih =>
    obtain ⟨after', same, onward⟩ := congruent.step here step
    rw [drain_eq source', same]
    exact ih onward
  | case4 source error after lasting step =>
    obtain ⟨after', same, onward⟩ := congruent.step here step
    rw [drain_eq source', same]
    cases error <;> first | exact ⟨_, _, _, _, rfl, rfl, onward⟩ | exact absurd rfl lasting

theorem scanUntil (congruent : Congruent related) (here : related source source')
    (delimiter : UInt8) (newestFirst : Bytes) :
    ∃ result after after', scanUntil delimiter source newestFirst = (result, after) ∧
      ByteSource.scanUntil delimiter source' newestFirst = (result, after') ∧
      related after after' := by
  fun_induction ByteSource.scanUntil delimiter source newestFirst generalizing source' with
  | case1 source newestFirst after step =>
    obtain ⟨after', same, onward⟩ := congruent.step here step
    rw [scanUntil_eq delimiter source', same]
    exact ⟨_, _, _, rfl, rfl, onward⟩
  | case2 source newestFirst byte rest after step found =>
    obtain ⟨after', same, onward⟩ := congruent.step here step
    rw [scanUntil_eq delimiter source', same]
    dsimp only
    rw [if_pos found]
    exact ⟨_, _, _, rfl, rfl, onward⟩
  | case3 source newestFirst byte rest after step missed ih =>
    obtain ⟨after', same, onward⟩ := congruent.step here step
    rw [scanUntil_eq delimiter source', same]
    dsimp only
    rw [if_neg missed]
    exact ih onward
  | case4 source newestFirst after step ih =>
    obtain ⟨after', same, onward⟩ := congruent.step here step
    rw [scanUntil_eq delimiter source', same]
    exact ih onward
  | case5 source newestFirst error after lasting step =>
    obtain ⟨after', same, onward⟩ := congruent.step here step
    rw [scanUntil_eq delimiter source', same]
    cases error <;> first | exact ⟨_, _, _, rfl, rfl, onward⟩ | exact absurd rfl lasting

theorem readUntil (congruent : Congruent related) (here : related source source')
    (delimiter : UInt8) :
    ∃ result after after', readUntil source delimiter = (result, after) ∧
      ByteSource.readUntil source' delimiter = (result, after') ∧ related after after' :=
  congruent.scanUntil here delimiter []

theorem readUpTo (congruent : Congruent related) (here : related source source') (count : Nat) :
    ∃ result after after', readUpTo source count = (result, after) ∧
      ByteSource.readUpTo source' count = (result, after') ∧ related after after' := by
  obtain ⟨bytes, failure, _, _, same, same', onward⟩ := congruent.gather here count
  unfold ByteSource.readUpTo
  rw [same, same']
  cases failure with
  | none => exact ⟨_, _, _, rfl, rfl, onward⟩
  | some error => exact ⟨_, _, _, rfl, rfl, onward⟩

end Congruent
end ByteSource

namespace Reader

variable {fit : Signals → Prop} {flag : Bool}

/-- Nothing but the bytes of an image decides what a reader yields. -/
def Regular : Reader → Prop
  | chain data => data.walk.source.Regular
  | _ => True

/-- One reader under two signals. -/
def Paired (fit : Signals → Prop) (first second : Reader × Signals) : Prop :=
  first.1 = second.1 ∧ first.1.Regular ∧ fit first.2 ∧ fit second.2

theorem congruent (uniform : Signals.Uniform fit flag) :
    ByteSource.Congruent (Paired fit) := by
  rintro ⟨reader, signals⟩ ⟨_, signals'⟩ count ⟨rfl, regular, fits, fits'⟩
  match reader with
  | memory rest => exact ⟨_, _, _, rfl, rfl, rfl, trivial, fits, fits'⟩
  | range [] data => exact ⟨_, _, _, rfl, rfl, rfl, trivial, fits, fits'⟩
  | range (byte :: head) data => exact ⟨_, _, _, rfl, rfl, rfl, trivial, fits, fits'⟩
  | cursor data => exact ⟨_, _, _, rfl, rfl, rfl, trivial, fits, fits'⟩
  | chain data =>
    obtain ⟨result, after, last, last', same, same', onward, still, still'⟩ :=
      Disk.ChainReader.read_of_uniform uniform regular count fits fits'
    simp only [ByteSource.read, read, same, same']
    exact ⟨_, _, _, rfl, rfl, rfl, onward, still, still'⟩

end Reader
end RetroMedia
