import RetroMedia.Proofs.Stream.Steady

/-! Readers whose reads a flag may disturb. What is ahead of a reader where nothing is cancelled tells
what each undisturbed read does. A reading of the flag that finds it set leaves a reader with nothing
more to deliver, and whoever retries interruptions is not told. -/
namespace RetroMedia

namespace Outlook

/-- What a read makes of an outlook: it takes bytes off the front and finds none only where all is
over, or it reports the failure and leaves no bytes. -/
def Gives (before after : Outlook) : Except MediaError Bytes → Prop
  | .ok piece => before = after.behind piece ∧ (piece = [] → before = .finished)
  | .error error =>
    before = ⟨[], some error⟩ ∧ after.bytes = [] ∧ (error = .cancelled → after = .finished)

/-- Nothing is delivered any more, and no failure is reported to those who retry interruptions. -/
def Silent (outlook : Outlook) : Prop := outlook.bytes = [] ∧ outlook.lasting = none

theorem silent_finished : finished.Silent := ⟨rfl, rfl⟩

/-- What gathering makes of an outlook. Undisturbed, it takes bytes off the front, and where there are
too few of them it leaves none. Disturbed, it leaves nothing to deliver and reports nothing. -/
def Gathers (before after : Outlook) (wanted : Nat) (failure : Option MediaError)
    (disturbed : Prop) : Prop :=
  (¬ disturbed ∧ wanted ≤ before.bytes.length ∧ failure = none ∧ after = before.drop wanted) ∨
    (¬ disturbed ∧ before.bytes.length < wanted ∧ failure = before.lasting ∧ after.bytes = [] ∧
      (failure = none → after.lasting = none)) ∨
    (disturbed ∧ failure = none ∧ after.Silent)

variable {before middle after : Outlook} {wanted : Nat} {failure : Option MediaError}
  {disturbed disturbed' : Prop}

theorem Gathers.iff (gathers : before.Gathers after wanted failure disturbed)
    (same : disturbed ↔ disturbed') : before.Gathers after wanted failure disturbed' := by
  rwa [propext same] at gathers

/-- A piece is read, and the others are gathered behind it. -/
theorem Gathers.behind {piece : Bytes} (fits : piece.length ≤ wanted)
    (gathers : middle.Gathers after (wanted - piece.length) failure disturbed) :
    (middle.behind piece).Gathers after wanted failure disturbed := by
  have size : (middle.behind piece).bytes.length = piece.length + middle.bytes.length :=
    List.length_append
  rcases gathers with ⟨calm, enough, quiet, rest⟩ | ⟨calm, short, failed, rest⟩ | stopped
  · refine .inl ⟨calm, by omega, quiet, ?_⟩
    rw [rest, ← drop_behind middle piece, Nat.add_sub_cancel' fits]
  · exact .inr (.inl ⟨calm, by omega, failed, rest⟩)
  · exact .inr (.inr stopped)

/-- What is gathered behind a disturbance changes nothing. -/
theorem Gathers.of_silent (silent : middle.Silent) {less : Nat}
    (gathers : middle.Gathers after less failure disturbed) (hit : disturbed') :
    before.Gathers after wanted failure disturbed' := by
  obtain ⟨nothing, quiet⟩ := silent
  refine .inr (.inr ⟨hit, ?_⟩)
  rcases gathers with ⟨_, _, free, rest⟩ | ⟨_, _, failed, rest, still⟩ | ⟨_, stopped⟩
  · refine ⟨free, ?_, ?_⟩
    · rw [rest, drop, nothing, List.drop_nil]
    · rw [rest]
      exact quiet
  · have free := failed.trans quiet
    exact ⟨free, rest, still free⟩
  · exact stopped

end Outlook

namespace Disk.ChainReader

variable {reader : ChainReader}

/-- Where nothing is cancelled, the rest of the course is ahead of a reader that is not exhausted. -/
theorem ahead_quiet (honest : reader.walk.source.Honest) (going : reader.exhausted = false) :
    reader.ahead .quiet
      = ⟨reader.block ++ payload reader.walk.course.1, reader.walk.course.2⟩ := by
  obtain ⟨_, step, _⟩ := ChainWalk.sectors_of_calm honest Signals.calm_quiet
  rw [ahead, if_neg (by simp [going]), step]

/-- Filling a buffer takes its bytes from what is ahead where nothing is cancelled, or a reading of the
flag ends it for good. -/
theorem fill_disturbed (honest : reader.walk.source.Honest) (wanted : Nat) (signals : Signals) :
    ∃ bytes failure after signals', reader.fill wanted signals = (bytes, failure, after, signals') ∧
      signals.Follows signals' ∧ after.walk.source = reader.walk.source ∧
      after.pending = reader.pending ∧
      ((¬ signals.Interrupted signals' ∧
          match failure with
          | none => reader.ahead .quiet = (after.ahead .quiet).behind bytes ∧
              (bytes.length < wanted → after.ahead .quiet = .finished)
          | some error => reader.ahead .quiet = ⟨bytes, some error⟩ ∧ after.exhausted = true) ∨
        (signals.Interrupted signals' ∧ failure = some .cancelled ∧ after.exhausted = true)) := by
  fun_induction ChainReader.fill reader wanted signals with
  | case1 reader wanted signals idle =>
    refine ⟨_, _, _, _, rfl, .refl _, rfl, rfl, .inl ⟨Signals.not_interrupted_self _, rfl, ?_⟩⟩
    rintro short
    rcases idle with none | finished
    · simp [none] at short
    · exact ahead_of_exhausted reader .quiet finished
  | case2 reader wanted signals idle left piece more failure after signals' filled ih =>
    have going : reader.exhausted = false := by simpa using fun finished => idle (.inr finished)
    have split : reader.ahead .quiet
        = ({ reader with block := reader.block.drop wanted }.ahead .quiet).behind piece := by
      simp only [ahead, going, Bool.false_eq_true, if_false, Outlook.behind, ← List.append_assoc]
      rw [List.take_append_drop]
    have size : piece.length ≤ wanted := List.length_take_le ..
    obtain ⟨_, _, _, _, same, follows, source, kept, law⟩ := ih honest
    rw [filled] at same
    cases same
    refine ⟨_, _, _, _, rfl, follows, source, kept, ?_⟩
    rw [split]
    rcases law with ⟨clear, law⟩ | stopped
    · refine .inl ⟨clear, ?_⟩
      cases failure with
      | some error =>
        obtain ⟨ahead, finished⟩ := law
        rw [ahead]
        exact ⟨rfl, finished⟩
      | none =>
        obtain ⟨ahead, ends⟩ := law
        rw [ahead]
        refine ⟨by simp [Outlook.behind], fun short => ends ?_⟩
        simp only [List.length_append] at short
        omega
    · exact .inr stopped
  | case3 reader wanted signals idle left walk signals' step =>
    have going : reader.exhausted = false := by simpa using fun finished => idle (.inr finished)
    have empty : reader.block = [] := Classical.not_not.1 left
    obtain ⟨_, _, _, same, follows, source, ⟨_, stopped, _⟩ | ⟨clear, ends⟩⟩ :=
      reader.walk.advance_cases honest signals
    · rw [step] at same
      cases same
      cases stopped
    · rw [step] at same
      cases same
      obtain ⟨ends, rfl⟩ := ends
      have finished := ahead_of_exhausted { reader with exhausted := true } .quiet rfl
      have here : reader.ahead .quiet = .finished := by
        rw [ahead_quiet honest going, ends, empty]
        rfl
      refine ⟨_, _, _, _, rfl, follows, rfl, rfl, .inl ⟨clear, ?_, fun _ => finished⟩⟩
      rw [here, finished]
      rfl
  | case4 reader wanted signals idle left error walk signals' step =>
    have going : reader.exhausted = false := by simpa using fun finished => idle (.inr finished)
    have empty : reader.block = [] := Classical.not_not.1 left
    obtain ⟨_, _, _, same, follows, source, ⟨hit, stopped, _⟩ | ⟨clear, ends⟩⟩ :=
      reader.walk.advance_cases honest signals
    · rw [step] at same
      cases same
      cases stopped
      exact ⟨_, _, _, _, rfl, follows, source, rfl, .inr ⟨hit, rfl, rfl⟩⟩
    · rw [step] at same
      cases same
      refine ⟨_, _, _, _, rfl, follows, source, rfl, .inl ⟨clear, ?_, rfl⟩⟩
      rw [ahead_quiet honest going, ends, empty]
      rfl
  | case5 reader wanted signals idle left sector walk signals' step ih =>
    have going : reader.exhausted = false := by simpa using fun finished => idle (.inr finished)
    have empty : reader.block = [] := Classical.not_not.1 left
    obtain ⟨_, _, _, same, follows, source, ⟨_, stopped, _⟩ | ⟨clear, onward⟩⟩ :=
      reader.walk.advance_cases honest signals
    · rw [step] at same
      cases same
      cases stopped
    · rw [step] at same
      cases same
      have honest' : walk.source.Honest := source ▸ honest
      have there : { reader with walk, block := sector.data.drop 2 }.ahead .quiet
          = ⟨sector.data.drop 2 ++ payload walk.course.1, walk.course.2⟩ :=
        ahead_quiet honest' going
      have here : reader.ahead .quiet
          = { reader with walk, block := sector.data.drop 2 }.ahead .quiet := by
        rw [there, ahead_quiet honest going, onward, empty]
        rfl
      obtain ⟨_, _, _, _, same, on, source', kept, law⟩ := ih honest'
      rw [same, here]
      refine ⟨_, _, _, _, rfl, follows.trans on, source'.trans source, kept, ?_⟩
      rcases law with ⟨quiet, law⟩ | ⟨hit, stopped⟩
      · exact .inl ⟨Signals.not_interrupted_trans follows on clear quiet, law⟩
      · exact .inr ⟨(Signals.interrupted_iff follows on).2 (.inr hit), stopped⟩

/-- A read goes on as if nothing were cancelled, or a reading of the flag silences the reader. -/
theorem read_disturbed (honest : reader.walk.source.Honest) (sound : reader.Sound) {wanted : Nat}
    (positive : 0 < wanted) (signals : Signals) :
    ∃ result after signals', reader.read wanted signals = (result, after, signals') ∧
      signals.Follows signals' ∧ after.walk.source = reader.walk.source ∧ after.Sound ∧
      ((¬ signals.Interrupted signals' ∧
          (reader.outlook .quiet).Gives (after.outlook .quiet) result) ∨
        (signals.Interrupted signals' ∧ (after.outlook .quiet).Silent ∧
          ∀ error, result = .error error → error = .cancelled)) := by
  unfold read
  cases held : reader.pending with
  | some error =>
    have ended : { reader with pending := none }.outlook .quiet = .finished :=
      ahead_of_exhausted _ _ (sound (by simp [held]))
    refine ⟨_, _, _, rfl, .refl _, rfl, fun none => by simp at none,
      .inl ⟨Signals.not_interrupted_self _, ?_, ?_, fun _ => ended⟩⟩
    · rw [outlook, held]
    · rw [ended]
      rfl
  | none =>
    obtain ⟨bytes, failure, after, signals', step, follows, source, kept, law⟩ :=
      fill_disturbed honest wanted signals
    rw [step]
    have still : after.pending = none := kept.trans held
    have here : reader.outlook .quiet = reader.ahead .quiet := by rw [outlook, held]
    have there : after.outlook .quiet = after.ahead .quiet := by rw [outlook, still]
    have sound' : after.Sound := fun pending => by simp [still] at pending
    rcases law with ⟨clear, law⟩ | ⟨hit, stopped, finished⟩
    · cases failure with
      | none =>
        obtain ⟨ahead, ends⟩ := law
        refine ⟨_, _, _, rfl, follows, source, sound', .inl ⟨clear, ?_, fun nothing => ?_⟩⟩
        · rw [here, ahead, there]
        · subst nothing
          rw [here, ahead, ends positive]
          rfl
      | some error =>
        obtain ⟨ahead, finished⟩ := law
        have ended := ahead_of_exhausted after .quiet finished
        cases bytes with
        | nil =>
          refine ⟨_, _, _, rfl, follows, source, sound', .inl ⟨clear, here.trans ahead, ?_, ?_⟩⟩
          · rw [there, ended]
            rfl
          · exact fun _ => there.trans ended
        | cons byte bytes =>
          refine ⟨_, _, _, rfl, follows, source, fun _ => finished, .inl ⟨clear, ?_, ?_⟩⟩
          · rw [here, ahead]
            simp [outlook, Outlook.behind]
          · intro nothing
            cases nothing
    · subst stopped
      have ended := ahead_of_exhausted after .quiet finished
      cases bytes with
      | nil =>
        refine ⟨_, _, _, rfl, follows, source, sound', .inr ⟨hit, ?_, ?_⟩⟩
        · rw [there, ended]
          exact Outlook.silent_finished
        · rintro error ⟨⟩
          rfl
      | cons byte bytes =>
        refine ⟨_, _, _, rfl, follows, source, fun _ => finished, .inr ⟨hit, ⟨rfl, rfl⟩, ?_⟩⟩
        rintro error ⟨⟩

/-- A buffer for a single byte is empty if filling it fails. -/
theorem bytes_of_fill_failed {signals signals' : Signals} {bytes : Bytes} {error : MediaError}
    {after : ChainReader} (filled : reader.fill 1 signals = (bytes, some error, after, signals')) :
    bytes = [] := by
  generalize size : 1 = wanted at filled
  fun_induction ChainReader.fill reader wanted signals with
  | case1 reader wanted signals idle => cases filled
  | case2 reader wanted signals idle left piece more failure last signals'' rest ih =>
    have some : piece.length = wanted := by
      have := List.length_pos_iff.2 left
      simp only [piece, List.length_take]
      omega
    rw [some, Nat.sub_self, fill, dif_pos (.inl rfl)] at rest
    cases rest
    cases filled
  | case3 reader wanted signals idle left walk signals'' step => cases filled
  | case4 reader wanted signals idle left error walk signals'' step =>
    cases filled
    rfl
  | case5 reader wanted signals idle left sector walk signals'' step ih => exact ih size filled

/-- A read of a single byte that succeeds was not disturbed. -/
theorem clear_of_read_byte (honest : reader.walk.source.Honest) {signals signals' : Signals}
    {piece : Bytes} {after : ChainReader} (step : reader.read 1 signals = (.ok piece, after, signals')) :
    ¬ signals.Interrupted signals' := by
  obtain ⟨bytes, failure, last, signals'', filled, _, _, _, law⟩ := fill_disturbed honest 1 signals
  unfold read at step
  split at step
  · cases step
  · rw [filled] at step
    rcases law with ⟨clear, _⟩ | ⟨_, rfl, _⟩
    · split at step <;> rename_i same <;> cases same <;> cases step <;> exact clear
    · obtain rfl := bytes_of_fill_failed filled
      cases step

end Disk.ChainReader

/-- Behind the end of its container a range stays where it is. -/
theorem RangeReader.bytes_of_failed {data : RangeReader} {count : Nat} (positive : 0 < count)
    {error : MediaError} (failed : (data.read count).1 = .error error) :
    (data.read count).2.outlook.bytes = [] := by
  have law := data.read_consumes count positive
  rcases step : data.read count with ⟨_ | _, after⟩
  · rw [step] at law
    unfold read at step
    dsimp only at step
    split at step
    · cases step
    · split at step <;> cases step
      exact congrArg Outlook.bytes law.2.1
  · rw [step] at failed
    cases failed

namespace Reader

variable {reader : Reader}

/-- A read of a reader that has no signals to heed. -/
private theorem gives_of_consumes {result : Except MediaError Bytes} {after : Reader} {count : Nat}
    {signals : Signals}
    (law : ByteSource.Consumes (fun state : Reader × Signals => state.1.Sound)
      (fun state => state.1.outlook state.2) (reader, signals) count (result, after, signals))
    (plain : reader.outlook signals = reader.outlook .quiet)
    (plain' : after.outlook signals = after.outlook .quiet)
    (mute : ∀ error, result = .error error → (after.outlook .quiet).bytes = []) :
    after.Sound ∧ (reader.outlook .quiet).Gives (after.outlook .quiet) result := by
  cases result with
  | ok piece =>
    obtain ⟨sound, _, same, ends⟩ := law
    dsimp only at same ends
    rw [plain] at same ends
    rw [plain'] at same
    exact ⟨sound, same, ends⟩
  | error error =>
    obtain ⟨sound, same, ends⟩ := law
    dsimp only at same ends
    rw [plain] at same
    rw [plain'] at ends
    exact ⟨sound, same, mute error rfl, ends⟩

/-- A read goes on as if nothing were cancelled, or a reading of the flag silences the reader. -/
theorem read_disturbed (honest : reader.Honest) (sound : reader.Sound) {count : Nat}
    (positive : 0 < count) (signals : Signals) :
    ∃ result after signals', reader.read count signals = (result, after, signals') ∧
      signals.Follows signals' ∧ after.Honest ∧ after.Sound ∧
      ((¬ signals.Interrupted signals' ∧
          (reader.outlook .quiet).Gives (after.outlook .quiet) result) ∨
        (signals.Interrupted signals' ∧ (after.outlook .quiet).Silent ∧
          ∀ error, result = .error error → error = .cancelled)) := by
  match reader with
  | chain data =>
    obtain ⟨result, after, signals', step, follows, source, sound', law⟩ :=
      Disk.ChainReader.read_disturbed honest sound positive signals
    refine ⟨result, chain after, signals', ?_, follows, ?_, sound', law⟩
    · rw [read, step]
    · change after.walk.source.Honest
      rw [source]
      exact honest
  | memory rest =>
    have law := memory_consumes rest count signals positive
    obtain ⟨sound', law⟩ := gives_of_consumes law rfl rfl fun _ failed => by cases failed
    exact ⟨_, _, _, rfl, .refl _, trivial, sound', .inl ⟨Signals.not_interrupted_self _, law⟩⟩
  | cursor data =>
    have law := cursor_consumes data count signals positive
    obtain ⟨sound', law⟩ := gives_of_consumes law rfl rfl fun _ failed => by cases failed
    exact ⟨_, _, _, rfl, .refl _, trivial, sound', .inl ⟨Signals.not_interrupted_self _, law⟩⟩
  | range (byte :: head) data =>
    have law := range_consumes (byte :: head) data count signals positive
    obtain ⟨sound', law⟩ := gives_of_consumes law rfl rfl fun _ failed => by cases failed
    exact ⟨_, _, _, rfl, .refl _, trivial, sound', .inl ⟨Signals.not_interrupted_self _, law⟩⟩
  | range [] data =>
    have law := range_consumes [] data count signals positive
    obtain ⟨sound', law⟩ := gives_of_consumes law rfl rfl fun _ failed =>
      RangeReader.bytes_of_failed positive failed
    exact ⟨_, _, _, rfl, .refl _, trivial, sound', .inl ⟨Signals.not_interrupted_self _, law⟩⟩

/-- A read of a single byte that succeeds was not disturbed. -/
theorem clear_of_read_byte (honest : reader.Honest) {signals signals' : Signals} {piece : Bytes}
    {after : Reader} (step : reader.read 1 signals = (.ok piece, after, signals')) :
    ¬ signals.Interrupted signals' := by
  match reader with
  | chain data =>
    rcases read : data.read 1 signals with ⟨result, last, signals''⟩
    rw [Reader.read, read] at step
    cases step
    exact Disk.ChainReader.clear_of_read_byte honest read
  | memory rest | range (byte :: head) data | range [] data | cursor data =>
    have same : signals = signals' := congrArg (·.2.2) step
    exact same ▸ Signals.not_interrupted_self signals

/-- What gathering from a reader comes to, whatever the flag does. -/
theorem gather_disturbed (honest : reader.Honest) (sound : reader.Sound) (wanted : Nat)
    (signals : Signals) :
    ∃ bytes failure after signals',
      ByteSource.gather (reader, signals) wanted = (bytes, failure, after, signals') ∧
      signals.Follows signals' ∧ after.Honest ∧ after.Sound ∧
      (reader.outlook .quiet).Gathers (after.outlook .quiet) wanted failure
        (signals.Interrupted signals') := by
  generalize start : (reader, signals) = source
  fun_induction ByteSource.gather source wanted generalizing reader signals with
  | case1 source wanted positive after step =>
    subst start
    obtain ⟨_, after, signals', same, follows, honest', sound', law⟩ :=
      read_disturbed honest sound positive signals
    cases step.symm.trans same
    refine ⟨_, _, _, _, rfl, follows, honest', sound', ?_⟩
    rcases law with ⟨clear, here, ends⟩ | ⟨hit, silent, _⟩
    · have finished := ends rfl
      have ended : after.outlook .quiet = .finished := here.symm.trans finished
      rw [finished, ended]
      exact .inr (.inl ⟨clear, positive, rfl, rfl, fun _ => rfl⟩)
    · exact .inr (.inr ⟨hit, rfl, silent⟩)
  | case2 source wanted positive byte bytes after step more failure last rest ih =>
    subst start
    have fits := (foretells.of_ok sound positive step).2.1
    obtain ⟨_, middle, signals', same, follows, honest', sound', law⟩ :=
      read_disturbed honest sound positive signals
    cases step.symm.trans same
    obtain ⟨_, _, after, signals'', same, on, honest'', sound'', gathers⟩ := ih honest' sound' _ rfl
    cases rest.symm.trans same
    refine ⟨_, _, _, _, rfl, follows.trans on, honest'', sound'', ?_⟩
    rcases law with ⟨clear, here, _⟩ | ⟨hit, silent, _⟩
    · rw [here]
      refine (gathers.behind fits).iff ?_
      rw [Signals.interrupted_iff follows on, or_iff_right clear]
    · exact gathers.of_silent silent ((Signals.interrupted_iff follows on).2 (.inl hit))
  | case3 source wanted positive after step ih =>
    subst start
    obtain ⟨_, middle, signals', same, follows, honest', sound', law⟩ :=
      read_disturbed honest sound positive signals
    cases step.symm.trans same
    obtain ⟨bytes, failure, after, signals'', rest, on, honest'', sound'', gathers⟩ :=
      ih honest' sound' _ rfl
    refine ⟨bytes, failure, after, signals'', rest, follows.trans on, honest'', sound'', ?_⟩
    rcases law with ⟨clear, here, _, ends⟩ | ⟨hit, silent, _⟩
    · -- An interruption that was kept back is reported now, and nothing is left behind it.
      have finished := ends rfl
      rw [finished] at gathers
      rw [here]
      rcases gathers with ⟨_, none, _⟩ | ⟨calm, _, quiet, rest⟩ | stopped
      · exact absurd (Nat.lt_of_lt_of_le positive none) (Nat.lt_irrefl 0)
      · refine .inr (.inl ⟨?_, positive, quiet, rest⟩)
        rw [Signals.interrupted_iff follows on]
        exact not_or.2 ⟨clear, calm⟩
      · exact .inr (.inr ⟨(Signals.interrupted_iff follows on).2 (.inr stopped.1), stopped.2⟩)
    · exact gathers.of_silent silent ((Signals.interrupted_iff follows on).2 (.inl hit))
  | case4 source wanted positive error after lasting step =>
    subst start
    obtain ⟨_, after, signals', same, follows, honest', sound', law⟩ :=
      read_disturbed honest sound positive signals
    cases step.symm.trans same
    have final : error ≠ .cancelled := lasting
    refine ⟨_, _, _, _, rfl, follows, honest', sound', ?_⟩
    rcases law with ⟨clear, here, nothing, _⟩ | ⟨_, _, retried⟩
    · rw [here]
      refine .inr (.inl ⟨clear, positive, ?_, nothing, fun quiet => by cases quiet⟩)
      simp [Outlook.lasting, Option.filter, final]
    · exact absurd (retried error rfl) final
  | case5 source wanted idle =>
    subst start
    have none : wanted = 0 := by omega
    subst none
    exact ⟨_, _, _, _, rfl, .refl _, honest, sound,
      .inl ⟨Signals.not_interrupted_self _, Nat.zero_le _, rfl, rfl⟩⟩

end Reader
end RetroMedia
