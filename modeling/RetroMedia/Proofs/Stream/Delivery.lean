import Mathlib.Data.List.TakeWhile
import RetroMedia.Proofs.Stream.Congruence
import RetroMedia.Proofs.Stream.Outlook
import RetroMedia.Stream.Cursor

/-! Sources that deliver bytes. A source may hand its bytes out in pieces of any size, and be
interrupted between them, as long as the bytes come in order and none of them gets lost. Gathering
from such a source does not show in what pieces they came. Scanning it for a delimiter, call after
call, cuts the bytes at the delimiters, and each scan of any source ends. -/
namespace RetroMedia.ByteSource

variable {σ : Type u}

/-- What a read does to the bytes ahead: it takes some off their front, none only if none are left,
or it is interrupted and leaves them all there. -/
def Delivered (ahead : σ → Bytes → Prop) (bytes : Bytes) (count : Nat) :
    Except MediaError Bytes × σ → Prop
  | (.ok piece, after) =>
    ∃ rest, bytes = piece ++ rest ∧ piece.length ≤ count ∧ (piece = [] → bytes = []) ∧
      ahead after rest
  | (.error error, after) => error = .cancelled ∧ ahead after bytes

/-- All that is ahead of a source gets delivered. -/
def Delivers [ByteSource σ] (ahead : σ → Bytes → Prop) : Prop :=
  ∀ source bytes count, ahead source bytes → 0 < count →
    Delivered ahead bytes count (read source count)

namespace Delivers

variable [ByteSource σ] {ahead : σ → Bytes → Prop}

theorem of_read (delivers : Delivers ahead) {source : σ} {bytes : Bytes} (here : ahead source bytes)
    {count : Nat} (positive : 0 < count) {step : Except MediaError Bytes × σ}
    (same : read source count = step) : Delivered ahead bytes count step :=
  same ▸ delivers source bytes count here positive

/-- Gathering takes its bytes off the front. -/
theorem gather_eq (delivers : Delivers ahead) (source : σ) (wanted : Nat) {bytes : Bytes}
    (here : ahead source bytes) :
    ∃ last, gather source wanted = (bytes.take wanted, none, last) ∧
      ahead last (bytes.drop wanted) := by
  fun_induction gather source wanted generalizing bytes with
  | case1 source wanted positive after step =>
    obtain ⟨rest, same, _, ends, left⟩ := delivers.of_read here positive step
    obtain rfl : bytes = [] := ends rfl
    obtain rfl : rest = [] := same.symm
    rw [List.take_nil, List.drop_nil]
    exact ⟨after, rfl, left⟩
  | case2 source wanted positive byte piece after step more failure last gathered ih =>
    obtain ⟨rest, rfl, fits, _, left⟩ := delivers.of_read here positive step
    obtain ⟨_, found, left⟩ := ih left
    rw [gathered] at found
    cases found
    refine ⟨last, ?_, ?_⟩
    · rw [List.take_append, List.take_of_length_le fits]
    · rwa [List.drop_append, List.drop_of_length_le fits, List.nil_append]
  | case3 source wanted positive after step ih =>
    exact ih (delivers.of_read here positive step).2
  | case4 source wanted positive error after lasting step =>
    exact absurd (delivers.of_read here positive step).1 lasting
  | case5 source wanted idle =>
    obtain rfl : wanted = 0 := Nat.eq_zero_of_not_pos idle
    exact ⟨source, rfl, here⟩

end Delivers

/-- What an outlook foretells gets delivered, unless there is a failure behind it that lasts. -/
theorem Foretells.delivers [ByteSource σ] {valid : σ → Prop} {outlook : σ → Outlook}
    (foretold : Foretells valid outlook) :
    Delivers fun source bytes =>
      valid source ∧ (outlook source).bytes = bytes ∧ (outlook source).lasting = none := by
  rintro source _ count ⟨sound, rfl, passes⟩ positive
  match step : read source count with
  | (.ok piece, after) =>
    obtain ⟨still, fits, same, ends⟩ := foretold.of_ok sound positive step
    rw [same] at passes
    exact ⟨(outlook after).bytes, congrArg Outlook.bytes same, fits,
      fun none => congrArg Outlook.bytes (ends none), still, rfl, passes⟩
  | (.error error, after) =>
    obtain ⟨still, same, ends⟩ := foretold.of_error sound positive step
    rw [same] at passes
    have interrupted : error = .cancelled := by
      simpa [Outlook.lasting, Option.filter] using passes
    refine ⟨interrupted, still, ?_, ?_⟩
    · rw [ends interrupted, same]
      rfl
    · rw [ends interrupted]
      rfl

/-- Bytes of which at most three come at a time, each time after an interruption. -/
structure Faltering where
  rest : Bytes
  ready : Bool := false

instance : ByteSource Faltering where
  read source count :=
    if source.ready then
      (.ok (source.rest.take (min count 3)), ⟨source.rest.drop (min count 3), false⟩)
    else (.error .cancelled, { source with ready := true })
  measure source := 2 * source.rest.length + (if source.ready then 0 else 1)
  shrinks source count positive := by
    obtain ⟨rest, _ | _⟩ := source
    · simp [ReadShrinks]
    · cases rest with
      | nil => simp [ReadShrinks]
      | cons byte rest =>
        obtain ⟨few, same⟩ : ∃ few, min count 3 = few + 1 := ⟨min count 3 - 1, by omega⟩
        simp only [if_true, same, List.take_succ_cons, List.drop_succ_cons, ReadShrinks,
          List.length_cons, List.length_drop]
        simp
        omega

namespace Faltering

theorem delivers : Delivers fun source bytes => rest source = bytes := by
  rintro ⟨rest, _ | _⟩ bytes count rfl positive
  · exact ⟨rfl, rfl⟩
  · refine ⟨rest.drop (min count 3), (List.take_append_drop ..).symm, ?_, fun none => ?_, rfl⟩
    · rw [List.length_take]
      omega
    · exact (List.take_eq_nil_iff.1 none).resolve_left (by omega)

end Faltering

end RetroMedia.ByteSource

namespace RetroMedia.ByteSource

variable {σ : Type u}

section Cutting

variable {delimiter : UInt8} {bytes : Bytes} {pieces : List Bytes}

/-- The bytes before the first delimiter. -/
def pieceOf (delimiter : UInt8) (bytes : Bytes) : Bytes := bytes.takeWhile (· != delimiter)

/-- The bytes behind the first delimiter. -/
def restOf (delimiter : UInt8) (bytes : Bytes) : Bytes :=
  (bytes.dropWhile (· != delimiter)).drop 1

theorem pieceOf_cons_self (rest : Bytes) : pieceOf delimiter (delimiter :: rest) = [] := by
  simp [pieceOf]

theorem restOf_cons_self (rest : Bytes) : restOf delimiter (delimiter :: rest) = rest := by
  simp [restOf]

theorem pieceOf_cons {byte : UInt8} (other : byte ≠ delimiter) (rest : Bytes) :
    pieceOf delimiter (byte :: rest) = byte :: pieceOf delimiter rest := by
  simp [pieceOf, other]

theorem restOf_cons {byte : UInt8} (other : byte ≠ delimiter) (rest : Bytes) :
    restOf delimiter (byte :: rest) = restOf delimiter rest := by
  simp [restOf, other]

theorem notMem_pieceOf (delimiter : UInt8) (bytes : Bytes) :
    delimiter ∉ pieceOf delimiter bytes := by
  intro member
  simpa using List.mem_takeWhile_imp member

/-- There is no delimiter, or the bytes are cut at the first one. -/
theorem cut_cases (delimiter : UInt8) (bytes : Bytes) :
    (delimiter ∉ bytes ∧ pieceOf delimiter bytes = bytes ∧ restOf delimiter bytes = []) ∨
      (delimiter ∈ bytes ∧
        bytes = pieceOf delimiter bytes ++ delimiter :: restOf delimiter bytes) := by
  induction bytes with
  | nil => exact .inl ⟨nofun, rfl, rfl⟩
  | cons byte rest ih =>
    by_cases here : byte = delimiter
    · subst here
      rw [pieceOf_cons_self, restOf_cons_self]
      exact .inr ⟨List.mem_cons_self, rfl⟩
    · rw [pieceOf_cons here, restOf_cons here, List.mem_cons, or_iff_right (Ne.symm here)]
      rcases ih with ⟨absent, whole, none⟩ | ⟨present, split⟩
      · exact .inl ⟨absent, by rw [whole], none⟩
      · exact .inr ⟨present, by rw [List.cons_append, ← split]⟩

/-- What a cut takes off: the piece, and the delimiter if there is one. -/
theorem length_cut (delimiter : UInt8) (bytes : Bytes) :
    (pieceOf delimiter bytes).length + (if delimiter ∈ bytes then 1 else 0)
      + (restOf delimiter bytes).length = bytes.length := by
  rcases cut_cases delimiter bytes with ⟨absent, whole, none⟩ | ⟨present, split⟩
  · rw [if_neg absent, whole, none]
    rfl
  · have total := congrArg List.length split
    rw [List.length_append, List.length_cons] at total
    rw [if_pos present]
    omega

/-- Behind the piece and the delimiter stands the rest. -/
theorem drop_cut (delimiter : UInt8) (bytes : Bytes) :
    bytes.drop ((pieceOf delimiter bytes).length + if delimiter ∈ bytes then 1 else 0)
      = restOf delimiter bytes := by
  rcases cut_cases delimiter bytes with ⟨absent, whole, none⟩ | ⟨present, split⟩
  · rw [if_neg absent, whole, none, Nat.add_zero, List.drop_length]
  · rw [if_pos present]
    generalize pieceOf delimiter bytes = piece at split ⊢
    generalize restOf delimiter bytes = rest at split ⊢
    rw [split, ← List.drop_drop, List.drop_left]
    rfl

theorem length_restOf_lt (some : bytes ≠ []) : (restOf delimiter bytes).length < bytes.length := by
  have total := length_cut delimiter bytes
  by_cases present : delimiter ∈ bytes
  · rw [if_pos present] at total
    omega
  · rcases cut_cases delimiter bytes with ⟨_, _, none⟩ | ⟨present', _⟩
    · rw [none]
      exact List.length_pos_iff.2 some
    · exact absurd present' present

/-- The pieces hold no delimiter, and with one behind each of them they are the bytes again, but for
a delimiter that the bytes do not end with. -/
def Joins (delimiter : UInt8) (bytes : Bytes) (pieces : List Bytes) : Prop :=
  (∀ piece ∈ pieces, delimiter ∉ piece) ∧
    pieces.flatMap (· ++ [delimiter])
      = bytes ++ if bytes = [] ∨ bytes.getLast? = some delimiter then [] else [delimiter]

theorem joins_nil : Joins delimiter [] [] := ⟨nofun, rfl⟩

theorem Joins.cons (some : bytes ≠ []) (joins : Joins delimiter (restOf delimiter bytes) pieces) :
    Joins delimiter bytes (pieceOf delimiter bytes :: pieces) := by
  obtain ⟨plain, joined⟩ := joins
  refine ⟨List.forall_mem_cons.2 ⟨notMem_pieceOf delimiter bytes, plain⟩, ?_⟩
  rw [List.flatMap_cons, joined]
  rcases cut_cases delimiter bytes with ⟨absent, whole, none⟩ | ⟨present, split⟩
  · have unended : ¬ (bytes = [] ∨ bytes.getLast? = Option.some delimiter) := by
      rintro (empty | last)
      · exact some empty
      · exact absent (List.mem_of_getLast? last)
    rw [if_neg unended, whole, none]
    simp
  · generalize pieceOf delimiter bytes = piece at split ⊢
    generalize restOf delimiter bytes = rest at split ⊢
    subst split
    cases rest <;> simp

end Cutting

section Scanning

variable [ByteSource σ] {delimiter : UInt8} {source : σ}

/-- A scan of at most so many reads. -/
def scanWithin (delimiter : UInt8) : Nat → σ → Bytes → Option (Except MediaError Bytes × σ)
  | 0, _, _ => none
  | reads + 1, source, newestFirst =>
    match read source 1 with
    | (.ok [], after) => some (.ok newestFirst.reverse, after)
    | (.ok (byte :: _), after) =>
      if byte == delimiter then some (.ok newestFirst.reverse, after)
      else scanWithin delimiter reads after (byte :: newestFirst)
    | (.error .cancelled, after) => scanWithin delimiter reads after newestFirst
    | (.error error, after) => some (.error error, after)

/-- A scan ends, at the latest with the read after those that the measure of the source allows. -/
theorem scanWithin_eq (delimiter : UInt8) (source : σ) (newestFirst : Bytes) {reads : Nat}
    (enough : measure source < reads) :
    scanWithin delimiter reads source newestFirst
      = some (scanUntil delimiter source newestFirst) := by
  fun_induction scanUntil delimiter source newestFirst generalizing reads with
  | case1 source newestFirst after step =>
    obtain ⟨reads, rfl⟩ := Nat.exists_eq_add_of_lt enough
    rw [scanWithin, step]
  | case2 source newestFirst byte rest after step found =>
    obtain ⟨reads, rfl⟩ := Nat.exists_eq_add_of_lt enough
    rw [scanWithin, step]
    exact if_pos found
  | case3 source newestFirst byte rest after step missed ih =>
    obtain ⟨reads, rfl⟩ := Nat.exists_eq_add_of_lt enough
    have falls := shrinks source 1 Nat.one_pos
    rw [step] at falls
    rw [scanWithin, step]
    exact (if_neg missed).trans (ih (Nat.lt_of_lt_of_le falls (Nat.le_add_right _ _)))
  | case4 source newestFirst after step ih =>
    obtain ⟨reads, rfl⟩ := Nat.exists_eq_add_of_lt enough
    have falls := shrinks source 1 Nat.one_pos
    rw [step] at falls
    rw [scanWithin, step]
    exact ih (Nat.lt_of_lt_of_le falls (Nat.le_add_right _ _))
  | case5 source newestFirst error after lasting step =>
    obtain ⟨reads, rfl⟩ := Nat.exists_eq_add_of_lt enough
    rw [scanWithin, step]
    cases error <;> first | rfl | exact absurd rfl lasting

/-- A scan ends within a number of reads that the source bounds, interruptions included. -/
def ScanEnds (delimiter : UInt8) (source : σ) : Prop :=
  scanWithin delimiter (measure source + 1) source [] = some (readUntil source delimiter)

theorem scanEnds (delimiter : UInt8) (source : σ) : ScanEnds delimiter source :=
  scanWithin_eq delimiter source [] (Nat.lt_succ_self _)

/-- A read of one byte takes the first one. -/
theorem Delivers.of_read_byte {ahead : σ → Bytes → Prop} (delivers : Delivers ahead)
    {after : σ} {bytes piece : Bytes} (here : ahead source bytes) {byte : UInt8}
    (step : read source 1 = (.ok (byte :: piece), after)) :
    ∃ rest, bytes = byte :: rest ∧ ahead after rest := by
  obtain ⟨rest, rfl, fits, _, left⟩ := delivers.of_read here Nat.one_pos step
  cases piece with
  | nil => exact ⟨rest, rfl, left⟩
  | cons second piece => exact absurd fits (by simp)

/-- A scan takes the bytes before the delimiter, and the delimiter. -/
theorem Delivers.scanUntil_eq {ahead : σ → Bytes → Prop} (delivers : Delivers ahead)
    (delimiter : UInt8) (source : σ) (newestFirst : Bytes) {bytes : Bytes}
    (here : ahead source bytes) :
    ∃ after, scanUntil delimiter source newestFirst
        = (.ok (newestFirst.reverse ++ pieceOf delimiter bytes), after) ∧
      ahead after (restOf delimiter bytes) := by
  fun_induction scanUntil delimiter source newestFirst generalizing bytes with
  | case1 source newestFirst after step =>
    obtain ⟨rest, same, _, ends, left⟩ := delivers.of_read here Nat.one_pos step
    obtain rfl : bytes = [] := ends rfl
    obtain rfl : rest = [] := same.symm
    exact ⟨after, by rw [pieceOf, List.takeWhile_nil, List.append_nil], left⟩
  | case2 source newestFirst byte piece after step found =>
    obtain ⟨rest, rfl, left⟩ := delivers.of_read_byte here step
    obtain rfl : byte = delimiter := eq_of_beq found
    rw [pieceOf_cons_self, restOf_cons_self, List.append_nil]
    exact ⟨after, rfl, left⟩
  | case3 source newestFirst byte piece after step missed ih =>
    obtain ⟨rest, rfl, left⟩ := delivers.of_read_byte here step
    have other : byte ≠ delimiter := by simpa using missed
    obtain ⟨last, found, left⟩ := ih left
    rw [pieceOf_cons other, restOf_cons other]
    refine ⟨last, ?_, left⟩
    rw [found, List.reverse_cons, List.append_assoc, List.singleton_append]
  | case4 source newestFirst after step ih =>
    exact ih (delivers.of_read here Nat.one_pos step).2
  | case5 source newestFirst error after lasting step =>
    exact absurd (delivers.of_read here Nat.one_pos step).1 lasting

/-- One call takes the bytes before the delimiter, and the position moves behind it. -/
def ReadsPiece (position : σ → Nat) (delimiter : UInt8) (source : σ) (ahead : Bytes) : Prop :=
  ∃ after, readUntil source delimiter = (.ok (pieceOf delimiter ahead), after) ∧
    position after = position source + (pieceOf delimiter ahead).length
      + if delimiter ∈ ahead then 1 else 0

/-- Calls up to the first one at which the source is over, with the pieces that they come to. -/
inductive Splits (exhausted : σ → Bool) (delimiter : UInt8) : σ → List Bytes → Prop
  | done {source : σ} (ended : exhausted source = true) : Splits exhausted delimiter source []
  | step {source after : σ} {piece : Bytes} {pieces : List Bytes}
      (going : exhausted source = false) (read : readUntil source delimiter = (.ok piece, after))
      (rest : Splits exhausted delimiter after pieces) :
      Splits exhausted delimiter source (piece :: pieces)

/-- The source after so many calls. -/
def afterCalls (delimiter : UInt8) : Nat → σ → σ
  | 0, source => source
  | calls + 1, source => afterCalls delimiter calls (readUntil source delimiter).2

/-- The calls come to pieces that can be joined to the bytes, and to no other pieces. -/
def SplitsInto (exhausted : σ → Bool) (delimiter : UInt8) (source : σ) (bytes : Bytes) : Prop :=
  ∃ pieces, (∀ other, Splits exhausted delimiter source other ↔ other = pieces) ∧
    Joins delimiter bytes pieces

theorem Splits.unique {exhausted : σ → Bool} {pieces other : List Bytes}
    (first : Splits exhausted delimiter source pieces)
    (second : Splits exhausted delimiter source other) : other = pieces := by
  induction first generalizing other with
  | done ended =>
    cases second with
    | done _ => rfl
    | step going _ _ => cases going.symm.trans ended
  | step going read rest ih =>
    cases second with
    | done ended => cases going.symm.trans ended
    | step _ read' rest' =>
      cases read.symm.trans read'
      rw [ih rest']

/-- Each call that finds bytes ahead cuts them at the first delimiter. -/
structure Cuts (exhausted : σ → Bool) (delimiter : UInt8) (ahead : σ → Bytes → Prop) : Prop where
  exhausted_iff : ∀ source bytes, ahead source bytes → (exhausted source = true ↔ bytes = [])
  piece : ∀ source bytes, ahead source bytes → bytes ≠ [] →
    ∃ after, readUntil source delimiter = (.ok (pieceOf delimiter bytes), after) ∧
      ahead after (restOf delimiter bytes)

/-- Call after call cuts all bytes into pieces. The induction is on the bytes ahead, of which each
call leaves fewer. -/
theorem Cuts.splitsInto {exhausted : σ → Bool} {ahead : σ → Bytes → Prop}
    (cuts : Cuts exhausted delimiter ahead) {bytes : Bytes} (here : ahead source bytes) :
    SplitsInto exhausted delimiter source bytes := by
  have run : ∃ pieces, Splits exhausted delimiter source pieces ∧ Joins delimiter bytes pieces := by
    induction left : bytes.length using Nat.strongRecOn generalizing source bytes with
    | ind size ih =>
      by_cases none : bytes = []
      · subst none
        exact ⟨[], .done ((cuts.exhausted_iff source [] here).2 rfl), joins_nil⟩
      · obtain ⟨after, read, behind⟩ := cuts.piece source bytes here none
        have fewer : (restOf delimiter bytes).length < size := left ▸ length_restOf_lt none
        obtain ⟨pieces, rest, joins⟩ := ih _ fewer behind rfl
        have going : exhausted source = false :=
          Bool.eq_false_iff.2 fun ended => none ((cuts.exhausted_iff source bytes here).1 ended)
        exact ⟨_, .step going read rest, joins.cons none⟩
  obtain ⟨pieces, splits, joins⟩ := run
  exact ⟨pieces, fun other => ⟨splits.unique, fun same => same ▸ splits⟩, joins⟩

end Scanning

section Delivering

variable [ByteSource σ] {ahead : σ → Bytes → Prop} {source : σ} {bytes : Bytes}

theorem Delivers.readsPiece (delivers : Delivers ahead) {position : σ → Nat} {finish : Nat}
    (placed : ∀ source bytes, ahead source bytes → position source + bytes.length = finish)
    (here : ahead source bytes) (delimiter : UInt8) :
    ReadsPiece position delimiter source bytes := by
  obtain ⟨after, read, left⟩ := delivers.scanUntil_eq delimiter source [] here
  have before := placed source bytes here
  have behind := placed after _ left
  have total := length_cut delimiter bytes
  exact ⟨after, read, by omega⟩

theorem Delivers.cuts (delivers : Delivers ahead) {exhausted : σ → Bool}
    (exhausted_iff : ∀ source bytes, ahead source bytes → (exhausted source = true ↔ bytes = []))
    (delimiter : UInt8) : Cuts exhausted delimiter ahead where
  exhausted_iff
  piece source _ here _ := delivers.scanUntil_eq delimiter source [] here

end Delivering
end RetroMedia.ByteSource

namespace RetroMedia

namespace Container

variable {container : Container} {position finish : Nat} {bytes : Bytes}

/-- The bytes of a container from a position on, which ends up at a place when all of them are read. -/
def Ahead (container : Container) (finish position : Nat) (bytes : Bytes) : Prop :=
  container.toBytes.drop position = bytes ∧ position + bytes.length = finish

theorem ahead_start (container : Container) (position : Nat) :
    container.Ahead (position + (container.toBytes.drop position).length) position
      (container.toBytes.drop position) := ⟨rfl, rfl⟩

theorem Ahead.nil_iff (ahead : container.Ahead finish position bytes) :
    bytes = [] ↔ container.size - position = 0 := by
  rw [← ahead.1, List.drop_eq_nil_iff, Nat.sub_eq_zero_iff_le]
  exact Iff.of_eq (congrArg (· ≤ position) Array.length_toList)

/-- Reading moves the position behind what is read. -/
theorem Ahead.readAt (ahead : container.Ahead finish position bytes) {count : Nat}
    (positive : 0 < count) :
    ∃ rest, bytes = container.readAt position count ++ rest ∧
      (container.readAt position count).length ≤ count ∧
      (container.readAt position count = [] → bytes = []) ∧
      container.Ahead finish (position + (container.readAt position count).length) rest := by
  obtain ⟨here, placed⟩ := ahead
  rw [container.readAt_eq, here]
  have split := List.prefix_iff_eq_append.1 (List.take_prefix count bytes)
  refine ⟨_, split.symm, List.length_take_le .., fun none => ?_, ?_, ?_⟩
  · exact (List.take_eq_nil_iff.1 none).resolve_left (Nat.pos_iff_ne_zero.1 positive)
  · rw [← here, List.drop_drop]
  · have total := congrArg List.length split
    rw [List.length_append] at total
    omega

end Container

namespace Cursor

open ByteSource (Cuts Delivers ReadsPiece SplitsInto)

theorem delivers (container : Container) (finish : Nat) :
    Delivers fun (cursor : Cursor) bytes =>
      cursor.container = container ∧ container.Ahead finish cursor.position bytes := by
  rintro cursor bytes count ⟨rfl, ahead⟩ positive
  obtain ⟨rest, same, fits, ends, left⟩ := ahead.readAt positive
  exact ⟨rest, same, fits, ends, rfl, left⟩

/-- A cursor is scanned from wherever it stands. -/
theorem scans (cursor : Cursor) (delimiter : UInt8) :
    ReadsPiece position delimiter cursor (cursor.container.toBytes.drop cursor.position) ∧
      SplitsInto isExhausted delimiter cursor
        (cursor.container.toBytes.drop cursor.position) := by
  have here := cursor.container.ahead_start cursor.position
  have delivers := delivers cursor.container
    (cursor.position + (cursor.container.toBytes.drop cursor.position).length)
  refine ⟨delivers.readsPiece (fun _ _ ahead => ahead.2.2) ⟨rfl, here⟩ delimiter,
    (delivers.cuts ?_ delimiter).splitsInto ⟨rfl, here⟩⟩
  rintro other bytes ⟨same, ahead⟩
  rw [ahead.nil_iff, ← same]
  exact beq_iff_eq

end Cursor
end RetroMedia
