import RetroMedia.Error
import RetroMedia.Bytes

/-! Byte sources. A source hands out its bytes in pieces of its own choosing and may fail on the
way; an interruption is a failure after which reading goes on. Each source carries a measure that
falls with every byte handed out and every interruption, so draining a source always ends. -/
namespace RetroMedia

/-- What one read may do to a source's measure: bytes and interruptions lower it. -/
def ReadShrinks (measure : σ → Nat) (before : σ) : Except MediaError Bytes × σ → Prop
  | (.ok [], _) => True
  | (.ok (_ :: _), after) => measure after < measure before
  | (.error .cancelled, after) => measure after < measure before
  | (.error _, _) => True

/-- A source of bytes. -/
class ByteSource (σ : Type u) where
  /-- Read into a buffer of the given size. No bytes for a nonempty buffer mean the end. -/
  read : σ → Nat → Except MediaError Bytes × σ
  /-- A bound on the bytes and interruptions still to come. -/
  measure : σ → Nat
  shrinks : ∀ source count, 0 < count → ReadShrinks measure source (read source count)

namespace ByteSource

variable {σ : Type u} [ByteSource σ]

private theorem shrinks_bytes {source after : σ} {count : Nat} {byte : UInt8} {bytes : Bytes}
    (positive : 0 < count) (step : read source count = (.ok (byte :: bytes), after)) :
    measure after < measure source := by
  have falls := shrinks source count positive
  rwa [step] at falls

private theorem shrinks_interrupted {source after : σ} {count : Nat} (positive : 0 < count)
    (step : read source count = (.error .cancelled, after)) : measure after < measure source := by
  have falls := shrinks source count positive
  rwa [step] at falls

/-- Read until `wanted` bytes are there, the source ends, or it fails for good. Interruptions are
retried. The bytes read before a failure are kept. -/
def gather (source : σ) (wanted : Nat) : Bytes × Option MediaError × σ :=
  if _positive : 0 < wanted then
    match _step : read source wanted with
    | (.ok [], after) => ([], none, after)
    | (.ok (byte :: bytes), after) =>
      let (more, failure, last) := gather after (wanted - (byte :: bytes).length)
      (byte :: bytes ++ more, failure, last)
    | (.error .cancelled, after) => gather after wanted
    | (.error error, after) => ([], some error, after)
  else ([], none, source)
termination_by measure source
decreasing_by
  · exact shrinks_bytes _positive _step
  · exact shrinks_interrupted _positive _step

theorem measure_gather_le {source : σ} {wanted : Nat}
    (full : (gather source wanted).1.length = wanted) :
    measure (gather source wanted).2.2 ≤ measure source := by
  fun_induction gather source wanted with
  | case1 => simp at full; omega
  | case2 source wanted positive byte bytes after step more failure last rest ih =>
    have falls := shrinks_bytes positive step
    rw [rest] at ih
    have := ih (by simp at full ⊢; omega)
    simp only at this ⊢
    omega
  | case3 source wanted positive after step ih =>
    have falls := shrinks_interrupted positive step
    have := ih full
    omega
  | case4 => simp at full; omega
  | case5 => exact Nat.le_refl _

/-- As many bytes as were wanted lower the measure. -/
theorem measure_gather_lt {source : σ} {wanted : Nat} (positive : 0 < wanted)
    (full : (gather source wanted).1.length = wanted) :
    measure (gather source wanted).2.2 < measure source := by
  fun_induction gather source wanted with
  | case1 => simp at full; omega
  | case2 source wanted positive byte bytes after step more failure last rest ih =>
    have falls := shrinks_bytes positive step
    have := @measure_gather_le σ _ after (wanted - (byte :: bytes).length)
      (by rw [rest]; simp at full ⊢; omega)
    rw [rest] at this
    simp only at this ⊢
    omega
  | case3 source wanted positive after step ih =>
    have falls := shrinks_interrupted positive step
    have := ih ‹_› full
    omega
  | case4 => simp at full; omega
  | case5 => omega

/-- The piece in which a source is drained. -/
def pieceSize : Nat := 4096

/-- Read to the end, or to the first failure that is no interruption. -/
def drain (source : σ) : Bytes × Option MediaError × σ :=
  match _step : read source pieceSize with
  | (.ok [], after) => ([], none, after)
  | (.ok (byte :: bytes), after) =>
    let (more, failure, last) := drain after
    (byte :: bytes ++ more, failure, last)
  | (.error .cancelled, after) => drain after
  | (.error error, after) => ([], some error, after)
termination_by measure source
decreasing_by
  · exact shrinks_bytes (by decide) _step
  · exact shrinks_interrupted (by decide) _step

/-- Collect single bytes, newest first, up to the delimiter or the end. -/
def scanUntil (delimiter : UInt8) (source : σ) (newestFirst : Bytes) :
    Except MediaError Bytes × σ :=
  match _step : read source 1 with
  | (.ok [], after) => (.ok newestFirst.reverse, after)
  | (.ok (byte :: _), after) =>
    if byte == delimiter then (.ok newestFirst.reverse, after)
    else scanUntil delimiter after (byte :: newestFirst)
  | (.error .cancelled, after) => scanUntil delimiter after newestFirst
  | (.error error, after) => (.error error, after)
termination_by measure source
decreasing_by
  · exact shrinks_bytes Nat.one_pos _step
  · exact shrinks_interrupted Nat.one_pos _step

/-- The bytes up to the delimiter, which is consumed but not returned, or up to the end. A failure
discards what was read. -/
def readUntil (source : σ) (delimiter : UInt8) : Except MediaError Bytes × σ :=
  scanUntil delimiter source []

/-- At most `count` bytes, in as many reads as that takes. -/
def readUpTo (source : σ) (count : Nat) : Except MediaError Bytes × σ :=
  match gather source count with
  | (bytes, none, after) => (.ok bytes, after)
  | (_, some error, after) => (.error error, after)

end ByteSource
end RetroMedia
