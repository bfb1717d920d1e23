import Mathlib.Tactic.DeprecateTo
import Mathlib.Tactic.IntervalCases
import RetroMedia.Timestamp

/-! Packed points in time. A word decodes exactly if its fields name a day of the calendar and a
time that a clock shows. Main statement: between these words and the points in time of the 64 years
from the epoch on, decoding and packing are each other's inverse. -/
namespace RetroMedia.Timestamp

-- The standard library's Gregorian calendar comes along with Mathlib's dated deprecations.
open Std.Time (Day.Ordinal Month.Ordinal PlainDate Year.Offset)

/-- A day of the calendar, and a time of day without leap seconds. -/
structure OnCalendar (time : Timestamp) : Prop where
  date : ∃ date : PlainDate, date.year.toInt = time.year ∧ date.month.val = time.month ∧
    date.day.val = time.day
  hour : time.hour < 24
  minute : time.minute < 60
  second : time.second < 60

theorem isLeap_eq {offset : Year.Offset} {year : Nat} (same : offset.toInt = year) :
    offset.isLeap = isLeapYear year := by
  rw [Bool.eq_iff_iff]
  simp only [Year.Offset.isLeap, isLeapYear, same,
    Int.tmod_eq_emod_of_nonneg (Int.natCast_nonneg year), decide_eq_true_eq, Bool.and_eq_true,
    Bool.or_eq_true, bne_iff_ne, beq_iff_eq]
  omega

theorem days_eq {offset : Year.Offset} {year : Nat} (same : offset.toInt = year)
    (month : Month.Ordinal) :
    (month.days offset.isLeap).val = daysInMonth year month.val.toNat := by
  rw [isLeap_eq same]
  obtain ⟨month, low, high⟩ := month
  unfold daysInMonth
  generalize isLeapYear year = leap
  interval_cases month <;> cases leap <;> rfl

/-- Only the twelve months have days, and none of them more than 31. -/
theorem daysInMonth_bounds {year month : Nat} (some : 0 < daysInMonth year month) :
    1 ≤ month ∧ month ≤ 12 ∧ daysInMonth year month ≤ 31 := by
  unfold daysInMonth at some ⊢
  split at some <;> (try split) <;> omega

theorem isValid_iff_onCalendar (time : Timestamp) : time.IsValid ↔ time.OnCalendar := by
  constructor
  · rintro ⟨first, last, hour, minute, second⟩
    obtain ⟨low, high, short⟩ := daysInMonth_bounds (Nat.lt_of_lt_of_le first last)
    let year : Year.Offset := .ofInt time.year
    let month : Month.Ordinal := ⟨time.month, by omega, by omega⟩
    let day : Day.Ordinal := ⟨time.day, by omega, by omega⟩
    have valid : year.Valid month day := by
      have length := @days_eq year time.year rfl month
      exact (Int.ofNat_le.2 last).trans_eq length.symm
    exact ⟨⟨⟨year, month, day, valid⟩, rfl, rfl, rfl⟩, hour, minute, second⟩
  · rintro ⟨⟨date, year, month, day⟩, hour, minute, second⟩
    have first := date.day.property.1
    have last : date.day.val ≤ (date.month.days date.year.isLeap).val := date.valid
    rw [days_eq year, month, day, Int.toNat_natCast] at last
    exact ⟨by omega, by omega, hour, minute, second⟩

/-- The fields of a word, by their bits. -/
def ofBits (word : BitVec 32) : Timestamp where
  second := (word.extractLsb' 0 6).toNat
  minute := (word.extractLsb' 6 6).toNat
  hour := (word.extractLsb' 12 5).toNat
  day := (word.extractLsb' 17 5).toNat
  month := (word.extractLsb' 22 4).toNat
  year := epoch + (word.extractLsb' 26 6).toNat

theorem fields_eq_ofBits (word : BitVec 32) : fields word.toNat = ofBits word := by
  have small := word.isLt
  simp only [fields, ofBits, BitVec.extractLsb'_toNat, Nat.shiftRight_eq_div_pow,
    Nat.reduceMul, Nat.reducePow, Timestamp.mk.injEq, true_and]
  omega

theorem unpack?_eq_some_iff {packed : Nat} {time : Timestamp} :
    unpack? packed = some time ↔ time = fields packed ∧ time.OnCalendar := by
  unfold unpack?
  rw [Option.ite_none_right_eq_some, Option.some.injEq, ← isValid_iff_onCalendar]
  constructor
  · rintro ⟨valid, rfl⟩
    exact ⟨rfl, valid⟩
  · rintro ⟨rfl, valid⟩
    exact ⟨valid, rfl⟩

theorem pack_fields (packed : Nat) : (fields packed).pack = packed := by
  simp only [pack, fields]
  omega

/-- Fields that are not too wide for their bits come back. -/
theorem fields_pack {time : Timestamp} (late : epoch ≤ time.year) (month : time.month < 16)
    (day : time.day < 32) (hour : time.hour < 32) (minute : time.minute < 64)
    (second : time.second < 64) : fields time.pack = time := by
  obtain ⟨year, _, _, _, _, _⟩ := time
  simp only [fields, pack, Timestamp.mk.injEq] at *
  omega

/-- A word decodes exactly if its bits name a day of the calendar and a time of day, and it is the
packed word of what it decodes to. Every point in time of the 64 years from the epoch on is what its
packed word decodes to. -/
theorem unpack_inverse_pack :
    (∀ (word : BitVec 32) (time : Timestamp),
      unpack? word.toNat = some time ↔ time = ofBits word ∧ time.OnCalendar) ∧
    (∀ (word : BitVec 32) (time : Timestamp), unpack? word.toNat = some time →
      time.pack = word.toNat ∧ 1980 ≤ time.year ∧ time.year ≤ 2043) ∧
    ∀ time : Timestamp, time.OnCalendar → 1980 ≤ time.year → time.year ≤ 2043 →
      time.pack < 2 ^ 32 ∧ unpack? time.pack = some time := by
  refine ⟨fun word time => ?_, fun word time found => ?_, fun time valid late early => ?_⟩
  · rw [unpack?_eq_some_iff, fields_eq_ofBits]
  · obtain ⟨rfl, _⟩ := unpack?_eq_some_iff.1 found
    have small := word.isLt
    refine ⟨pack_fields _, Nat.le_add_right _ _, ?_⟩
    simp only [fields, epoch]
    omega
  · obtain ⟨_, last, hour, minute, second⟩ := (isValid_iff_onCalendar time).2 valid
    obtain ⟨_, month, short⟩ := @daysInMonth_bounds time.year time.month (by omega)
    refine ⟨?_, unpack?_eq_some_iff.2 ⟨(fields_pack late ?_ ?_ ?_ ?_ ?_).symm, valid⟩⟩
    · simp only [pack, epoch] at *
      omega
    all_goals omega

/-- The last second of a leap day. -/
theorem unpack_inverse_pack_of_leapDay :
    unpack? (0x50BB7EFB : BitVec 32).toNat = some ⟨2000, 2, 29, 23, 59, 59⟩ ∧
      OnCalendar ⟨2000, 2, 29, 23, 59, 59⟩ ∧
      pack ⟨2000, 2, 29, 23, 59, 59⟩ = (0x50BB7EFB : BitVec 32).toNat ∧
      unpack? (pack ⟨2000, 2, 29, 23, 59, 59⟩) = some ⟨2000, 2, 29, 23, 59, 59⟩ := by
  obtain ⟨decodes, packs, covers⟩ := unpack_inverse_pack
  have decoded : unpack? (0x50BB7EFB : BitVec 32).toNat = some ⟨2000, 2, 29, 23, 59, 59⟩ := by
    decide
  have valid := ((decodes _ _).1 decoded).2
  exact ⟨decoded, valid, (packs _ _ decoded).1, (covers _ valid (by decide) (by decide)).2⟩

end RetroMedia.Timestamp
