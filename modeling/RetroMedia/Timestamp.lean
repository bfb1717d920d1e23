/-! Points in time as a hard disk packs them into four bytes: second, minute, hour, day, month and
years since 1980, from the least significant bit upward. -/
namespace RetroMedia

/-- A date and a time of day. -/
structure Timestamp where
  year : Nat
  month : Nat
  day : Nat
  hour : Nat
  minute : Nat
  second : Nat
  deriving DecidableEq, Repr

namespace Timestamp

/-- Years that 4 divides are leap years, except those that 100 but not 400 divides. -/
def isLeapYear (year : Nat) : Bool := year % 4 == 0 && (year % 100 != 0 || year % 400 == 0)

def daysInMonth (year month : Nat) : Nat :=
  match month with
  | 1 | 3 | 5 | 7 | 8 | 10 | 12 => 31
  | 4 | 6 | 9 | 11 => 30
  | 2 => if isLeapYear year then 29 else 28
  | _ => 0

/-- A day of the calendar and a time that a clock shows. -/
def IsValid (time : Timestamp) : Prop :=
  1 ≤ time.day ∧ time.day ≤ daysInMonth time.year time.month
    ∧ time.hour < 24 ∧ time.minute < 60 ∧ time.second < 60

instance (time : Timestamp) : Decidable time.IsValid := by unfold IsValid; infer_instance

/-- The year that the packed form counts from. -/
def epoch : Nat := 1980

/-- The fields of a packed word, valid or not. -/
def fields (packed : Nat) : Timestamp where
  second := packed % 64
  minute := packed / 64 % 64
  hour := packed / (64 * 64) % 32
  day := packed / (64 * 64 * 32) % 32
  month := packed / (64 * 64 * 32 * 32) % 16
  year := epoch + packed / (64 * 64 * 32 * 32 * 16)

/-- The point in time that a packed word stands for, if there is one. -/
def unpack? (packed : Nat) : Option Timestamp :=
  if (fields packed).IsValid then some (fields packed) else none

/-- The packed word of a point in time. -/
def pack (time : Timestamp) : Nat :=
  ((((((time.year - epoch) * 16 + time.month) * 32 + time.day) * 32 + time.hour) * 64
    + time.minute) * 64) + time.second

/-- A number with leading zeros up to the given width. -/
def padded (width value : Nat) : String :=
  let digits := Nat.toDigits 10 value
  String.ofList (List.replicate (width - digits.length) '0' ++ digits)

/-- The date and the time, largest unit first. -/
def toText (time : Timestamp) : String :=
  padded 4 time.year ++ "-" ++ padded 2 time.month ++ "-" ++ padded 2 time.day ++ " "
    ++ padded 2 time.hour ++ ":" ++ padded 2 time.minute ++ ":" ++ padded 2 time.second

end Timestamp
end RetroMedia
