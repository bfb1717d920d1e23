import RetroMedia.Decimal.Binary64
import RetroMedia.Timestamp
import RetroMedia.Toml.Scan

/-! Numbers, dates and times of settings documents. -/
namespace RetroMedia.TomlScan

/-- The least and the greatest integer. -/
def minInteger : Int := -9223372036854775808

def maxInteger : Int := 9223372036854775807

/-- Do underscores stand between digits only? -/
def wellSpaced : List Char → Bool
  | [] => false
  | ['_'] => false
  | [_] => true
  | '_' :: _ => false
  | _ :: '_' :: rest => wellSpaced rest
  | _ :: rest => wellSpaced rest

/-- Digits that underscores may divide, without these. -/
def digits (isDigit : Char → Bool) : TomlScan (List Char) := do
  let chars ← span fun char => isDigit char || char == '_'
  if wellSpaced chars then return chars.filter (· != '_') else failure

/-- The value of digits of some base. -/
def valueOf (base : Nat) (digits : List Char) : Nat :=
  digits.foldl (fun value digit => base * value + (hexValue? digit).getD 0) 0

def inRange (value : Int) : TomlScan Toml :=
  if minInteger ≤ value && value ≤ maxInteger then return .integer value else failure

/-- The digits before a point: a zero stands alone. -/
def wholeDigits : TomlScan (List Char) := do
  if ← skip? "0" then return ['0'] else digits Char.isDigit

/-- Is a number too large for a double? It is `significand`, with the point moved to the right. -/
def overflows (significand : Nat) (exponent : Int) : Bool :=
  let magnitude := exponent + (Nat.toDigits 10 significand).length
  if significand == 0 || magnitude < 300 then false
  else if 320 < magnitude then true
  else
    (Binary64.round? false (significand * powerOf 10 exponent) (powerOf 10 (-exponent))).isNone

/-- The digits after the point of a number, if it has one. -/
def fractionPart : TomlScan (Option (List Char)) := do
  if ← skip? "." then return some (← digits Char.isDigit) else return none

/-- The exponent of a number, if it has one: its sign and its digits. -/
def exponentPart : TomlScan (Option (Bool × List Char)) := do
  match ← peek? with
  | some 'e' | some 'E' => do
    discard next
    let negative ← skip? "-"
    if !negative then discard (skip? "+")
    return some (negative, ← digits Char.isDigit)
  | _ => return none

/-- A number in decimal digits. A positive number must not exceed the range of a double. -/
def decimal (negative : Bool) : TomlScan Toml := do
  let whole ← wholeDigits
  let fraction ← fractionPart
  let exponent ← exponentPart
  if fraction.isNone && exponent.isNone then
    let value : Int := valueOf 10 whole
    inRange (if negative then -value else value)
  else
    let places := fraction.getD []
    let (down, power) := exponent.getD (false, [])
    let shift : Int := valueOf 10 power
    let shift := (if down then -shift else shift) - places.length
    if !negative && overflows (valueOf 10 (whole ++ places)) shift then failure
    else
      let text := whole ++ (if fraction.isSome then '.' :: places else [])
        ++ (if exponent.isSome then 'e' :: (if down then ['-'] else []) ++ power else [])
      return .float (String.ofList (if negative then '-' :: text else text))

/-- A number that is no date and no time. -/
def number : TomlScan Toml := do
  if ← skip? "0x" then inRange (valueOf 16 (← digits fun char => (hexValue? char).isSome))
  else if ← skip? "0o" then inRange (valueOf 8 (← digits fun char => '0' ≤ char && char ≤ '7'))
  else if ← skip? "0b" then inRange (valueOf 2 (← digits fun char => char == '0' || char == '1'))
  else
    let negative ← skip? "-"
    if !negative then discard (skip? "+")
    if ← skip? "inf" then return .float (if negative then "-inf" else "inf")
    else if ← skip? "nan" then return .float "nan"
    else decimal negative

/-- Exactly so many digits, whose value lies between two bounds. -/
def field (count least greatest : Nat) : TomlScan Nat := fun input =>
  let chars := input.take count
  let value := valueOf 10 chars
  if chars.length = count ∧ chars.all Char.isDigit ∧ least ≤ value ∧ value ≤ greatest then
    some (value, input.drop count)
  else none

def date : TomlScan Unit := do
  let year ← field 4 0 9999
  expect "-"
  let month ← field 2 1 12
  expect "-"
  discard (field 2 1 (Timestamp.daysInMonth year month))

/-- A time of day, where a minute may have a leap second. -/
def time : TomlScan Unit := do
  discard (field 2 0 23)
  expect ":"
  discard (field 2 0 59)
  expect ":"
  discard (field 2 0 60)
  if ← skip? "." then discard (span1 Char.isDigit)

/-- The distance of a local time from universal time, if it is given. -/
def zone : TomlScan Unit := do
  match ← peek? with
  | some 'Z' | some 'z' => discard next
  | some '+' | some '-' => do
    discard next
    discard (field 2 0 23)
    expect ":"
    discard (field 2 0 59)
  | _ => return

/-- What separates a date from the time after it. -/
def isTimeMark (char : Char) : Bool := char == 'T' || char == 't' || char == ' '

/-- A time follows a date only if an hour and a colon come next. -/
def timeFollows : List Char → Bool
  | mark :: tens :: units :: ':' :: _ => isTimeMark mark && tens.isDigit && units.isDigit
  | _ => false

/-- A date, or a date with a time, as far as it goes. -/
def dateAndTime : TomlScan Unit := do
  date
  if timeFollows (← get) then
    discard next
    time
    zone

/-- A scan together with the text it went over. -/
def withText (scan : TomlScan Unit) : TomlScan String := do
  let before ← get
  scan
  let after ← get
  return String.ofList (before.take (before.length - after.length))

/-- Does the text begin like a date, or like a time? Then it can be nothing else. -/
def beginsDate : List Char → Bool
  | a :: b :: c :: d :: '-' :: _ => [a, b, c, d].all Char.isDigit
  | _ => false

def beginsTime : List Char → Bool
  | a :: b :: ':' :: _ => a.isDigit && b.isDigit
  | _ => false

/-- A number, a date or a time. -/
def numberOrMoment : TomlScan Toml := do
  let ahead ← get
  if beginsDate ahead then return .moment (← withText dateAndTime)
  else if beginsTime ahead then return .moment (← withText time)
  else number

end RetroMedia.TomlScan
