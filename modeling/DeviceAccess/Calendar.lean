/-!
# The calendar

Points in time are whole seconds since the start of 1970, dates are of the Gregorian calendar.
-/

namespace DeviceAccess

namespace Calendar

/-- A point in time by its date and time of day. -/
structure Moment where
  year : Nat
  month : Nat
  day : Nat
  hour : Nat
  minute : Nat
  second : Nat
  deriving DecidableEq, Repr

/-- Seconds in a day. -/
def secondsPerDay : Int := 86400

/-- Whether a year has a 29th of February. -/
def isLeap (year : Nat) : Bool := year % 4 = 0 && (year % 100 ≠ 0 || year % 400 = 0)

/-- Number of days in a month. -/
def daysInMonth (year month : Nat) : Nat :=
  if month = 2 then (if isLeap year then 29 else 28)
  else if month = 4 ∨ month = 6 ∨ month = 9 ∨ month = 11 then 30
  else 31

/-- Whether the parts of a moment are within their ranges. -/
def Moment.isValid (m : Moment) : Bool :=
  1 ≤ m.month && m.month ≤ 12 && 1 ≤ m.day && m.day ≤ daysInMonth m.year m.month
    && m.hour < 24 && m.minute < 60 && m.second < 60

/-- Days from the first of March of the year zero to a date; a year is counted from March on. -/
def dayNumber (year month day : Nat) : Int :=
  let y : Int := if month ≤ 2 then (year : Int) - 1 else year
  let monthFromMarch : Int := if month ≤ 2 then month + 9 else (month : Int) - 3
  365 * y + y.fdiv 4 - y.fdiv 100 + y.fdiv 400 + (153 * monthFromMarch + 2).fdiv 5 + day - 1

/-- Day number of the first of January 1970. -/
def epochDay : Int := dayNumber 1970 1 1

/-- Seconds since the start of 1970. -/
def Moment.seconds (m : Moment) : Int :=
  (dayNumber m.year m.month m.day - epochDay) * secondsPerDay
    + (3600 * m.hour + 60 * m.minute + m.second : Nat)

/-- The moment that a number of seconds since the start of 1970 leads to. -/
def Moment.ofSeconds (seconds : Int) : Moment :=
  let z := seconds.fdiv secondsPerDay + epochDay
  let era := z.fdiv 146097
  let dayOfEra := z - era * 146097
  let yearOfEra :=
    (dayOfEra - dayOfEra.fdiv 1460 + dayOfEra.fdiv 36524 - dayOfEra.fdiv 146096).fdiv 365
  let dayOfYear := dayOfEra - (365 * yearOfEra + yearOfEra.fdiv 4 - yearOfEra.fdiv 100)
  let monthFromMarch := (5 * dayOfYear + 2).fdiv 153
  let day := dayOfYear - (153 * monthFromMarch + 2).fdiv 5 + 1
  let month := if monthFromMarch < 10 then monthFromMarch + 3 else monthFromMarch - 9
  let year := yearOfEra + era * 400 + (if month ≤ 2 then 1 else 0)
  let rest := (seconds - seconds.fdiv secondsPerDay * secondsPerDay).toNat
  ⟨year.toNat, month.toNat, day.toNat, rest / 3600, rest / 60 % 60, rest % 60⟩

/-- The last `size` decimal digits of a number. -/
def digits (size n : Nat) : String :=
  let written := (Nat.toDigits 10 n)
  String.ofList (List.replicate (size - written.length) '0' ++ written)

/-- Date, time of day and offset, with punctuation. -/
def Moment.shown (m : Moment) : String :=
  digits 4 m.year ++ "-" ++ digits 2 m.month ++ "-" ++ digits 2 m.day ++ "T"
    ++ digits 2 m.hour ++ ":" ++ digits 2 m.minute ++ ":" ++ digits 2 m.second ++ "+00:00"

/-- Date and time of day without punctuation, in universal time. -/
def Moment.compact (yearDigits : Nat) (m : Moment) : String :=
  digits yearDigits (m.year % Nat.pow 10 yearDigits) ++ digits 2 m.month ++ digits 2 m.day
    ++ digits 2 m.hour ++ digits 2 m.minute ++ digits 2 m.second ++ "Z"

/-- Reads a number of two decimal digits. -/
def pair? : List Char → Option (Nat × List Char)
  | a :: b :: rest =>
    if a.isDigit && b.isDigit then
      some (10 * (a.toNat - '0'.toNat) + (b.toNat - '0'.toNat), rest)
    else none
  | _ => none

/-- Reads what `Moment.compact` writes, after the year. -/
def ofCompact? (year : Nat) (text : List Char) : Option Moment := do
  let (month, text) ← pair? text
  let (day, text) ← pair? text
  let (hour, text) ← pair? text
  let (minute, text) ← pair? text
  let (second, text) ← pair? text
  let m : Moment := ⟨year, month, day, hour, minute, second⟩
  if text = ['Z'] && m.isValid then some m else none

/-- Reads a moment with a year of two digits, between 1950 and 2049. -/
def ofShort? (text : List Char) : Option Moment := do
  let (y, text) ← pair? text
  ofCompact? (if y < 50 then 2000 + y else 1900 + y) text

/-- Reads a moment with a year of four digits. -/
def ofLong? (text : List Char) : Option Moment := do
  let (century, text) ← pair? text
  let (y, text) ← pair? text
  ofCompact? (100 * century + y) text

end Calendar

end DeviceAccess
