import Leasehold.Duration

/-!
# Dates

The civil date and time of an instant. The clock starts with the year 2025.
-/

namespace Leasehold
namespace Calendar

structure Moment where
  year : Nat
  month : Nat
  day : Nat
  hour : Nat
  minute : Nat
  second : Nat
  millisecond : Nat
deriving DecidableEq

/-- Seconds from the start of the year 1970 to the start of the clock. -/
def startSeconds : Nat := 1735689600

/-- Days from the first of March of the year zero to the start of the clock. -/
def startDay : Nat := 739557

/-- The year, month and day of a day counted from the first of March of the year zero. Years are
counted from March, so that a leap day ends its year. -/
def civil (days : Nat) : Nat × Nat × Nat :=
  let era := days / 146097
  let ofEra := days % 146097
  let yearOfEra := (ofEra - ofEra / 1460 + ofEra / 36524 - ofEra / 146096) / 365
  let ofYear := ofEra - (365 * yearOfEra + yearOfEra / 4 - yearOfEra / 100)
  let month := (5 * ofYear + 2) / 153
  let day := ofYear - (153 * month + 2) / 5 + 1
  let year := yearOfEra + era * 400
  if month < 10 then (year, month + 3, day) else (year + 1, month - 9, day)

def ofInstant (t : Instant) : Moment :=
  let millis := t / 1000000
  let seconds := millis / 1000
  let (year, month, day) := civil (startDay + seconds / 86400)
  { year, month, day
    hour := seconds / 3600 % 24
    minute := seconds / 60 % 60
    second := seconds % 60
    millisecond := millis % 1000 }

namespace Moment

variable (m : Moment)

def two (n : Nat) : String := String.ofList (Numeral.padded 2 n)

/-- Years past four digits carry a sign. -/
def yearText : String :=
  if m.year < 10000 then String.ofList (Numeral.padded 4 m.year) else "+" ++ Numeral.ofNat m.year

def millisText : String := String.ofList (Numeral.padded 3 m.millisecond)

/-- The form that starts a line of a log. -/
def text : String :=
  m.yearText ++ "-" ++ two m.month ++ "-" ++ two m.day ++ " " ++ two m.hour ++ ":" ++ two m.minute ++
    ":" ++ two m.second ++ ":" ++ m.millisText

def digits : String :=
  m.yearText ++ two m.month ++ two m.day ++ two m.hour ++ two m.minute ++ two m.second ++ m.millisText

end Moment

example : ofInstant 0 = ⟨2025, 1, 1, 0, 0, 0, 0⟩ := by decide

end Calendar
end Leasehold
