/-!
The Gregorian calendar: days, their places in months, years and weeks, and counting them.
-/

namespace NoteTemplate

/-- A day of the calendar. -/
structure Day where
  year : Int
  month : Nat
  day : Nat
deriving Repr, DecidableEq

namespace Calendar

def isLeap (year : Int) : Bool := (year % 4 == 0 && year % 100 != 0) || year % 400 == 0

def daysInYear (year : Int) : Nat := if isLeap year then 366 else 365

def daysInMonth (year : Int) (month : Nat) : Nat :=
  if month = 2 then (if isLeap year then 29 else 28)
  else if month = 4 ∨ month = 6 ∨ month = 9 ∨ month = 11 then 30
  else 31

def daysBefore (year : Int) (month : Nat) : Nat :=
  (List.range (month - 1)).foldl (fun days m => days + daysInMonth year (m + 1)) 0

/-- The number of days before the first of January, counted from the first day of year one. -/
def daysBeforeYear (year : Int) : Int :=
  let y := year - 1
  y * 365 + Int.fdiv y 4 - Int.fdiv y 100 + Int.fdiv y 400

/-- The first and the last year of the calendar. -/
def firstYear : Int := 1

/-- The last year of the calendar. -/
def lastYear : Int := 9999

end Calendar

namespace Day

open Calendar

/-- The day with given numbers, if the calendar has one. -/
def of? (year : Int) (month day : Nat) : Option Day :=
  if firstYear ≤ year && year ≤ lastYear && 1 ≤ month && month ≤ 12 && 1 ≤ day &&
      day ≤ daysInMonth year month then
    some ⟨year, month, day⟩
  else none

/-- The place of a day in its year, from one on. -/
def ofYear (d : Day) : Nat := daysBefore d.year d.month + d.day

/-- The number of days from the first day of year one. -/
def count (d : Day) : Int := daysBeforeYear d.year + d.ofYear - 1

/-- The place of a day in its week, from Monday as zero on. -/
def ofWeek (d : Day) : Nat := (Int.fmod d.count 7).toNat

def monthAt (year : Int) : Nat → Nat → Nat → Nat × Nat
  | 0, month, place => (month, place)
  | fuel + 1, month, place =>
    if place ≤ daysInMonth year month then (month, place)
    else monthAt year fuel (month + 1) (place - daysInMonth year month)

/-- The day at a place in a year, from one on, if the calendar has one. -/
def ofPlace? (year : Int) (place : Int) : Option Day :=
  if 1 ≤ place && place ≤ daysInYear year then
    let (month, day) := monthAt year 11 1 place.toNat
    of? year month day
  else none

/-- The year that a count of days leads to. -/
def yearOfCount (count : Int) : Int :=
  let guess := Int.fdiv (count * 400) 146097 + 1
  if count < daysBeforeYear guess then guess - 1
  else if daysBeforeYear (guess + 1) ≤ count then guess + 1
  else guess

/-- The day a number of days after the first day of year one, if the calendar has one. -/
def ofCount? (count : Int) : Option Day :=
  let year := yearOfCount count
  ofPlace? year (count - daysBeforeYear year + 1)

def addDays? (d : Day) (days : Int) : Option Day := ofCount? (d.count + days)

def quarter (d : Day) : Nat := (d.month + 2) / 3

/-- The count of the Monday of the first week of a year, which is the week of the fourth of
January. -/
def firstMonday (year : Int) : Int :=
  let fourth := daysBeforeYear year + 3
  fourth - Int.fmod fourth 7

/-- The number of the week of a day. A week belongs to the year of its Thursday. -/
def weekOfYear (d : Day) : Nat :=
  let year :=
    if d.count < firstMonday d.year then d.year - 1
    else if firstMonday (d.year + 1) ≤ d.count then d.year + 1
    else d.year
  ((d.count - firstMonday year) / 7 + 1).toNat

def weeksInYear (year : Int) : Nat := ((firstMonday (year + 1) - firstMonday year) / 7).toNat

/-- The day at a place, from one on, in a week of a year. -/
def ofWeekDate? (year : Int) (week day : Nat) : Option Day :=
  if week ≤ weeksInYear year && day ≤ 7 then
    ofCount? (firstMonday year + 7 * ((week : Int) - 1) + ((day : Int) - 1))
  else none

/-- The day some months later. A day that the month does not have becomes its last one. -/
def addMonths? (d : Day) (months : Int) : Option Day :=
  let index := d.year * 12 + (d.month - 1 : Nat) + months
  let year := Int.fdiv index 12
  let month := (Int.fmod index 12).toNat + 1
  of? year month (min d.day (daysInMonth year month))

end Day

end NoteTemplate
