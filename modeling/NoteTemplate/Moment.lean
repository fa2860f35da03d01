import NoteTemplate.Calendar
import NoteTemplate.Decimal.Shortest

/-!
Points in time: a day, a time of day and the distance from universal time.
-/

namespace NoteTemplate

/-- A time of day. -/
structure Clock where
  hour : Nat := 0
  minute : Nat := 0
  second : Nat := 0
  micro : Nat := 0
deriving Repr, DecidableEq

namespace Clock

/-- The time of day with given numbers, if there is one. -/
def of? (hour minute second micro : Nat) : Option Clock :=
  if hour < 24 && minute < 60 && second < 60 && micro < 1000000 then
    some ⟨hour, minute, second, micro⟩
  else none

/-- The seconds since midnight. -/
def seconds (c : Clock) : Nat := c.hour * 3600 + c.minute * 60 + c.second

def ofSeconds (seconds micro : Nat) : Clock :=
  ⟨seconds / 3600, seconds / 60 % 60, seconds % 60, micro⟩

end Clock

/-- A zone with a fixed distance from universal time, in seconds. -/
structure Zone where
  offset : Int := 0
  name : String := "UTC"
deriving Repr, DecidableEq

namespace Zone

def utc : Zone := {}

def twoDigits (n : Nat) : String := Decimal.padLeft 2 (Nat.repr n)

/-- The sign, hours and minutes of a distance, with a mark between the numbers. -/
def offsetText (offset : Int) (mark : String) : String :=
  let minutes := offset.natAbs / 60
  (if offset < 0 then "-" else "+") ++ twoDigits (minutes / 60) ++ mark ++ twoDigits (minutes % 60)

/-- The zone at a distance, named after it. -/
def ofOffset (offset : Int) : Zone := ⟨offset, offsetText offset ":"⟩

end Zone

/-- A point in time. -/
structure Moment where
  day : Day
  clock : Clock := {}
  zone : Zone := {}
deriving Repr, DecidableEq

namespace Moment

/-- The seconds from the first day of year one, as the clock of the zone shows them. -/
def localSeconds (m : Moment) : Int := m.day.count * 86400 + m.clock.seconds

def timestamp (m : Moment) : Int := m.localSeconds - m.zone.offset - 719162 * 86400

def addSeconds? (m : Moment) (seconds : Int) : Option Moment :=
  let total := m.localSeconds + seconds
  (Day.ofCount? (Int.fdiv total 86400)).map fun day =>
    { m with day, clock := Clock.ofSeconds (Int.fmod total 86400).toNat m.clock.micro }

/-- The units in which a moment can be moved. -/
inductive Span where
  | years
  | months
  | weeks
  | days
  | hours
  | minutes
  | seconds
deriving Repr, DecidableEq

def Span.ofName? (name : String) : Option Span :=
  if name = "year" then some years
  else if name = "month" then some months
  else if name = "week" then some weeks
  else if name = "day" then some days
  else if name = "hour" then some hours
  else if name = "minute" then some minutes
  else if name = "second" then some seconds
  else none

/-- The moment some units later, if the calendar has it. -/
def add? (m : Moment) (amount : Int) (span : Span) : Option Moment :=
  match span with
  | .years => (m.day.addMonths? (12 * amount)).map fun day => { m with day }
  | .months => (m.day.addMonths? amount).map fun day => { m with day }
  | .weeks => m.addSeconds? (amount * 604800)
  | .days => m.addSeconds? (amount * 86400)
  | .hours => m.addSeconds? (amount * 3600)
  | .minutes => m.addSeconds? (amount * 60)
  | .seconds => m.addSeconds? amount

end Moment

end NoteTemplate
