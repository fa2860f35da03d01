import NoteTemplate.Moment
import NoteTemplate.Text.Digit
import NoteTemplate.Text.Search
import NoteTemplate.Text.Word

/-!
Reading moments and durations in the notation of ISO 8601, such as `2024-01-15T10:30:00+02:00` and
`P1DT2H30M`.
-/

namespace NoteTemplate

open NoteTemplate.Text

/-- A point in time as it is written: a day or a time of day or both, and a distance from universal
time if there is one. -/
structure WrittenMoment where
  day : Option Day := none
  clock : Option Clock := none
  zone : Option Zone := none
deriving Repr, DecidableEq

namespace WrittenMoment

/-- A number of exactly some digits. -/
def readNumber? (count : Nat) (cs : List Char) : Option (Nat × List Char) :=
  let digits := cs.take count
  if digits.length = count && digits.all isAsciiDigit then some (digitsValue digits, cs.drop count)
  else none

/-- Whether a date ends here: at the end of the text or in front of a time. -/
def endsDate (cs : List Char) : Bool :=
  match cs with
  | [] => true
  | c :: _ => c == ' ' || c == 'T'

/-- A day in a week, behind the letter that introduces it. -/
def readWeek? (year : Nat) (extended : Bool) (cs : List Char) : Option (Option Day × List Char) := do
  let (week, cs) ← readNumber? 2 cs
  if endsDate cs then return (Day.ofWeekDate? year week 1, cs)
  else
    let cs ← if extended then dropPrefix? ['-'] cs else some cs
    let (day, cs) ← readNumber? 1 cs
    return (Day.ofWeekDate? year week day, cs)

/-- A month and day, or the place of a day in its year, with hyphens. -/
def readExtendedDate? (year : Nat) (cs : List Char) : Option (Option Day × List Char) :=
  match cs with
  | 'W' :: cs => readWeek? year true cs
  | cs => do
    let (month, cs) ← readNumber? 2 cs
    if endsDate cs then return (Day.of? year month 1, cs)
    else match cs with
      | '-' :: cs =>
        let (day, cs) ← readNumber? 2 cs
        return (Day.of? year month day, cs)
      | cs =>
        let (last, cs) ← readNumber? 1 cs
        return (Day.ofPlace? year (month * 10 + last : Nat), cs)

/-- A month and day, or the place of a day in its year, without hyphens. -/
def readCompactDate? (year : Nat) (cs : List Char) : Option (Option Day × List Char) :=
  match cs with
  | 'W' :: cs => readWeek? year false cs
  | cs => do
    let (month, cs) ← readNumber? 2 cs
    let (first, cs) ← readNumber? 1 cs
    if endsDate cs then return (Day.ofPlace? year (month * 10 + first : Nat), cs)
    else
      let (last, cs) ← readNumber? 1 cs
      return (Day.of? year month (first * 10 + last), cs)

def endsClock (cs : List Char) : Bool :=
  match cs with
  | [] => true
  | c :: _ => c == 'Z' || c == '+' || c == '-'

/-- The millionths of a second behind a point or comma; further digits are dropped. -/
def readFraction? (cs : List Char) : Option (Nat × List Char) :=
  match cs with
  | c :: rest =>
    if c = '.' || c = ',' then
      let digits := rest.takeWhile isAsciiDigit
      let kept := digits.take 6
      if digits = [] then none
      else some (digitsValue kept * Decimal.tenTo (6 - kept.length), rest.drop digits.length)
    else some (0, cs)
  | [] => some (0, [])

/-- Minutes and seconds behind an hour. A date and its time must agree on having marks between
their parts. -/
def readClockTail? (extended : Bool) (cs : List Char) : Option ((Nat × Nat × Nat) × List Char) :=
  if endsClock cs then some ((0, 0, 0), cs)
  else match cs with
    | ':' :: cs => do
      let (minute, cs) ← readNumber? 2 cs
      if endsClock cs then
        if extended then return ((minute, 0, 0), cs) else none
      else
        let (second, cs) ← readNumber? 2 (← dropPrefix? [':'] cs)
        let (micro, cs) ← readFraction? cs
        if extended then return ((minute, second, micro), cs) else none
    | cs => do
      if extended then none
      let (minute, cs) ← readNumber? 2 cs
      if endsClock cs then return ((minute, 0, 0), cs)
      let (second, cs) ← readNumber? 2 cs
      let (micro, cs) ← readFraction? cs
      return ((minute, second, micro), cs)

/-- A distance from universal time, if there is one, at the end of a text. -/
def readZone? (cs : List Char) : Option (Option Zone) :=
  match cs with
  | [] => some none
  | 'Z' :: rest => if rest = [] then some (some Zone.utc) else none
  | sign :: cs => do
    if sign ≠ '+' && sign ≠ '-' then none
    let (hour, cs) ← readNumber? 2 cs
    let (minute, cs) ← match cs with
      | [] => some (0, [])
      | ':' :: cs => readNumber? 2 cs
      | cs => readNumber? 2 cs
    let offset : Int := hour * 3600 + minute * 60
    if cs = [] && offset < 86400 then
      return some (Zone.ofOffset (if sign = '-' then -offset else offset))
    else none

/-- A time of day, with a zone or without, at the end of a text. -/
def readTime? (extended : Bool) (cs : List Char) : Option (Clock × Option Zone) := do
  let (hour, cs) ← readNumber? 2 cs
  let ((minute, second, micro), cs) ← readClockTail? extended cs
  let zone ← readZone? cs
  return (← Clock.of? hour minute second micro, zone)

/-- A moment that a text writes. A time alone has no zone. -/
def ofIso? (cs : List Char) : Option WrittenMoment :=
  let timeOnly (extended : Bool) (cs : List Char) : Option WrittenMoment := do
    let (clock, zone) ← readTime? extended cs
    if zone.isSome then none else return { clock := some clock }
  match cs with
  | 'T' :: cs => timeOnly false cs
  | cs => do
    let (century, rest) ← readNumber? 2 cs
    if startsWith [':'] rest then timeOnly true cs
    else
      let (years, rest) ← readNumber? 2 rest
      let year := century * 100 + years
      let extended := startsWith ['-'] rest
      let (day, rest) ←
        if extended then readExtendedDate? year (rest.drop 1) else readCompactDate? year rest
      let day ← day
      match rest with
      | [] => return { day := some day }
      | c :: rest =>
        if c = 'T' || c = ' ' then
          let (clock, zone) ← readTime? extended rest
          return { day := some day, clock := some clock, zone }
        else none

end WrittenMoment

/-- A length of time in the units in which it is written. -/
structure Duration where
  years : Nat := 0
  months : Nat := 0
  weeks : Nat := 0
  days : Nat := 0
  hours : Nat := 0
  minutes : Nat := 0
  seconds : Nat := 0
  micros : Nat := 0
deriving Repr, DecidableEq

namespace Duration

/-- Numbers in a duration are kept in 32 bits. -/
def word (n : Nat) : Nat := n % Decimal.twoTo 32

def wholePart (x : Float) : Nat := x.toUInt64.toNat

/-- A number with a fraction, if there is one. -/
def readAmount? (cs : List Char) : Option (Nat × Option Float × List Char) :=
  let digits := cs.takeWhile isAsciiDigit
  let rest := cs.drop digits.length
  if digits = [] then none
  else match rest with
    | c :: more =>
      if c = '.' || c = ',' then
        let fraction := more.takeWhile isAsciiDigit
        let x := Float.ofNat (digitsValue fraction) / Float.ofNat (Decimal.tenTo fraction.length)
        some (word (digitsValue digits), some x, more.drop fraction.length)
      else some (word (digitsValue digits), none, rest)
    | [] => some (word (digitsValue digits), none, [])

def addMinutePart (d : Duration) (part : Float) : Duration :=
  let seconds := part * 60.0
  let micros := ((seconds - seconds.floor) * 1000000.0).round
  { d with seconds := d.seconds + wholePart seconds, micros := d.micros + wholePart micros }

/-- A duration with a part of an hour added; seconds are rounded. -/
def addHourPart (d : Duration) (part : Float) : Duration :=
  let minutes := part * 60.0
  let seconds := ((minutes - minutes.floor) * 60.0).round
  { d with minutes := d.minutes + wholePart minutes, seconds := d.seconds + wholePart seconds }

def addDayPart (d : Duration) (part : Float) : Duration :=
  let hours := part * 24.0
  addHourPart { d with hours := d.hours + wholePart hours } (hours - hours.floor)

def addWeekPart (d : Duration) (part : Float) : Duration :=
  let days := part * 7.0
  addDayPart { d with days := d.days + wholePart days } (days - days.floor)

def withPart (d : Duration) (add : Duration → Float → Duration) (part : Option Float) : Duration :=
  (part.map (add d)).getD d

/-- A duration with an amount of a unit of time added. Units come in the order of their size. -/
def addTime? (d : Duration) (amount : Nat) (part : Option Float) (unit : Char) : Option Duration :=
  let fine := d.seconds ≠ 0 || d.micros ≠ 0
  if unit = 'H' then
    if d.minutes ≠ 0 || fine then none
    else some (withPart { d with hours := d.hours + amount } addHourPart part)
  else if unit = 'M' then
    if fine then none
    else some (withPart { d with minutes := d.minutes + amount } addMinutePart part)
  else if unit = 'S' then
    let micros := (part.map fun x => wholePart (x * 1000000.0).round).getD 0
    some { d with seconds := amount, micros := d.micros + micros }
  else none

/-- A duration with an amount of a unit of days added. Years and months have no parts, and weeks
stand without other units. -/
def addDate? (d : Duration) (amount : Nat) (part : Option Float) (unit : Char) : Option Duration :=
  if unit = 'Y' then
    if part.isSome || d.months ≠ 0 || d.days ≠ 0 then none else some { d with years := amount }
  else if unit = 'M' then
    if part.isSome || d.days ≠ 0 then none else some { d with months := amount }
  else if unit = 'W' then
    if d.years ≠ 0 || d.months ≠ 0 then none
    else some (withPart { d with weeks := amount } addWeekPart part)
  else if unit = 'D' then
    if d.weeks ≠ 0 then none
    else some (withPart { d with days := d.days + amount } addDayPart part)
  else none

/-- The units of a duration behind its first letter. Only the last amount can have a fraction. -/
def readUnits? : Nat → Bool → Bool → Duration → List Char → Option Duration
  | 0, _, _, _, _ => none
  | fuel + 1, inTime, hadPart, d, cs =>
    let next (inTime hadPart : Bool) (d : Duration) (rest : List Char) : Option Duration :=
      if rest = [] then some d else readUnits? fuel inTime hadPart d rest
    match cs with
    | 'T' :: rest => if inTime then none else next true hadPart d rest
    | cs => do
      let (amount, part, rest) ← readAmount? cs
      if hadPart then none
      match rest with
      | unit :: rest =>
        let d ← if inTime then addTime? d amount part unit else addDate? d amount part unit
        next inTime part.isSome d rest
      | [] => none

def ofIso? (cs : List Char) : Option Duration :=
  match cs with
  | 'P' :: rest => readUnits? (rest.length + 1) false false {} rest
  | _ => none

/-- The days of a duration, a year taken for 365 of them and a month for 30. -/
def totalDays (d : Duration) : Nat := d.years * 365 + d.months * 30 + d.weeks * 7 + d.days

def maxDays : Nat := 999999999

/-- The whole seconds of a duration, unless it is too long. -/
def totalSeconds? (d : Duration) : Option Nat :=
  let seconds := d.totalDays * 86400 + d.hours * 3600 + d.minutes * 60 + d.seconds +
    d.micros / 1000000
  if seconds / 86400 ≤ maxDays then some seconds else none

end Duration

end NoteTemplate
