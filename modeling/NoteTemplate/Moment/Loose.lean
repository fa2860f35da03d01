import NoteTemplate.Moment.Iso
import NoteTemplate.Text.Blank

/-!
Reading moments as people write them, such as `Mon, 15 Jan 2024 10:00 GMT` or `1/15/2024 3pm`. The
text is cut into words, and each word is taken for the first thing that it can be.
-/

namespace NoteTemplate.Loose

open NoteTemplate.Text

/-- The kinds of characters that words consist of. -/
inductive Run where
  | letters
  | digits
  | pointedLetters
  | pointedDigits
deriving Repr, DecidableEq

def isLetter (c : Char) : Bool := isWord c && c != '_' && !isDigit c

/-- The run that goes on with a character behind another one, if it does. A point can stand between
letters and digits, and a comma behind two digits. -/
def Run.next? (run : Run) (size : Nat) (previous c : Char) : Option Run :=
  match run with
  | letters =>
    if isLetter c then some letters else if c = '.' then some pointedLetters else none
  | digits =>
    if isDigit c then some digits
    else if c = '.' || (c = ',' && 2 ≤ size) then some pointedDigits
    else none
  | pointedLetters =>
    if c = '.' || isLetter c then some pointedLetters
    else if isDigit c && previous = '.' then some pointedDigits
    else none
  | pointedDigits =>
    if c = '.' || isDigit c then some pointedDigits
    else if isLetter c && previous = '.' then some pointedLetters
    else none

/-- The rest of a run, and the run as which it ends. -/
def takeRun (run : Run) (size : Nat) (previous : Char) : List Char → List Char × Run
  | [] => ([], run)
  | c :: rest =>
    match run.next? size previous c with
    | some next =>
      let (more, last) := takeRun next (size + 1) c rest
      (c :: more, last)
    | none => ([], run)

def cutPoints (cs : List Char) : List (List Char) :=
  cs.splitBy fun a b => !(a == '.' || a == ',' || b == '.' || b == ',')

/-- The words of a run. Points and commas in it divide words unless it is a number with one of
them. -/
def runWords (run : List Char) (last : Run) : List (List Char) :=
  let pointed := last = .pointedLetters || last = .pointedDigits
  let cut := run.any isLetter || 1 < run.count '.' ||
    run.getLast? = some '.' || run.getLast? = some ','
  if pointed && cut then cutPoints run
  else if last = .pointedDigits && !run.contains '.' then
    [run.map fun c => if c = ',' then '.' else c]
  else [run]

/-- The words of a text: runs of letters, numbers, a space for each blank, and single marks. -/
def words : Nat → List Char → List (List Char)
  | 0, _ => []
  | _ + 1, [] => []
  | fuel + 1, c :: rest =>
    let run? := if isLetter c then some Run.letters else if isDigit c then some Run.digits else none
    match run? with
    | some run =>
      let (more, last) := takeRun run 1 c rest
      runWords (c :: more) last ++ words fuel (rest.drop more.length)
    | none => (if isBlank c then [' '] else [c]) :: words fuel rest

def fillers : List String := [
  " ", ".", ",", ";", "-", "/", "'", "at", "on", "and", "ad", "m", "t", "of", "st", "nd", "rd", "th"]

def findForm? (forms : List (List String)) (word : List Char) : Option Nat :=
  forms.findIdx? fun names => names.contains (String.ofList (word.map Char.toLower))

/-- The days of the week, from Monday on. -/
def dayForms : List (List String) := [
  ["mon", "monday"], ["tue", "tuesday"], ["wed", "wednesday"], ["thu", "thursday"],
  ["fri", "friday"], ["sat", "saturday"], ["sun", "sunday"]]

def monthForms : List (List String) := [
  ["jan", "january"], ["feb", "february"], ["mar", "march"], ["apr", "april"], ["may"],
  ["jun", "june"], ["jul", "july"], ["aug", "august"], ["sep", "sept", "september"],
  ["oct", "october"], ["nov", "november"], ["dec", "december"]]

/-- The units of time, from the hour down. -/
def unitForms : List (List String) := [
  ["h", "hour", "hours"], ["m", "minute", "minutes"], ["s", "second", "seconds"]]

def halfForms : List (List String) := [["am", "a"], ["pm", "p"]]

def universalNames : List String := ["utc", "gmt", "z"]

def isFiller (word : List Char) : Bool := fillers.contains (String.ofList (word.map Char.toLower))

def month? (word : List Char) : Option Nat := (findForm? monthForms word).map (· + 1)

def unit? (word : List Char) : Option Nat := findForm? unitForms word

def half? (word : List Char) : Option Nat := findForm? halfForms word

def isUniversal (word : List Char) : Bool :=
  universalNames.contains (String.ofList (word.map Char.toLower))

/-- The number that a word of digits writes. -/
def natural? (word : List Char) : Option Nat :=
  if word ≠ [] && word.all isAsciiDigit then some (digitsValue word) else none

/-- A number with the digits behind its point. -/
structure Amount where
  whole : Nat
  fraction : List Char := []
deriving Repr, DecidableEq

def amount? (word : List Char) : Option Amount :=
  match cutAtChar? '.' word with
  | none => (natural? word).map ({ whole := · })
  | some (whole, fraction) => do
    let n ← natural? whole
    let _ ← natural? fraction
    return ⟨n, fraction⟩

/-- The whole sixtieths in the fraction of a number; none if there is no fraction. -/
def Amount.sixtieths? (a : Amount) : Option Nat :=
  let value := digitsValue a.fraction
  if value = 0 then none else some (60 * value / Decimal.tenTo a.fraction.length)

/-- The numbers of a date in the order of the text, and what is known about them. -/
structure DateParts where
  numbers : List Nat := []
  yearAt : Option Nat := none
  monthAt : Option Nat := none
  dayAt : Option Nat := none
  /-- Whether a year is written with its century. -/
  fullYear : Bool := false
deriving Repr, DecidableEq

/-- What a number of a date can be known to be. -/
inductive Label where
  | year
  | month
  | day
deriving Repr, DecidableEq

/-- A number put behind the others. No two numbers can be known to be the same thing. -/
def DateParts.push? (p : DateParts) (n : Nat) (label : Option Label) : Option DateParts :=
  let place := p.numbers.length
  let p := { p with numbers := p.numbers ++ [n] }
  match label with
  | none => some p
  | some .year => if p.yearAt.isSome then none else some { p with yearAt := some place }
  | some .month => if p.monthAt.isSome then none else some { p with monthAt := some place }
  | some .day => if p.dayAt.isSome then none else some { p with dayAt := some place }

/-- A number put behind the others as it is written; one of more than two digits is a year. -/
def DateParts.pushWord? (p : DateParts) (word : List Char) : Option DateParts := do
  let n ← natural? word
  let q := { p with fullYear := true }
  if 2 < word.length then q.push? n (some .year) else p.push? n none

/-- A number put behind the others by its value; one above a hundred is a year. -/
def DateParts.pushAmount? (p : DateParts) (a : Amount) : Option DateParts :=
  let large := 100 < a.whole || (a.whole = 100 && a.sixtieths?.isSome)
  let q := { p with fullYear := true }
  if large then q.push? a.whole (some .year) else p.push? a.whole none

/-- Whether a number can still be the day. A month that does not exist is a fault. -/
def DateParts.couldBeDay? (p : DateParts) (a : Amount) : Option Bool :=
  let within (most : Nat) : Bool := 1 ≤ a.whole && (a.whole < most || (a.whole = most &&
    a.sixtieths?.isNone))
  let number (place : Option Nat) : Nat := (place.map fun i => p.numbers.getD i 0).getD 0
  if p.dayAt.isSome then some false
  else if p.monthAt.isNone then some (within 31)
  else
    let month := number p.monthAt
    if month < 1 || 12 < month then none
    else
      let year : Int := if p.yearAt.isSome then number p.yearAt else 2000
      some (within (Calendar.daysInMonth year month))

/-- Year, month and day of a date, as far as they are known. -/
abbrev Resolved := Option Nat × Option Nat × Option Nat

def DateParts.fromPlaces (p : DateParts) (year month day : Option Nat) : Resolved :=
  let number (place : Option Nat) : Option Nat := place.bind fun i => p.numbers[i]?
  (number year, number month, number day)

def thirdPlace (i j : Nat) : Nat := 3 - i - j

/-- A date of three numbers whose month may be known, where a number in front can be the year. -/
def resolveThree (p : DateParts) (a b c : Nat) : Resolved :=
  match p.monthAt with
  | some 0 => if 31 < b then (some b, some a, some c) else (some c, some a, some b)
  | some 1 => if 31 < a || c ≤ 31 then (some a, some b, some c) else (some c, some b, some a)
  | some _ => if 31 < b then (some b, some c, some a) else (some a, some c, some b)
  | none =>
    if 31 < a || p.yearAt = some 0 || (b ≤ 12 && c ≤ 31) then (some a, some b, some c)
    else if 12 < a then (some c, some b, some a)
    else (some c, some a, some b)

/-- Year, month and day of a date. -/
def DateParts.resolve? (p : DateParts) : Option Resolved :=
  let known := [p.yearAt, p.monthAt, p.dayAt].filterMap id |>.length
  let size := p.numbers.length
  if (size = known && 0 < known) then some (p.fromPlaces p.yearAt p.monthAt p.dayAt)
  else if size = 3 && known = 2 then
    some <| match p.yearAt, p.monthAt, p.dayAt with
      | some y, some m, none => p.fromPlaces (some y) (some m) (some (thirdPlace y m))
      | some y, none, some d => p.fromPlaces (some y) (some (thirdPlace y d)) (some d)
      | none, some m, some d => p.fromPlaces (some (thirdPlace m d)) (some m) (some d)
      | _, _, _ => (none, none, none)
  else match p.numbers with
    | [] => some (none, none, none)
    | [a] =>
      if p.monthAt.isSome then some (none, some a, none)
      else if 31 < a then some (some a, none, none)
      else some (none, none, some a)
    | [a, b] =>
      match p.monthAt with
      | some i =>
        let (month, other) := if i = 0 then (a, b) else (b, a)
        some (if 31 < other then (some other, some month, none) else (none, some month, some other))
      | none =>
        if 31 < a then some (some a, some b, none)
        else if 31 < b then some (some b, some a, none)
        else some (none, some a, some b)
    | [a, b, c] => some (resolveThree p a b c)
    | _ => none

/-- What has been read of a moment. -/
structure Draft where
  date : DateParts := {}
  weekday : Option Nat := none
  hour : Option Nat := none
  minute : Option Nat := none
  second : Option Nat := none
  micro : Option Nat := none
  zoneName : Option (List Char) := none
  zoneOffset : Option Int := none
  /-- Whether the next sign in front of a distance from universal time is turned around. -/
  turned : Bool := false
deriving Repr, DecidableEq

def seconds? (word : List Char) : Option (Nat × Nat) :=
  match cutAtChar? '.' word with
  | none => (natural? word).map fun n => (n, 0)
  | some (whole, fraction) => do
    let n ← natural? whole
    let _ ← natural? fraction
    let kept := fraction.take 6
    return (n, digitsValue kept * Decimal.tenTo (6 - kept.length))

def adjustHour (hour half : Nat) : Nat :=
  if hour < 12 && half = 1 then hour + 12 else if hour = 12 && half = 0 then 0 else hour

/-- A draft with minutes, whose fraction is seconds. -/
def Draft.withMinutes (d : Draft) (a : Amount) : Draft :=
  { d with minute := some a.whole, second := a.sixtieths? }

/-- A draft with a number of a unit of time; a unit below the second takes nothing. -/
def Draft.withUnit? (d : Draft) (word : List Char) (unit : Nat) : Option Draft := do
  let a ← amount? word
  match unit with
  | 0 =>
    let d := { d with hour := some a.whole }
    return match a.sixtieths? with
      | some minute => { d with minute := some minute }
      | none => d
  | 1 => return d.withMinutes a
  | 2 =>
    let (second, micro) ← seconds? word
    return { d with second := some second, micro := some micro }
  | _ => return d

/-- The unit of time of a number, and how many words behind it are used up. A unit stands behind the
number; if there is none, the number counts the next smaller unit than the one in front of it. -/
def unitOf? (before rest : List (List Char)) : Option (Nat × Nat) :=
  let behind : Option (Nat × Nat) := do return ((← unit? (← rest[0]?)), 1)
  let farBehind : Option (Nat × Nat) := do
    if rest[0]? = some [' '] then return ((← unit? (← rest[1]?)), 2) else none
  let inFront : Option (Nat × Nat) := do return ((← unit? (← before[0]?)) + 1, 0)
  let farInFront : Option (Nat × Nat) := do
    if rest = [] && before[0]? = some [' '] then return ((← unit? (← before[1]?)) + 1, 0) else none
  behind <|> farBehind <|> inFront <|> farInFront

/-- A draft with a date of numbers between marks. Yields how many words behind the first number are
used up. -/
def Draft.withMarkedDate? (d : Draft) (word mark : List Char) (rest : List (List Char)) :
    Option (Draft × Nat) := do
  let date ← d.date.pushWord? word
  match rest[1]? with
  | none => return ({ d with date }, 1)
  | some second =>
    if isFiller second then return ({ d with date }, 1)
    let date ←
      if second.all isDigit then date.pushWord? second
      else (month? second).bind fun m => date.push? m (some .month)
    if rest[2]? = some mark then
      let third ← rest[3]?
      let date ← match month? third with
        | some m => date.push? m (some .month)
        | none => date.pushWord? third
      return ({ d with date }, 4)
    else return ({ d with date }, 2)

/-- A draft with a number taken for the first thing that it can be: a time without marks, a date
without marks, an amount of a unit, a time, a date, or a day, month or year on its own. Yields how
many words behind the number are used up. -/
def Draft.withNumber? (d : Draft) (word : List Char) (before rest : List (List Char)) :
    Option (Draft × Nat) := do
  let a ← amount? word
  let size := word.length
  let next := rest[0]?
  let isClockNext := match next with
    | some w => w = [':'] || (unit? w).isSome
    | none => false
  if d.date.numbers.length = 3 && (size = 2 || size = 4) && d.hour.isNone && !isClockNext then
    let hour ← natural? (word.take 2)
    if size = 4 then
      return ({ d with hour := some hour, minute := some (← natural? (word.drop 2)) }, 0)
    else return ({ d with hour := some hour }, 0)
  else if size = 6 || (6 < size && (word.takeWhile (· ≠ '.')).length = 6) then
    if d.date.numbers = [] && !word.contains '.' then
      let date ← d.date.pushWord? (word.take 2)
      let date ← date.pushWord? ((word.drop 2).take 2)
      let date ← date.pushWord? (word.drop 4)
      return ({ d with date }, 0)
    else
      let hour ← natural? (word.take 2)
      let minute ← natural? ((word.drop 2).take 2)
      let (second, micro) ← seconds? (word.drop 4)
      return ({ d with
        hour := some hour, minute := some minute, second := some second, micro := some micro }, 0)
  else if size = 8 || size = 12 || size = 14 then
    let date ← d.date.pushWord? (word.take 4)
    let date ← date.pushWord? ((word.drop 4).take 2)
    let date ← date.pushWord? ((word.drop 6).take 2)
    let d := { d with date }
    if size = 8 then return (d, 0)
    let hour ← natural? ((word.drop 8).take 2)
    let minute ← natural? ((word.drop 10).take 2)
    let d := { d with hour := some hour, minute := some minute }
    if size = 12 then return (d, 0)
    else return ({ d with second := some (← natural? (word.drop 12)) }, 0)
  else match unitOf? before rest with
    | some (unit, used) => return ((← d.withUnit? word unit), used)
    | none =>
      if next = some [':'] && 2 ≤ rest.length then
        let minutes ← (rest[1]?).bind amount?
        let d := { d with hour := some a.whole }.withMinutes minutes
        if rest[2]? = some [':'] && 4 ≤ rest.length then
          let (second, micro) ← (rest[3]?).bind seconds?
          return ({ d with second := some second, micro := some micro }, 4)
        else return (d, 2)
      else match next with
        | none => return ({ d with date := (← d.date.pushAmount? a) }, 1)
        | some mark =>
          if mark = ['-'] || mark = ['/'] || mark = ['.'] then d.withMarkedDate? word mark rest
          else if isFiller mark then
            match (rest[1]?).bind half? with
            | some half => return ({ d with hour := some (adjustHour a.whole half) }, 2)
            | none => return ({ d with date := (← d.date.pushAmount? a) }, 1)
          else match half? mark with
            | some half =>
              if a.whole < 24 then
                return ({ d with hour := some (adjustHour a.whole half) }, 1)
              else if ← d.date.couldBeDay? a then
                return ({ d with date := (← d.date.pushAmount? a) }, 0)
              else none
            | none =>
              if ← d.date.couldBeDay? a then return ({ d with date := (← d.date.pushAmount? a) }, 0)
              else none

/-- The year whose neighbourhood gives two-digit years their century. -/
def centuryYear : Nat := 2025

/-- A year with its century: within fifty years of the present one. -/
def fullYear (year : Nat) : Nat :=
  if 100 ≤ year then year
  else
    let year := year + centuryYear / 100 * 100
    if centuryYear + 50 ≤ year then year - 100
    else if year + 50 < centuryYear then year + 100
    else year

def Draft.withMonth? (d : Draft) (month : Nat) (rest : List (List Char)) :
    Option (Draft × Nat) := do
  let date ← d.date.push? month (some .month)
  match rest with
  | [] => return ({ d with date }, 0)
  | mark :: more =>
    if mark = ['-'] || mark = ['/'] then
      let date ← date.pushWord? (← more[0]?)
      if more[1]? = some mark then return ({ d with date := (← date.pushWord? (← more[2]?)) }, 4)
      else return ({ d with date }, 2)
    else if mark = [' '] && (more[0]?).map (·.map Char.toLower) = some "of".toList &&
        more[1]? = some [' '] && 3 ≤ more.length then
      match (more[2]?).bind natural? with
      | some n =>
        let date := { date with fullYear := true }
        return ({ d with date := (← date.push? (fullYear n) (some .year)) }, 4)
      | none => return ({ d with date }, 4)
    else return ({ d with date }, 0)

def Draft.couldBeZone (d : Draft) (word : List Char) : Bool :=
  d.hour.isSome && d.zoneName.isNone && d.zoneOffset.isNone && word.length ≤ 5 &&
    (word.all (fun c => 'A' ≤ c && c ≤ 'Z') || word = ['z'])

/-- A draft with the name of a zone. A sign behind it tells the way to universal time, not the way
from it. -/
def Draft.withZoneName (d : Draft) (word : List Char) (rest : List (List Char)) : Draft :=
  let signed := rest[0]? = some ['+'] || rest[0]? = some ['-']
  { d with
    zoneName := if signed && isUniversal word then none else some word
    zoneOffset := if word = ['z'] && !signed then some 0 else none
    turned := signed }

/-- A draft with a distance from universal time behind its sign, and the name of a zone in
parentheses. -/
def Draft.withOffset? (d : Draft) (negative : Bool) (rest : List (List Char)) :
    Option (Draft × Nat) := do
  let first ← rest[0]?
  let ((hours, minutes), used) ←
    if first.length = 4 then do
      pure ((← natural? (first.take 2), ← natural? (first.drop 2)), 1)
    else if rest[1]? = some [':'] then do
      pure ((← natural? first, ← (rest[2]?).bind natural?), 3)
    else if first.length ≤ 2 then do pure ((← natural? first, 0), 1)
    else none
  let offset : Int := hours * 3600 + minutes * 60
  let after := rest.drop used
  let name := after[2]?
  let named := match after[0]?, after[1]?, name, after[3]? with
    | some gap, some ['('], some word, some [')'] =>
      isFiller gap && 3 ≤ word.length && { d with zoneOffset := none }.couldBeZone word
    | _, _, _, _ => false
  let d := { d with
    zoneOffset := some (if negative != d.turned then -offset else offset), turned := false }
  if named then return ({ d with zoneName := name }, used + 4) else return (d, used)

/-- A draft with one more word, and how many words behind it are used up. -/
def Draft.withWord? (d : Draft) (word : List Char) (before rest : List (List Char)) :
    Option (Draft × Nat) :=
  let isSign := word = ['+'] || word = ['-']
  let name := String.ofList (word.map Char.toLower)
  if (amount? word).isSome then d.withNumber? word before rest
  else if name = "nan" || name = "inf" || name = "infinity" then none
  else match findForm? dayForms word with
    | some weekday => some ({ d with weekday := some weekday }, 0)
    | none =>
      match month? word with
      | some month => d.withMonth? month rest
      | none =>
        match half? word with
        | some half =>
          match d.hour with
          | some hour =>
            if hour ≤ 12 then some ({ d with hour := some (adjustHour hour half) }, 0) else none
          | none => none
        | none =>
          if d.couldBeZone word then some (d.withZoneName word rest, 0)
          else if d.hour.isSome && isSign then d.withOffset? (word = ['-']) rest
          else if isFiller word then some (d, 0)
          else none

def Draft.ofWords? : Nat → Draft → List (List Char) → List (List Char) → Option Draft
  | 0, d, _, rest => if rest = [] then some d else none
  | _ + 1, d, _, [] => some d
  | fuel + 1, d, before, word :: rest => do
    let (d, used) ← d.withWord? word before rest
    Draft.ofWords? fuel d ((word :: rest.take used).reverse ++ before) (rest.drop used)

/-- The day that completes a date which is not written in full. -/
def defaultDay : Day := ⟨2025, 1, 1⟩

/-- The zone of a draft: universal time, or one at a distance from it. -/
def Draft.zone? (d : Draft) : Option Zone :=
  match d.zoneOffset with
  | none => some Zone.utc
  | some offset =>
    let universal := match d.zoneName with
      | some name => isUniversal name
      | none => false
    if offset = 0 || universal then some Zone.utc
    else if offset.natAbs < 86400 then some (Zone.ofOffset offset)
    else none

/-- The moment of a draft. A weekday without a day means the next such day. -/
def Draft.moment? (d : Draft) : Option Moment := do
  let (year, month, day) ← d.date.resolve?
  if d.date.numbers = [] && d.weekday.isNone && d.hour.isNone && d.minute.isNone &&
      d.second.isNone && d.zoneName.isNone && d.zoneOffset.isNone then none
  let year := year.map fun y => if d.date.fullYear then y else fullYear y
  let wholeYear : Int := ((year.map Int.ofNat).getD defaultDay.year)
  let wholeMonth := month.getD defaultDay.month
  let wholeDay := day.getD (min defaultDay.day (Calendar.daysInMonth wholeYear wholeMonth))
  let written ← Day.of? wholeYear wholeMonth wholeDay
  let clock ← Clock.of? (d.hour.getD 0) (d.minute.getD 0) (d.second.getD 0) (d.micro.getD 0)
  let date ← match d.weekday with
    | some weekday =>
      if (day.getD 0) = 0 then written.addDays? ((weekday + 7 - written.ofWeek) % 7 : Nat)
      else some written
    | none => some written
  return ⟨date, clock, ← d.zone?⟩

def moment? (cs : List Char) : Option Moment := do
  let plain := (cs.filter (·.toNat ≠ 0)).map fun c =>
    match digitValue? c with
    | some n => Char.ofNat (48 + n)
    | none => c
  let all := words (plain.length + 1) plain
  let d ← Draft.ofWords? (all.length + 1) {} [] all
  d.moment?

end NoteTemplate.Loose
