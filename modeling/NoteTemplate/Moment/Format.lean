import NoteTemplate.Moment
import NoteTemplate.Pattern.Reader
import NoteTemplate.Value.Json.Writer

/-!
Moments as text, following a format such as `YYYY-MM-DD`.
-/

namespace NoteTemplate.Moment

def monthNames : List String := [
  "January", "February", "March", "April", "May", "June", "July", "August", "September", "October",
  "November", "December"]

/-- The names of the days of a week, from Monday on. -/
def dayNames : List String := [
  "Monday", "Tuesday", "Wednesday", "Thursday", "Friday", "Saturday", "Sunday"]

def shortened (letters : Nat) (name : String) : String := String.ofList (name.toList.take letters)

def ordinal (n : Nat) : String :=
  let teens := 11 ≤ n % 100 && n % 100 ≤ 13
  Nat.repr n ++
    if n % 10 = 1 && !teens then "st"
    else if n % 10 = 2 && !teens then "nd"
    else if n % 10 = 3 && !teens then "rd"
    else "th"

/-- A number with at least some digits. -/
def padded (width n : Nat) : String := Decimal.padLeft width (Nat.repr n)

def tokenNotation : String :=
  "Mo|MM?M?M?|Do|DDDo|DD?D?D?|ddd?d?|do?|eo?|E|w[o|w]?|W[o|W]?|Qo?|YYYY|YY|Y|gg(?:ggg?)?|" ++
    "GG(?:GGG?)?|a|A|hh?|HH?|kk?|mm?|ss?|S\x7b1,9\x7d|x|X|zz?|ZZ?|LTS|LT|LL?L?L?"

/-- Marks of a format: text in brackets, a character behind a backslash, or a token. -/
def formatMarks : Pattern.Compiled :=
  Pattern.ofString ("\\[([^\\[]*)\\]|\\\\(.)|(" ++ tokenNotation ++ ")")

def namedFormats : List (String × String) := [
  ("LTS", "h:mm:ss A"), ("LT", "h:mm A"), ("L", "MM/DD/YYYY"), ("LL", "MMMM D, YYYY"),
  ("LLL", "MMMM D, YYYY h:mm A"), ("LLLL", "dddd, MMMM D, YYYY h:mm A")]

/-- The place of a day in a week that begins with Sunday as zero. -/
def fromSunday (m : Moment) : Nat := (m.day.ofWeek + 1) % 7

def twelveHour (m : Moment) : Nat := if m.clock.hour % 12 = 0 then 12 else m.clock.hour % 12

def tokenTexts (m : Moment) : List (String × String) :=
  let day := m.day
  let clock := m.clock
  let year := Nat.repr day.year.natAbs
  let monthName := monthNames.getD (day.month - 1) ""
  let dayName := dayNames.getD day.ofWeek ""
  let fraction (digits : Nat) : String := padded digits (clock.micro / Decimal.tenTo (6 - digits))
  [("YYYY", year), ("YY", String.ofList (year.toList.drop 2)), ("Y", year),
    ("Q", Nat.repr day.quarter), ("Qo", ordinal day.quarter),
    ("MMMM", monthName), ("MMM", shortened 3 monthName), ("MM", padded 2 day.month),
    ("M", Nat.repr day.month), ("Mo", ordinal day.month),
    ("DDDD", padded 3 day.ofYear), ("DDD", Nat.repr day.ofYear), ("DDDo", ordinal day.ofYear),
    ("DD", padded 2 day.day), ("D", Nat.repr day.day), ("Do", ordinal day.day),
    ("dddd", dayName), ("ddd", shortened 3 dayName), ("dd", shortened 2 dayName),
    ("d", Nat.repr m.fromSunday), ("do", ordinal m.fromSunday),
    ("e", Nat.repr m.fromSunday), ("eo", ordinal (m.fromSunday + 1)),
    ("E", Nat.repr (day.ofWeek + 1)), ("wo", ordinal day.weekOfYear),
    ("HH", padded 2 clock.hour), ("H", Nat.repr clock.hour),
    ("hh", padded 2 m.twelveHour), ("h", Nat.repr m.twelveHour),
    ("mm", padded 2 clock.minute), ("m", Nat.repr clock.minute),
    ("ss", padded 2 clock.second), ("s", Nat.repr clock.second),
    ("S", fraction 1), ("SS", fraction 2), ("SSS", fraction 3), ("SSSS", fraction 4),
    ("SSSSS", fraction 5), ("SSSSSS", fraction 6),
    ("A", if clock.hour < 12 then "AM" else "PM"),
    ("X", Value.Json.intText m.timestamp),
    ("x", Value.Json.intText (m.timestamp * 1000 + clock.micro / 1000)),
    ("zz", m.zone.name), ("z", m.zone.name),
    ("Z", Zone.offsetText m.zone.offset ":"), ("ZZ", Zone.offsetText m.zone.offset "")]

/-- The text of a token; a token that names no part stands for itself. -/
def tokenText (m : Moment) (token : String) : String := (m.tokenTexts.lookup token).getD token

/-- A moment in a format, with what to do for a token. -/
def formatWith (token : String → String) (format : String) : String :=
  String.ofList (Pattern.replace formatMarks (fun s found =>
    match found.text s 1, found.text s 2, found.text s 3 with
    | c :: rest, _, _ => c :: rest
    | [], c :: rest, _ => c :: rest
    | [], [], name => (token (String.ofList name)).toList) format.toList)

def format (m : Moment) (fmt : String) : String :=
  formatWith (fun token =>
    match namedFormats.lookup token with
    | some fmt => formatWith m.tokenText fmt
    | none => m.tokenText token) fmt

end NoteTemplate.Moment
