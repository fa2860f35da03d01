import NoteTemplate.Filter.Registry
import NoteTemplate.Moment.Format
import NoteTemplate.Moment.FormatReader
import NoteTemplate.Moment.Reader

/-!
Filters for dates and lengths of time.
-/

namespace NoteTemplate.Filter

open NoteTemplate.Text

/-- The format of a date when none is asked for. -/
def defaultDateFormat : String := "YYYY-MM-DD"

/-- The moment that a text writes, in a format if one is given. -/
def readDate? (s inputFormat : String) : Option Moment :=
  let cs := trim s.toList
  if cs = [] then none
  else if inputFormat = "" then Moment.ofText? cs
  else Moment.ofFormat? inputFormat cs

/-- A date in another format. The parameters are that format and the one in which it is written. -/
def date (s : String) (param : Option String) : String :=
  let args := Param.list param
  let format := strip ((args[0]?).getD "")
  let inputFormat := strip ((args[1]?).getD "")
  match readDate? s inputFormat with
  | some m => m.format (if format = "" then defaultDateFormat else format)
  | none => s

def readShift? (cs : List Char) : Option (Int × Moment.Span) := do
  let (sign, rest) ← match cs with
    | c :: rest => if c = '+' || c = '-' then some (c, trimStart rest) else none
    | [] => none
  let digits := rest.takeWhile isDecimalDigit
  let word := lower (trimStart (rest.drop digits.length))
  let unit := if word.getLast? = some 's' then word.dropLast else word
  let span ← Moment.Span.ofName? (String.ofList unit)
  let amount ← Decimal.readInt? (String.ofList digits)
  return (if sign = '-' then -amount else amount, span)

/-- A date shifted by an amount of some unit. It fails where the calendar ends. -/
def shiftDate? (s : String) (param : Option String) : Option String :=
  match param, readDate? s "" with
  | some _, some m =>
    match readShift? (trim (Param.single param).toList) with
    | some (amount, span) => (m.add? amount span).map fun m => m.format defaultDateFormat
    | none => some s
  | _, _ => some s

/-- The seconds that a text writes: as digits, as a duration or as an interval. -/
def readSeconds? (cs : List Char) : Option Int :=
  let digits := if cs.getLast? = some '\n' then cs.dropLast else cs
  if digits ≠ [] && digits.all isDecimalDigit then Decimal.readInt? (String.ofList digits)
  else if startsWith ['P'] cs && !cs.contains '/' then
    ((Duration.ofIso? cs).bind Duration.totalSeconds?).map Int.ofNat
  else WrittenMoment.intervalSeconds? cs

def durationMarks : Pattern.Compiled := Pattern.ofString "HH|H|mm|m|ss|s"

/-- A number with at least two characters, the sign among them. -/
def twoPlaces (n : Int) : String :=
  if n < 0 then Value.Json.intText n else Zone.twoDigits n.toNat

/-- Hours, minutes and seconds in a format. -/
def formatDuration (seconds : Int) (format : String) : String :=
  let hours := Int.fdiv seconds 3600
  let minutes := (Int.fmod seconds 3600).toNat / 60
  let rest := (Int.fmod seconds 60).toNat
  let format :=
    if format ≠ "" then format else if hours = 0 then "mm:ss" else "HH:mm:ss"
  String.ofList (Pattern.replace durationMarks (fun s found =>
    (match String.ofList (found.text s 0) with
      | "HH" => twoPlaces hours
      | "H" => Value.Json.intText hours
      | "mm" => Zone.twoDigits minutes
      | "m" => Nat.repr minutes
      | "ss" => Zone.twoDigits rest
      | _ => Nat.repr rest).toList) format.toList)

/-- A length of time in a format. Without one, hours are left out if there are none. -/
def duration (s : String) (param : Option String) : String :=
  match readSeconds? (Param.unquote (strip s)).toList with
  | some seconds => formatDuration seconds (Param.single param)
  | none => s

def dating : List Filter := [
  ofParam "date" date "Format a date: date:\"YYYY-MM-DD\"",
  ofFallible "date_modify" shiftDate? "Shift a date: date_modify:\"+1 day\"",
  ofParam "duration" duration "Format a duration: duration:\"HH:mm:ss\""]

end NoteTemplate.Filter
