import NoteTemplate.Decimal.Reader
import NoteTemplate.Moment.Format
import NoteTemplate.Moment.Loose

/-!
Reading moments that are written in a given format, such as `DD/MM/YYYY`.
-/

namespace NoteTemplate.Moment

open NoteTemplate.Text

/-- A piece of a format: a character that stands for itself, or a token. Brackets stand for
nothing. -/
inductive FormatPiece where
  | char (c : Char)
  | token (name : String)
deriving Repr, DecidableEq

/-- The tokens of a format that is read. None of them stands in front of a closing bracket. -/
def readingMarks : Pattern.Compiled :=
  Pattern.ofString ("[\\[\\]]|(" ++ tokenNotation ++ ")(?!\\])")

def formatPieces (format : String) : List FormatPiece :=
  let s : Pattern.Subject := ⟨format.toList.toArray⟩
  go s 0 (Pattern.matchesOf readingMarks s)
where
  /-- The pieces from a place on, given the marks that follow it. -/
  go (s : Pattern.Subject) (last : Nat) : List Pattern.Found → List FormatPiece
    | [] => (s.slice last s.size).map .char
    | found :: rest =>
      (s.slice last found.start).map .char ++
        (match found.text s 1 with
          | [] => []
          | name => [.token (String.ofList name)]) ++ go s found.stop rest

/-- A pattern that matches one of given names. -/
def oneOf (names : List String) : Pattern :=
  names.foldr (fun name p => .alt
    (name.toList.foldr (fun c p => .seq (Pattern.literal {} c) p) .empty) p) .never

def notated (s : String) : Pattern := (Pattern.ofString s).pattern

def halfNames : List String := ["AM", "PM"]

def tokenPatterns : List (String × Pattern) := [
  ("Y", notated "[+-]?\\d+"), ("YY", notated "\\d\\d?|\\d\\d"),
  ("YYYY", notated "\\d\x7b1,4\x7d|\\d\x7b4\x7d"), ("Q", notated "\\d"),
  ("M", notated "\\d\\d?"), ("MM", notated "\\d\\d?|\\d\\d"),
  ("MMM", oneOf (monthNames.map (shortened 3))), ("MMMM", oneOf monthNames),
  ("D", notated "\\d\\d?"), ("DD", notated "[0-9 ]\\d?|\\d\\d"),
  ("DDD", notated "\\d\x7b1,3\x7d"), ("DDDD", notated "\\d\x7b3\x7d"),
  ("Do", notated "\\d+st|\\d+nd|\\d+rd|\\d+th"),
  ("dddd", oneOf dayNames), ("ddd", oneOf (dayNames.map (shortened 3))),
  ("dd", oneOf (dayNames.map (shortened 2))), ("d", notated "\\d"), ("E", notated "\\d"),
  ("H", notated "\\d\\d?"), ("HH", notated "\\d\\d?|\\d\\d"),
  ("h", notated "\\d\\d?"), ("hh", notated "\\d\\d?|\\d\\d"),
  ("m", notated "\\d\\d?"), ("mm", notated "\\d\\d?|\\d\\d"),
  ("s", notated "\\d\\d?"), ("ss", notated "\\d\\d?|\\d\\d"),
  ("S", notated "\\d\x7b1,3\x7d|\\d"), ("SS", notated "\\d\x7b1,3\x7d|\\d\\d"),
  ("SSS", notated "\\d\x7b1,3\x7d|\\d\x7b3\x7d"), ("SSSS", notated "\\d+"),
  ("SSSSS", notated "\\d+"), ("SSSSSS", notated "\\d+"),
  ("X", notated "[+-]?\\d+(?:\\.\\d\x7b1,6\x7d)?"), ("x", notated "[+-]?\\d+"),
  ("Z", notated "[Zz]|[+-]\\d\\d:?\\d\\d"), ("ZZ", notated "[Zz]|[+-]\\d\\d(?::?\\d\\d)?"),
  ("z", notated "[A-Za-z0-9-+]+(?:/[A-Za-z0-9-+_]+)?"),
  ("a", oneOf halfNames), ("A", oneOf halfNames)]

/-- The pattern of a format with one group for each token, and the tokens in order. There is none if
a token cannot be read or stands twice. -/
def readingPattern? (pieces : List FormatPiece) : Option (Pattern × List String) :=
  pieces.foldrM (fun piece (p, tokens) => match piece with
    | .char c => some (.seq (Pattern.literal {} c) p, tokens)
    | .token name =>
      if tokens.contains name then none
      else (tokenPatterns.lookup name).map fun inner =>
        (.seq (.group (pieces.length - tokens.length) inner) p, name :: tokens))
    (.empty, [])

/-- What has been read of a moment in a format. -/
structure Fields where
  year : Option Int := none
  month : Option Nat := none
  day : Option Nat := none
  hour : Option Nat := none
  minute : Option Nat := none
  second : Option Nat := none
  micro : Option Nat := none
  quarter : Option Nat := none
  dayOfWeek : Option Nat := none
  dayOfYear : Option Nat := none
  /-- Whether the time is in the second half of the day. -/
  afternoon : Option Bool := none
  timestamp : Option Float := none
  zone : Option Zone := none

/-- The number in a text, which may begin with a space. -/
def fieldNumber? (text : List Char) : Option Nat :=
  (Decimal.readInt? (String.ofList text)).map Int.toNat

def shortYear (n : Nat) : Nat := if n ≤ 68 then n + 2000 else n + 1900

/-- The distance from universal time in hours and minutes behind a sign. -/
def readOffset? (text : List Char) : Option Zone := do
  let (sign, rest) ← match text with
    | c :: rest => some (c, rest)
    | [] => none
  let digits := rest.filter (· ≠ ':')
  let hours ← fieldNumber? (digits.take 2)
  let minutes ← if digits.length = 2 then some 0 else fieldNumber? (digits.drop 2)
  let offset : Int := hours * 3600 + minutes * 60
  if offset < 86400 then return Zone.ofOffset (if sign = '-' then -offset else offset) else none

def Fields.set? (f : Fields) (token : String) (text : List Char) : Option Fields :=
  let number (set : Nat → Fields) : Option Fields := (fieldNumber? text).map set
  let name (names : List String) (set : Option Nat → Fields) : Option Fields :=
    some (set (names.idxOf? (String.ofList text)))
  match token with
  | "YYYY" => number fun n => { f with year := some n }
  | "YY" => number fun n => { f with year := some (shortYear n : Nat) }
  | "Q" => number fun n => { f with quarter := some n }
  | "M" | "MM" => number fun n => { f with month := some n }
  | "MMM" => name (monthNames.map (shortened 3)) fun i => { f with month := i.map (· + 1) }
  | "MMMM" => name monthNames fun i => { f with month := i.map (· + 1) }
  | "D" | "DD" => number fun n => { f with day := some n }
  | "Do" => (fieldNumber? (text.takeWhile isDecimalDigit)).map fun n => { f with day := some n }
  | "DDD" | "DDDD" => number fun n => { f with dayOfYear := some n }
  | "dddd" => name dayNames fun i => { f with dayOfWeek := i }
  | "ddd" => name (dayNames.map (shortened 3)) fun i => { f with dayOfWeek := i }
  | "dd" => name (dayNames.map (shortened 2)) fun i => { f with dayOfWeek := i }
  | "d" => number fun n => { f with dayOfWeek := some n }
  | "E" => (fieldNumber? text).bind fun n =>
    if n = 0 then none else some { f with dayOfWeek := some (n - 1) }
  | "H" | "HH" => number fun n => { f with hour := some n }
  | "h" | "hh" => (fieldNumber? text).bind fun n =>
    if 12 < n then none else some { f with hour := some n }
  | "m" | "mm" => number fun n => { f with minute := some n }
  | "s" | "ss" => number fun n => { f with second := some n }
  | "S" => number fun n => { f with micro := some (n * 100000) }
  | "SS" => number fun n => { f with micro := some (n * 10000) }
  | "SSS" => number fun n => { f with micro := some (n * 1000) }
  | "SSSS" => number fun n => { f with micro := some (n * 100) }
  | "SSSSS" => number fun n => { f with micro := some (n * 10) }
  | "SSSSSS" => number fun n => { f with micro := some n }
  | "a" | "A" => name halfNames fun i => { f with afternoon := i.map (· == 1) }
  | "X" => (Decimal.readFloat? (String.ofList text)).map fun x => { f with timestamp := some x }
  | "x" => (Decimal.readFloat? (String.ofList text)).map fun x =>
    { f with timestamp := some (x / 1000.0) }
  | "Z" | "ZZ" => (readOffset? text).map fun zone => { f with zone := some zone }
  | "z" => if text = "UTC".toList then some { f with zone := some Zone.utc } else none
  | _ => none

def readFields? (p : Pattern.Compiled) (tokens : List (String × Nat)) (cs : List Char) :
    Option Fields :=
  let s : Pattern.Subject := ⟨cs.toArray⟩
  (Pattern.matchesOf p s).foldlM (fun f found =>
    tokens.foldlM (fun f (token, group) => f.set? token (found.text s group)) f) {}

/-- The moment of a timestamp; the digits behind its point are its millionths. -/
def ofTimestamp? (x : Float) : Option Moment := do
  let text := (Decimal.render Decimal.plainLayout ⟨"nan", "inf"⟩ x).toList
  let micro ← match cutAtChar? '.' text with
    | some (_, fraction) =>
      if fraction.all isAsciiDigit then
        some (digitsValue (fraction ++ List.replicate (6 - fraction.length) '0'))
      else none
    | none => some 0
  let total := (← Decimal.floor? x) + 719162 * 86400
  let day ← Day.ofCount? (Int.fdiv total 86400)
  if micro < 1000000 then
    return ⟨day, Clock.ofSeconds (Int.fmod total 86400).toNat micro, Zone.utc⟩
  else none

def Fields.fullHour? (f : Fields) : Option (Option Nat) :=
  match f.afternoon with
  | none => some f.hour
  | some pm => do
    let hour ← f.hour
    if 13 ≤ hour then none
    else return some (hour % 12 + if pm then 12 else 0)

/-- The day that fields mean. A place in the year and a day of the week move it. -/
def Fields.day? (f : Fields) : Option Day := do
  let base := Loose.defaultDay
  let year := f.year.getD base.year
  let (month, day) ← match f.quarter with
    | some q => if 1 ≤ q && q ≤ 4 then some (some (3 * q - 2), some 1) else none
    | none => some (f.month, f.day)
  let (month, day) ← match f.dayOfYear with
    | some place =>
      if 1000 ≤ year then (Day.ofPlace? year place).map fun d => (some d.month, some d.day) else none
    | none => some (month, day)
  match f.dayOfWeek with
  | some weekday =>
    let d ← Day.of? year (month.getD base.month) (day.getD base.day)
    if weekday < 7 then d.addDays? ((weekday : Int) - d.ofWeek) else none
  | none =>
    let month := month.getD (if f.year.isSome then 1 else base.month)
    let day := day.getD (if f.year.isSome || f.month.isSome then 1 else base.day)
    Day.of? year month day

/-- The moment that fields mean; what is not written counts from the beginning. -/
def Fields.moment? (f : Fields) : Option Moment :=
  match f.timestamp with
  | some x => ofTimestamp? x
  | none => do
    let hour ← f.fullHour?
    let day ← f.day?
    let clock ← Clock.of? (hour.getD 0) (f.minute.getD 0) (f.second.getD 0) (f.micro.getD 0)
    return ⟨day, clock, f.zone.getD Zone.utc⟩

/-- The moment that a text writes in a format, which must have a token. -/
def ofFormat? (format : String) (cs : List Char) : Option Moment := do
  let pieces := formatPieces format
  let (p, tokens) ← readingPattern? pieces
  if tokens = [] then none
  -- The last token has the group with the highest number.
  let groups := tokens.zipIdx.map fun (token, i) => (token, pieces.length - (tokens.length - 1 - i))
  let s : Pattern.Subject := ⟨cs.toArray⟩
  let whole : Pattern.Compiled := ⟨.seq p (.anchor .textEnd), pieces.length⟩
  let _ ← Pattern.matchAt? whole s 0 false
  let f ← readFields? ⟨p, pieces.length⟩ groups cs
  f.moment?

end NoteTemplate.Moment
