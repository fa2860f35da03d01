import NoteTemplate.Value.Basic
import NoteTemplate.Decimal.Reader
import NoteTemplate.Text.Digit
import NoteTemplate.Text.Search

/-!
Reading JSON text. Beside the standard grammar the names `NaN`, `Infinity` and `-Infinity` are
numbers; of fields with one name the last value counts, in the place of the first.
-/

namespace NoteTemplate.Value.Json

open NoteTemplate.Text

/-- The blanks of JSON. -/
def isSpace (c : Char) : Bool := c == ' ' || c == '\t' || c == '\n' || c == '\r'

/-- Drops leading blanks. -/
def skipSpace (cs : List Char) : List Char := cs.dropWhile isSpace

/-- The number that four hexadecimal digits at the front of a text write. -/
def readHexQuad? : List Char → Option (Nat × List Char)
  | a :: b :: c :: d :: rest => do
    let a ← hexDigitValue? a
    let b ← hexDigitValue? b
    let c ← hexDigitValue? c
    let d ← hexDigitValue? d
    return (((a * 16 + b) * 16 + c) * 16 + d, rest)
  | _ => none

def shortEscape? (c : Char) : Option Char :=
  if c = '"' then some '"'
  else if c = '\\' then some '\\'
  else if c = '/' then some '/'
  else if c = 'b' then some (Char.ofNat 8)
  else if c = 'f' then some (Char.ofNat 12)
  else if c = 'n' then some '\n'
  else if c = 'r' then some '\r'
  else if c = 't' then some '\t'
  else none

/-- A code unit between the two halves of a pair. -/
def isLeading (n : Nat) : Bool := 0xD800 ≤ n && n < 0xDC00

/-- The second half of a pair of code units. -/
def isTrailing (n : Nat) : Bool := 0xDC00 ≤ n && n < 0xE000

/-- Reads the code unit of an escape behind `\u`, and a second one if both form a pair. -/
def readUnit? (cs : List Char) : Option (Char × List Char) := do
  let (first, rest) ← readHexQuad? cs
  if isLeading first then
    match rest with
    | '\\' :: 'u' :: after =>
      match readHexQuad? after with
      | some (second, rest') =>
        if isTrailing second then
          return (Char.ofNat (0x10000 + (first - 0xD800) * 0x400 + (second - 0xDC00)), rest')
        else return (Char.ofNat first, rest)
      | none => return (Char.ofNat first, rest)
    | _ => return (Char.ofNat first, rest)
  else return (Char.ofNat first, rest)

/-- Reads the rest of a string behind its opening quote. Each step takes at least one character. -/
def readString? : Nat → List Char → Option (List Char × List Char)
  | 0, _ => none
  | _ + 1, [] => none
  | fuel + 1, c :: rest =>
    if c = '"' then some ([], rest)
    else if c = '\\' then
      match rest with
      | 'u' :: after => do
        let (unit, rest) ← readUnit? after
        let (text, rest) ← readString? fuel rest
        return (unit :: text, rest)
      | e :: after => do
        let unit ← shortEscape? e
        let (text, rest) ← readString? fuel after
        return (unit :: text, rest)
      | [] => none
    else if c.toNat < 32 then none
    else (readString? fuel rest).map fun (text, rest) => (c :: text, rest)

/-- The digits of a whole number at the front of a text: a single zero, or digits that do not begin
with one. -/
def takeWhole? : List Char → Option (List Char × List Char)
  | [] => none
  | c :: rest =>
    if c = '0' then some (['0'], rest)
    else if isAsciiDigit c then
      some (c :: rest.takeWhile isAsciiDigit, rest.dropWhile isAsciiDigit)
    else none

/-- The digits of a fraction, if a point and a digit follow. -/
def takeFraction : List Char → Option (List Char × List Char)
  | '.' :: rest =>
    let digits := rest.takeWhile isAsciiDigit
    if digits = [] then none else some (digits, rest.dropWhile isAsciiDigit)
  | _ => none

/-- The value of an exponent, if a mark and a digit follow. -/
def takeExponent : List Char → Option (Int × List Char)
  | c :: rest =>
    if c = 'e' || c = 'E' then
      let (negative, body) := Decimal.takeSign rest
      let digits := body.takeWhile isAsciiDigit
      if digits = [] then none
      else
        let n : Int := digitsValue digits
        some (if negative then -n else n, body.dropWhile isAsciiDigit)
    else none
  | [] => none

/-- Reads an unsigned number. A number with neither fraction nor exponent is an integer. -/
def readNumber? (negative : Bool) (cs : List Char) : Option (Value × List Char) := do
  let (whole, rest) ← takeWhole? cs
  match takeFraction rest with
  | some (fraction, rest) =>
    let (exponent, rest) := (takeExponent rest).getD (0, rest)
    return (.float (Decimal.Parts.toFloat negative ⟨whole, fraction, exponent⟩), rest)
  | none =>
    match takeExponent rest with
    | some (exponent, rest) =>
      return (.float (Decimal.Parts.toFloat negative ⟨whole, [], exponent⟩), rest)
    | none =>
      if whole.length > Decimal.maxDigits then none
      else
        let n : Int := digitsValue whole
        return (.int (if negative then -n else n), rest)

/-- The values that are written as a name. -/
def readName? (cs : List Char) : Option (Value × List Char) :=
  names.findSome? fun (name, v) => (dropPrefix? name.toList cs).map fun rest => (v, rest)
where
  /-- The names and what they stand for. -/
  names : List (String × Value) :=
    [("null", .null), ("true", .bool true), ("false", .bool false),
     ("NaN", .float (0.0 / 0.0)), ("Infinity", .float (1.0 / 0.0)),
     ("-Infinity", .float (-1.0 / 0.0))]

mutual

/-- Reads a value at the front of a text. The fuel bounds the number of steps. -/
def readValue? : Nat → List Char → Option (Value × List Char)
  | 0, _ => none
  | fuel + 1, cs =>
    match cs with
    | '"' :: rest => (readString? fuel rest).map fun (text, rest) => (.str (String.ofList text), rest)
    | '[' :: rest =>
      match skipSpace rest with
      | ']' :: rest => some (.arr [], rest)
      | rest => (readItems? fuel rest).map fun (items, rest) => (.arr items, rest)
    | '\x7b' :: rest =>
      match skipSpace rest with
      | '\x7d' :: rest => some (.obj [], rest)
      | rest => (readFields? fuel rest).map fun (fields, rest) => (.obj (Assoc.ofPairs fields), rest)
    | '-' :: rest =>
      match readNumber? true rest with
      | some found => some found
      | none => readName? cs
    | _ =>
      match readNumber? false cs with
      | some found => some found
      | none => readName? cs

/-- Reads the items of an array up to its closing bracket. -/
def readItems? : Nat → List Char → Option (List Value × List Char)
  | 0, _ => none
  | fuel + 1, cs => do
    let (item, rest) ← readValue? fuel cs
    match skipSpace rest with
    | ']' :: rest => return ([item], rest)
    | ',' :: rest =>
      let (items, rest) ← readItems? fuel (skipSpace rest)
      return (item :: items, rest)
    | _ => none

/-- Reads the fields of an object up to its closing brace. -/
def readFields? : Nat → List Char → Option (List (String × Value) × List Char)
  | 0, _ => none
  | fuel + 1, cs =>
    match cs with
    | '"' :: rest => do
      let (key, rest) ← readString? fuel rest
      match skipSpace rest with
      | ':' :: rest =>
        let (entry, rest) ← readValue? fuel (skipSpace rest)
        match skipSpace rest with
        | '\x7d' :: rest => return ([(String.ofList key, entry)], rest)
        | ',' :: rest =>
          let (fields, rest) ← readFields? fuel (skipSpace rest)
          return ((String.ofList key, entry) :: fields, rest)
        | _ => none
      | _ => none
    | _ => none

end

/-- The value of a whole JSON text. -/
def read? (cs : List Char) : Option Value :=
  match readValue? (2 * cs.length + 2) (skipSpace cs) with
  | some (v, rest) => if skipSpace rest = [] then some v else none
  | none => none

end NoteTemplate.Value.Json

namespace NoteTemplate.Value

/-- The value of a JSON text. -/
def ofJson? (s : String) : Option Value := Json.read? s.toList

end NoteTemplate.Value
