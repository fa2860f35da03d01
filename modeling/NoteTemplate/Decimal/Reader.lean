import NoteTemplate.Decimal.Binary
import NoteTemplate.Fault
import NoteTemplate.Text.Blank
import NoteTemplate.Text.Digit
import NoteTemplate.Text.Word
import NoteTemplate.Text.Case

/-!
Reading numbers that people write: blanks around, digits of any script, single underscores between
digits, a sign, and for floating-point numbers a fraction, an exponent, infinities and NaN.
-/

namespace NoteTemplate.Decimal

open NoteTemplate.Text

/-- Blanks of the ASCII range that may stand around a number. -/
def isAsciiSpace (c : Char) : Bool := (9 ≤ c.toNat && c.toNat ≤ 13) || c == ' '

/-- Digits of other scripts become ASCII digits and other blanks become spaces. -/
def asciiForm (c : Char) : Char :=
  if c.toNat < 0x80 then c
  else if isBlank c then ' '
  else match digitValue? c with
    | some d => Char.ofNat (48 + d)
    | none => c

/-- The text of a number in ASCII without the blanks around it. -/
def normalForm (s : String) : List Char := trimBy isAsciiSpace (s.toList.map asciiForm)

/-- Takes a sign off the front; the flag says whether it was a minus. -/
def takeSign : List Char → Bool × List Char
  | '-' :: rest => (true, rest)
  | '+' :: rest => (false, rest)
  | rest => (false, rest)

/-- Drops the underscores that stand between two digits; none if one stands elsewhere. `previous`
says whether a digit precedes. -/
def dropUnderscores (previous : Bool) : List Char → Option (List Char)
  | [] => some []
  | '_' :: d :: rest =>
    if previous && isAsciiDigit d then (dropUnderscores true rest).map (d :: ·) else none
  | '_' :: [] => none
  | c :: rest => (dropUnderscores (isAsciiDigit c) rest).map (c :: ·)

/-- The most digits of an integer that is read from a text or written as one. -/
def maxDigits : Nat := 4300

/-- The smallest number with too many digits. -/
def digitLimit : Nat := Nat.pow 10 maxDigits

/-- Whether a character may stand in a run of digits. -/
def isNumeralPart (c : Char) : Bool := isAsciiDigit c || c == '_'

/-- The integer that a text writes. Too many digits at its front are at fault whatever follows
them. -/
def readInt (s : String) : Except Fault Int :=
  let (negative, body) := takeSign (normalForm s)
  match dropUnderscores false (body.takeWhile isNumeralPart) with
  | some digits =>
    if digits = [] then .error (.notAnInteger s)
    else if maxDigits < digits.length then .error (.numeralTooLong digits.length)
    else if body.all isNumeralPart then
      let n : Int := digitsValue digits
      .ok (if negative then -n else n)
    else .error (.notAnInteger s)
  | none => .error (.notAnInteger s)

/-- The integer that a text writes, if it can be read. -/
def readInt? (s : String) : Option Int := (readInt s).toOption

/-- The parts of a decimal: digits before the point, digits after it, and the exponent. -/
structure Parts where
  whole : List Char
  fraction : List Char
  exponent : Int

/-- Reads an exponent `e±digits` that ends the text, or nothing. -/
def readExponent? : List Char → Option Int
  | [] => some 0
  | c :: rest =>
    if c == 'e' || c == 'E' then
      let (negative, digits) := takeSign rest
      if digits ≠ [] && digits.all isAsciiDigit then
        let n : Int := digitsValue digits
        some (if negative then -n else n)
      else none
    else none

def readParts? (cs : List Char) : Option Parts :=
  let whole := cs.takeWhile isAsciiDigit
  let rest := cs.dropWhile isAsciiDigit
  let (fraction, rest) := match rest with
    | '.' :: after => (after.takeWhile isAsciiDigit, after.dropWhile isAsciiDigit)
    | _ => ([], rest)
  if whole = [] && fraction = [] then none
  else (readExponent? rest).map fun e => ⟨whole, fraction, e⟩

def Parts.toFloat (negative : Bool) (p : Parts) : Float :=
  ofScientific negative (digitsValue (p.whole ++ p.fraction)) (p.exponent - p.fraction.length)

def readFloat? (s : String) : Option Float :=
  match dropUnderscores false (normalForm s) with
  | none => none
  | some text =>
    let (negative, body) := takeSign text
    let name := String.ofList (body.map Char.toLower)
    if name == "inf" || name == "infinity" then
      some (if negative then -1.0 / 0.0 else 1.0 / 0.0)
    else if name == "nan" then some (0.0 / 0.0)
    else (readParts? body).map (·.toFloat negative)

end NoteTemplate.Decimal
