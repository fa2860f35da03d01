import NoteTemplate.Text.PrintableTable
import NoteTemplate.Text.Word
import NoteTemplate.Value.Json.Writer

/-!
Values as messages quote them: texts in single quotes, with characters that have no visible form
escaped.
-/

namespace NoteTemplate.Value

def isVisible (c : Char) : Bool :=
  let n := c.toNat
  if n < 0x80 then 32 ≤ n && n < 127 else !Text.inRanges Text.invisibleRanges n

/-- A number in hexadecimal with at least a count of digits. -/
def hexText (width n : Nat) : String :=
  Decimal.padLeft width (String.ofList (Nat.toDigits 16 n))

def notatedChar (quote c : Char) : String :=
  if c = quote || c = '\\' then String.ofList ['\\', c]
  else if c = '\n' then "\\n"
  else if c = '\r' then "\\r"
  else if c = '\t' then "\\t"
  else if isVisible c then String.ofList [c]
  else if c.toNat < 0x100 then "\\x" ++ hexText 2 c.toNat
  else if c.toNat < 0x10000 then "\\u" ++ hexText 4 c.toNat
  else "\\U" ++ hexText 8 c.toNat

/-- A text in quotes. Single quotes are used unless the text holds one and no double quote. -/
def notatedText (s : String) : String :=
  let quote := if s.toList.contains '\'' && !s.toList.contains '"' then '"' else '\''
  let mark := String.ofList [quote]
  mark ++ String.join (s.toList.map (notatedChar quote)) ++ mark

mutual

def notated : Value → String
  | null => "None"
  | bool b => if b then "True" else "False"
  | int n => Json.intText n
  | float x => Decimal.render Decimal.plainLayout ⟨"nan", "inf"⟩ x
  | str s => notatedText s
  | arr items => "[" ++ String.intercalate ", " (notatedItems items) ++ "]"
  | obj fields => "\x7b" ++ String.intercalate ", " (notatedFields fields) ++ "\x7d"

def notatedItems : List Value → List String
  | [] => []
  | item :: rest => notated item :: notatedItems rest

def notatedFields : List (String × Value) → List String
  | [] => []
  | (key, entry) :: rest => (notatedText key ++ ": " ++ notated entry) :: notatedFields rest

end

end NoteTemplate.Value
