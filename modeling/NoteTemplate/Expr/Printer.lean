import NoteTemplate.Expr
import NoteTemplate.Value.Text

/-!
Writing expressions in the syntax of templates.
-/

namespace NoteTemplate

/-- Whether a character needs a backslash inside double quotes. -/
def needsBackslash (c : Char) : Bool := c == '\\' || c == '"'

/-- The characters of a text with a backslash before each quote and each backslash. -/
def backslashed : List Char → List Char
  | [] => []
  | c :: rest => if needsBackslash c then '\\' :: c :: backslashed rest else c :: backslashed rest

/-- A text in double quotes. -/
def quote (s : String) : String := "\"" ++ String.ofList (backslashed s.toList) ++ "\""

/-- A constant as it is written, if it can be. -/
def Literal.print : Literal → String
  | null => "null"
  | bool b => if b then "true" else "false"
  | int n => Value.text (.int n)
  | float x => Value.text (.float x)
  | text s => quote s

/-- The parts with the given separators between them; parts without a separator are left out. -/
def interleave (separators : List Separator) : List String → String
  | [] => ""
  | part :: rest =>
    part ++ String.join ((separators.zip rest).map fun (sep, part) => sep.text ++ part)

/-- The arguments of a filter in one of their two forms. -/
def layoutArgs (separators : List Separator) (parenthesized : Bool) (parts : List String) :
    String :=
  if parenthesized then "(" ++ String.intercalate ", " parts ++ ")"
  else interleave separators parts

namespace Expr

mutual

/-- The text of an expression that can be written. -/
def print : Expr → String
  | literal l _ => l.print
  | identifier name _ => name
  | member object name _ => print object ++ "." ++ name
  | index object key _ => print object ++ "[" ++ print key ++ "]"
  | not argument _ => "not " ++ print argument
  | binary operator left right _ => print left ++ " " ++ operator.text ++ " " ++ print right
  | group inner _ => "(" ++ print inner ++ ")"
  | filter value name args separators parenthesized _ =>
    let head := print value ++ "|" ++ name
    if args.isEmpty then head
    else head ++ ":" ++ layoutArgs separators parenthesized (printAll args)

/-- Expressions as they are written, one by one. -/
def printAll : List Expr → List String
  | [] => []
  | e :: rest => print e :: printAll rest

end

mutual

/-- Whether all integers of an expression have few enough digits to be written. -/
def writable : Expr → Bool
  | literal l _ => l.value.writable
  | identifier _ _ => true
  | member object _ _ => writable object
  | index object key _ => writable object && writable key
  | not argument _ => writable argument
  | binary _ left right _ => writable left && writable right
  | group inner _ => writable inner
  | filter value _ args _ _ _ => writable value && allWritable args

/-- Whether all of several expressions can be written. -/
def allWritable : List Expr → Bool
  | [] => true
  | e :: rest => writable e && allWritable rest

end

theorem allWritable_iff {es : List Expr} :
    allWritable es = true ↔ ∀ e ∈ es, e.writable = true := by
  induction es with
  | nil => simp [allWritable]
  | cons e rest ih => simp [allWritable, ih]

/-- An expression in the syntax of templates, if its integers can be written. -/
def written (e : Expr) : Except Fault String :=
  if e.writable then .ok e.print else .error .integerTooLong

/-- The source text of a prompt: an expression that applies filters, if any, to a text. -/
def promptSource? (e : Expr) : Option (Except Fault String) :=
  match e.base with
  | literal (.text _) _ => some e.written
  | _ => none

end Expr

end NoteTemplate
