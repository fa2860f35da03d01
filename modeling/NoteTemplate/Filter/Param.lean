import NoteTemplate.Text.Blank
import NoteTemplate.Token.Scan

/-!
The parameter text of a filter. Parameters are separated outside quotes and brackets, a backslash
protects the next character, and the quotes around a parameter are taken off after the split.
-/

namespace NoteTemplate.Param

open NoteTemplate.Text
open NoteTemplate.Token (isQuote)

/-- Takes off the parentheses around a text. -/
def stripParensChars (cs : List Char) : List Char :=
  match trim cs with
  | '(' :: rest =>
    match rest.reverse with
    | ')' :: inner => inner.reverse
    | _ => '(' :: rest
  | other => other

/-- Takes off the quotes around a text, if both ends have the same one. -/
def unquoteChars (cs : List Char) : List Char :=
  match trim cs with
  | first :: rest =>
    match rest.reverse with
    | close :: inner =>
      if first = close && isQuote first then inner.reverse else first :: rest
    | [] => [first]
  | [] => []

/-- Takes the backslash off every protected character. -/
def unescapeChars : List Char → List Char
  | [] => []
  | c :: rest =>
    if c = '\\' then
      match rest with
      | e :: rest => e :: unescapeChars rest
      | [] => [c]
    else c :: unescapeChars rest

/-- Where the splitting stands: the quote of an open string and the depth of brackets. -/
structure SplitState where
  quote : Option Char := none
  depth : Nat := 0
deriving Repr, DecidableEq

/-- The state behind a character. A closing bracket without an opening one changes nothing. -/
def SplitState.next (s : SplitState) (c : Char) : SplitState :=
  match s.quote with
  | some quote => if c = quote then { s with quote := none } else s
  | none =>
    if isQuote c then { s with quote := some c }
    else if c = '(' || c = '[' || c = '\x7b' then { s with depth := s.depth + 1 }
    else if c = ')' || c = ']' || c = '\x7d' then { s with depth := s.depth - 1 }
    else s

/-- Whether a character changes the state. -/
def isMark (c : Char) : Bool :=
  isQuote c || c = '(' || c = '[' || c = '\x7b' || c = ')' || c = ']' || c = '\x7d'

def SplitState.separates (s : SplitState) (separator : Char) (c : Char) : Bool :=
  s.quote.isNone && s.depth == 0 && !isMark c && separator == c

/-- Puts characters in front of the first part. -/
def prepend (cs : List Char) : List (List Char) → List (List Char)
  | [] => [cs]
  | part :: rest => (cs ++ part) :: rest

/-- The parts of a text between its separators, blanks and all. -/
def splitRaw (separator : Char) (s : SplitState) : List Char → List (List Char)
  | [] => [[]]
  | c :: rest =>
    if c = '\\' then
      match rest with
      | e :: rest => prepend [c, e] (splitRaw separator s rest)
      | [] => [[c]]
    else if s.separates separator c then [] :: splitRaw separator s rest
    else prepend [c] (splitRaw separator (s.next c) rest)

/-- The parts of a text between its separators, without the blanks around them. Blank text has
none. -/
def splitChars (separator : Char) (cs : List Char) : List (List Char) :=
  if cs.all isBlank then [] else (splitRaw separator {} cs).map trim

/-- Takes off the parentheses around a text. -/
def stripParens (s : String) : String := String.ofList (stripParensChars s.toList)

/-- Takes off the quotes around a text. -/
def unquote (s : String) : String := String.ofList (unquoteChars s.toList)

/-- Takes the backslash off every protected character. -/
def unescape (s : String) : String := String.ofList (unescapeChars s.toList)

/-- The parts of a text between separators. -/
def split (separator : Char) (s : String) : List String :=
  (splitChars separator s.toList).map String.ofList

/-- A part without its quotes and backslashes. -/
def decode (part : String) : String := unescape (unquote part)

/-- The parameters of a filter. -/
def args (separator : Char) (param : Option String) : List String :=
  match param with
  | none => []
  | some text => if text = "" then [] else (split separator (stripParens text)).map decode

/-- The parameters of a filter, separated by commas. -/
def list (param : Option String) : List String := args ',' param

/-- The parameter of a filter as one text. -/
def single (param : Option String) : String :=
  match param with
  | none => ""
  | some text => if text = "" then "" else decode (stripParens text)

end NoteTemplate.Param
