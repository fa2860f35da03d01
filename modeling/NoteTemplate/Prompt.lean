import NoteTemplate.Text.Blank
import NoteTemplate.Text.Search

/-!
Names that ask a question in words: a text in double quotes, or anything behind `prompt:`.
-/

namespace NoteTemplate.Prompt

open NoteTemplate.Text

/-- The beginning of a name that asks in words. -/
def mark : String := "prompt:"

def isName (name : String) : Bool :=
  startsWith mark.toList name.toList || startsWith ['"'] name.toList

/-- The inside of a text in double quotes, behind the opening one, as it is written. The closing
quote has to end the text. -/
def quotedBody? : List Char → Option (List Char)
  | [] => none
  | c :: rest =>
    if c = '"' then (if rest = [] then some [] else none)
    else if c = '\\' then
      match rest with
      | e :: rest => (quotedBody? rest).map fun body => c :: e :: body
      | [] => none
    else (quotedBody? rest).map (c :: ·)

/-- Takes off the backslashes, except in front of a line break. -/
def unescape : List Char → List Char
  | [] => []
  | c :: rest =>
    if c = '\\' then
      match rest with
      | e :: rest => if e = '\n' then c :: e :: unescape rest else e :: unescape rest
      | [] => [c]
    else c :: unescape rest

/-- Text without quotes: anything but a bar and a closing brace. -/
def bare? (cs : List Char) : Option (List Char) :=
  if cs ≠ [] && cs.all (fun c => c ≠ '|' && c ≠ '\x7d') then some (trim cs) else none

def question? : List Char → Option (List Char)
  | '"' :: rest =>
    match quotedBody? rest with
    | some body => some (unescape body)
    | none => bare? ('"' :: rest)
  | cs => bare? cs

/-- The question that a name asks. A mark with nothing behind it is a question itself. -/
def ofName? (name : String) : Option String :=
  let cs := trim name.toList
  let found := match dropPrefix? mark.toList cs with
    | some rest => (question? rest).or (question? cs)
    | none => question? cs
  found.map String.ofList

end NoteTemplate.Prompt
