import NoteTemplate.Fault
import NoteTemplate.Text.Blank
import NoteTemplate.Text.Search

/-!
Names that ask for content of the page: `selector:` with a selector of the page for its text, or
`selectorHtml:` for its markup, and behind a question mark an attribute.
-/

namespace NoteTemplate

/-- A question to the page. -/
structure SelectorQuery where
  selector : String
  attr : Option String := none
  html : Bool := false
deriving Inhabited, Repr, DecidableEq

namespace SelectorQuery

open NoteTemplate.Text

def textMark : String := "selector:"

/-- The beginning of a name that asks for markup. -/
def htmlMark : String := "selectorHtml:"

def isName (name : String) : Bool :=
  startsWith textMark.toList name.toList || startsWith htmlMark.toList name.toList

/-- The parts before and behind the first question mark that has something on both sides. -/
def cutAttribute? : List Char → Option (List Char × List Char)
  | [] => none
  | c :: rest =>
    match cutAtChar? '?' rest with
    | some (before, after) => if after = [] then none else some (c :: before, after)
    | none => none

/-- The question that the part of a name behind its beginning asks. -/
def ofBody (html : Bool) (body : List Char) : SelectorQuery :=
  let body := trim body
  let (selector, attr) := match cutAttribute? body with
    | some (selector, attr) => (selector, some (String.ofList attr))
    | none => (body, none)
  ⟨String.ofList (trim (replaceAll ['\\', '"'] ['"'] selector)), attr, html⟩

def ofName (name : String) : Except Fault SelectorQuery :=
  match dropPrefix? htmlMark.toList name.toList with
  | some body => .ok (ofBody true body)
  | none =>
    match dropPrefix? textMark.toList name.toList with
    | some body => .ok (ofBody false body)
    | none => .error (.notASelector name)

end SelectorQuery

end NoteTemplate
