import NoteTemplate.Filter.Registry
import NoteTemplate.Text.Case
import NoteTemplate.Text.Search

/-!
Filters that write quotations and callouts.
-/

namespace NoteTemplate.Filter

open NoteTemplate.Text

/-- Each line of a text behind the mark of a quotation. -/
def quote (s : String) : String :=
  joinWith "\n" ((splitOnChar '\n' s.toList).map fun line => "> " ++ String.ofList line)

/-- The mark of a callout that can be folded: one that begins folded or unfolded. -/
def foldMark (word : String) : String :=
  let word := toLower word
  if word = "true" then "-" else if word = "false" then "+" else ""

/-- A text as a callout of a kind, with a heading and a fold if parameters give them. -/
def callout (s : String) (param : Option String) : String :=
  let args := Param.list param
  let kind := (args[0]?).getD ""
  let heading := (args[1]?).getD ""
  "> [!" ++ (if kind = "" then "info" else kind) ++ "]" ++ ((args[2]?).map foldMark).getD "" ++
    (if heading = "" then "" else " " ++ heading) ++ "\n" ++ quote s

def quotation : List Filter := [
  ofText "blockquote" quote "Prefix every line with >",
  ofParam "callout" callout "Callout block: callout:(\"info\",\"Title\",false)"]

end NoteTemplate.Filter
