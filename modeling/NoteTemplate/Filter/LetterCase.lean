import NoteTemplate.Filter.Registry
import NoteTemplate.Text.Case
import NoteTemplate.Text.Naming
import NoteTemplate.Value.Leaves

/-!
Filters for the case of letters and the way names are written.
-/

namespace NoteTemplate.Filter

open NoteTemplate.Text

def onChars (f : List Char → List Char) (s : String) : String := String.ofList (f s.toList)

def capitalizeLeaf : Value → Value
  | .str s => .str (onChars Text.capitalize s)
  | v => v

/-- A capital at the front and small letters behind it, in JSON data at every text and key. -/
def capitalize (s : String) : String :=
  match Value.ofJson? s with
  | some v =>
    ((v.mapLeaves? (onChars Text.capitalize) fun leaf => some (capitalizeLeaf leaf)).getD
      v).toSpacedJson
  | none => onChars Text.capitalize s

def letterCase : List Filter := [
  ofText "lower" toLower "Lowercase",
  ofText "upper" toUpper "Uppercase",
  ofText "capitalize" capitalize "First letter uppercase, rest lowercase",
  ofText "title" (onChars titleCase) "Title Case Every Word",
  ofText "camel" (onChars camelCase) "camelCase",
  ofText "pascal" (onChars pascalCase) "PascalCase",
  ofText "kebab" (onChars kebabCase) "kebab-case",
  ofText "snake" (onChars snakeCase) "snake_case",
  ofText "uncamel" (onChars spacedWords) "camelCase -> space separated lowercase",
  ofText "trim" strip "Strip surrounding whitespace"]

end NoteTemplate.Filter
