import NoteTemplate.Filter.Arithmetic
import NoteTemplate.Filter.Bullets
import NoteTemplate.Filter.Dates
import NoteTemplate.Filter.Elements
import NoteTemplate.Filter.Grouping
import NoteTemplate.Filter.Items
import NoteTemplate.Filter.LetterCase
import NoteTemplate.Filter.Links
import NoteTemplate.Filter.Mapping
import NoteTemplate.Filter.PlainText
import NoteTemplate.Filter.Quotes
import NoteTemplate.Filter.Substitution
import NoteTemplate.Filter.Table

/-!
All filters of the template language.
-/

namespace NoteTemplate.Filter

/-- The filters that every template can use. -/
def builtins : List Filter :=
  letterCase ++ substitution ++ collections ++ mapping ++ arithmetic ++ grouping ++ quotation ++
    linking ++ listing ++ tabulation ++ plainText ++ elements ++ dating

def standard : Registry := Registry.ofList builtins

end NoteTemplate.Filter
