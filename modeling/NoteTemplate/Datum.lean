import NoteTemplate.Value.Order
import NoteTemplate.Value.Path

/-!
What a variable holds or an expression yields while a template is rendered: a value, or an
expression put off until the rendered text is looked through a second time.
-/

namespace NoteTemplate

/-- A value, or the source text of an expression that is resolved later. -/
inductive Datum where
  | plain (v : Value)
  | deferred (source : String)
deriving Inhabited, Repr

namespace Datum

/-- The text that stands in the output for a deferred expression. -/
def placeholder (source : String) : String := Value.wrapped source

/-- No value. -/
def null : Datum := plain .null

/-- Whether there is no value. -/
def isNull : Datum → Bool
  | plain v => v.isNull
  | deferred _ => false

/-- The value that comparisons see: a deferred expression is its placeholder. -/
def comparable : Datum → Value
  | plain v => v
  | deferred source => .str (placeholder source)

def text : Datum → String
  | plain v => v.text
  | deferred source => placeholder source

/-- The text that is printed. -/
def written : Datum → Except Fault String
  | plain v => v.written
  | deferred source => .ok (placeholder source)

/-- What is printed is the text. -/
theorem text_of_written {d : Datum} {s : String} (h : d.written = .ok s) : d.text = s := by
  cases d with
  | plain v => exact (Value.written_ok.mp h).2
  | deferred source => exact Except.ok.inj h

/-- Whether a condition holds. A deferred expression counts as true. -/
def truthy : Datum → Bool
  | plain v => v.truthy
  | deferred _ => true

/-- Whether a fallback replaces it. -/
def nullish : Datum → Bool
  | plain v => v.nullish
  | deferred _ => false

def kind : Datum → String
  | plain v => v.kind
  | deferred _ => "deferred"

/-- The structure that a text stands for. -/
def structured : Datum → Datum
  | plain v => plain v.structured
  | d => d

end Datum

end NoteTemplate
