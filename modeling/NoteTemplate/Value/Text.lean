import NoteTemplate.Value.Json.Writer
import NoteTemplate.Value.Json.Reader
import NoteTemplate.Text.Blank

/-!
The text of a value as templates print it, and reading back the structure of such a text.
-/

namespace NoteTemplate.Value

/-- A floating-point number as templates print it: a whole number without a fraction. -/
def floatText (x : Float) : String :=
  match Decimal.whole? x with
  | some n => Json.intText n
  | none => Decimal.render Decimal.plainLayout ⟨"nan", "inf"⟩ x

/-- The text of a value that can be written: nothing for null, and JSON for arrays and objects. -/
def text : Value → String
  | null => ""
  | bool b => if b then "true" else "false"
  | int n => Json.intText n
  | float x => floatText x
  | str s => s
  | arr items => toJson (arr items)
  | obj fields => toJson (obj fields)

/-- The text that a value is printed as, if its integers can be written. -/
def written (v : Value) : Except Fault String := v.ifWritable v.text

theorem written_of_writable {v : Value} (h : v.writable = true) : v.written = .ok v.text := if_pos h

theorem written_of_not_writable {v : Value} (h : v.writable = false) :
    v.written = .error .integerTooLong := if_neg (by simp [h])

/-- What is printed is the text of the value, and its integers can be written. -/
theorem written_ok {v : Value} {s : String} :
    v.written = .ok s ↔ v.writable = true ∧ v.text = s := by
  rw [written, ifWritable]
  split
  · next h => simp [h]
  · next h => simp [h]

@[simp] theorem written_str (s : String) : (str s).written = .ok s := rfl

/-- The structure of a text that begins like a JSON array or object and is one; any other text is
itself. -/
def ofStructured (s : String) : Value :=
  match Text.trim s.toList with
  | c :: rest =>
    if c = '[' ∨ c = '\x7b' then (Json.read? (c :: rest)).getD (str s) else str s
  | [] => str s

/-- The structure that a value stands for, see `ofStructured`. -/
def structured : Value → Value
  | str s => ofStructured s
  | v => v

end NoteTemplate.Value
