import NoteTemplate.Fault
import NoteTemplate.Value.Basic
import NoteTemplate.Decimal.Reader
import NoteTemplate.Text.Search
import NoteTemplate.Value.Json.Writer

/-!
Paths into a value, such as `author.name` or `items[0].title`.
-/

namespace NoteTemplate.Value

/-- One step of a path: a key, or a key that may be missing followed by an index in brackets. -/
inductive Step where
  | key (name : String)
  | index (base : String) (index : String)
deriving Repr, DecidableEq

/-- The step that a part of a path writes. What follows the first closing bracket is
ignored; brackets with nothing inside are part of the key. -/
def Step.ofChars (part : List Char) : Step :=
  match Text.cutAtChar? '[' part with
  | some (base, rest) =>
    match Text.cutAtChar? ']' rest with
    | some (inner, _) =>
      if inner = [] then .key (String.ofList part)
      else .index (String.ofList base) (String.ofList inner)
    | none => .key (String.ofList part)
  | none => .key (String.ofList part)

/-- The steps of a path, which points separate. -/
def stepsOf (path : String) : List Step := (Text.splitOnChar '.' path.toList).map Step.ofChars

/-- The name under which an extracted variable is kept. -/
def wrapped (name : String) : String := "\x7b\x7b" ++ name ++ "\x7d\x7d"

/-- The entry under a name: a wrapped name that holds a value wins over the plain one. -/
def field (fields : Assoc String Value) (name : String) : Value :=
  match Assoc.get? fields (wrapped name) with
  | some (.null) | none => (Assoc.get? fields name).getD .null
  | some v => v

/-- The index that a text of digits writes. Digits without a decimal value write none, and neither
do too many digits. -/
def indexOfDigits (s : String) : Except Fault Nat := (Decimal.readInt s).map Int.toNat

/-- What a key selects: a field of an object, an item of an array, or a length. -/
def select (v : Value) (key : String) : Except Fault Value :=
  match v with
  | .obj fields => .ok (field fields key)
  | .arr items =>
    if key ≠ "" ∧ key.toList.all Text.isDigit then do
      let i ← indexOfDigits key
      return (items[i]?).getD .null
    else if key = "length" then .ok (.int items.length)
    else .ok .null
  | .str s => .ok (if key = "length" then .int s.length else .null)
  | _ => .ok .null

/-- An item counted from the front, or with a negative position from the back. -/
def item (items : List Value) (position : Int) : Value :=
  if 0 ≤ position then (items[position.toNat]?).getD .null
  else if -(items.length : Int) ≤ position then
    (items[((items.length : Int) + position).toNat]?).getD .null
  else .null

/-- Drops the quotes around a key in brackets. -/
def bareKey (s : String) : String :=
  String.ofList (Text.trimBy (fun c => c == '"' || c == '\'') s.toList)

/-- What an index in brackets selects from an array or an object. -/
def selectIndex (v : Value) (index : String) : Value :=
  match v with
  | .arr items =>
    match Decimal.readInt? index with
    | some position => item items position
    | none => .null
  | .obj fields => (Assoc.get? fields (bareKey index)).getD .null
  | _ => .null

def step (v : Value) : Step → Except Fault Value
  | .key name => select v name
  | .index base index => do
    let target ← if base = "" then pure v else select v base
    return selectIndex target index

/-- What a list of steps leads to; null ends the way. -/
def follow (v : Value) : List Step → Except Fault Value
  | [] => .ok v
  | s :: rest =>
    match v with
    | .null => .ok .null
    | v => do follow (← step v s) rest

/-- What a path leads to. -/
def walk (v : Value) (path : String) : Except Fault Value :=
  if path = "" then .ok .null else follow v (stepsOf path)

end NoteTemplate.Value
