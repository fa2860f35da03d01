import NoteTemplate.Filter.Items
import NoteTemplate.Slot
import NoteTemplate.Text.Word
import NoteTemplate.Value.Path

/-!
The filter that maps the items of an array, as in `map:"item => item.name"`.
-/

namespace NoteTemplate.Filter

open NoteTemplate.Text

/-- What an item is mapped to. -/
inductive Shape where
  /-- A path from the name of the item, or JSON data. -/
  | path (text : List Char)
  /-- A text with slots. -/
  | text (pieces : List Piece)
  /-- An object, each field with a shape. -/
  | object (fields : List (String × Shape))

/-- A mapping: the name of the item and the shape of the result. -/
structure Arrow where
  item : List Char
  shape : Shape

/-- Takes off the marks around a text, if it has both. -/
def unwrap? (left right : Char) (cs : List Char) : Option (List Char) :=
  match cs with
  | c :: rest =>
    match rest.reverse with
    | d :: inner => if c = left && d = right then some inner.reverse else none
    | [] => none
  | [] => none

def readField? (part : List Char) : Option (String × List Char) :=
  (cutAtChar? ':' part).map fun (name, body) => (Param.unquote (String.ofList name), body)

/-- The shape that a text writes, where a number bounds the depth. -/
def readShape : Nat → List Char → Shape
  | 0, cs => .path cs
  | fuel + 1, cs =>
    let body := trim cs
    let body := ((unwrap? '(' ')' body).map trim).getD body
    match unwrap? '\x7b' '\x7d' body with
    | some inner =>
      .object (((Param.splitChars ',' inner).filterMap readField?).map fun (name, part) =>
        (name, readShape fuel part))
    | none =>
      match unwrap? '"' '"' body <|> unwrap? '\'' '\'' body with
      | some inner => .text (Piece.ofChars (Param.unescapeChars inner))
      | none => .path body

/-- The mapping that a text writes: a name, an arrow and a shape. -/
def readArrow? (cs : List Char) : Option Arrow :=
  let rest := trimStart cs
  let name := rest.takeWhile isWord
  match trimStart (rest.drop name.length) with
  | '=' :: '>' :: body =>
    if name = [] || body = [] then none else some ⟨name, readShape (body.length + 1) body⟩
  | _ => none

/-- What a path leads to from an item: the item itself, something inside it, or JSON data. -/
def lookupPath (name : List Char) (v : Value) (path : List Char) : Except Fault Value :=
  let path := trim path
  match dropPrefix? name path with
  | some [] => .ok v
  | some ('.' :: rest) => v.walk (String.ofList rest)
  | some ('[' :: rest) => v.walk (String.ofList ('[' :: rest))
  | _ => .ok ((Value.ofJson? (String.ofList path)).getD .null)

mutual

def Shape.apply (name : List Char) (v : Value) : Shape → Except Fault Value
  | .path p => lookupPath name v p
  | .text pieces => do
    let filled ← Piece.fill (fun path => do return (← lookupPath name v path).text.toList) pieces
    return .str (String.ofList filled)
  | .object fields => do return .obj (Assoc.ofPairs (← applyFields name v fields))

def applyFields (name : List Char) (v : Value) :
    List (String × Shape) → Except Fault (List (String × Value))
  | [] => .ok []
  | (field, shape) :: rest => do
    let w ← Shape.apply name v shape
    return (field, w) :: (← applyFields name v rest)

end

/-- The items of an array mapped. Text that is no JSON counts as an array of itself. -/
def mapItems? (s : String) (param : Option String) : Option String :=
  match readArrow? (Param.single param).toList with
  | none => some s
  | some arrow =>
    let items? := match Value.ofJson? s with
      | some (.arr items) => some items
      | none | some .null => some [.str s]
      | some _ => none
    match items? with
    | none => some s
    | some items =>
      match items.mapM fun v => arrow.shape.apply arrow.item v with
      | .ok mapped => some (Value.arr mapped).toJson
      | .error _ => none

def mapping : List Filter := [
  ofFallible "map" mapItems? "Map array items: map:\"item => item.name\""]

end NoteTemplate.Filter
