import NoteTemplate.Assoc

/-!
The values that templates work on: JSON data with integers of any size apart from floating-point
numbers, and with objects that keep the order of their fields.
-/

namespace NoteTemplate

/-- A value of the template language. The fields of an object stand in the order of insertion. -/
inductive Value where
  | null
  | bool (b : Bool)
  | int (n : Int)
  | float (x : Float)
  | str (s : String)
  | arr (items : List Value)
  | obj (fields : List (String × Value))
deriving Inhabited, Repr

namespace Value

/-- The name of the kind of a value, as messages give it. -/
def kind : Value → String
  | null => "null"
  | bool _ => "bool"
  | int _ => "int"
  | float _ => "float"
  | str _ => "str"
  | arr _ => "list"
  | obj _ => "dict"

def isNull : Value → Bool
  | null => true
  | _ => false

end Value

end NoteTemplate
