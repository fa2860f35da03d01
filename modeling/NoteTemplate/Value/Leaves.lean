import NoteTemplate.Value.Basic

/-!
Changing the leaves of a value, which are all that stands in its arrays and objects and is neither.
-/

namespace NoteTemplate.Value

mutual

/-- The value with every leaf and every key changed; none if a leaf cannot be changed. Of two
fields whose keys become equal the first place and the last value count. -/
def mapLeaves? (key : String → String) (leaf : Value → Option Value) : Value → Option Value
  | .arr items => (mapItems? key leaf items).map .arr
  | .obj fields => (mapFields? key leaf fields).map fun fields => .obj (Assoc.ofPairs fields)
  | v => leaf v

/-- The items of an array with every leaf changed. -/
def mapItems? (key : String → String) (leaf : Value → Option Value) :
    List Value → Option (List Value)
  | [] => some []
  | v :: rest => do
    let v ← mapLeaves? key leaf v
    return v :: (← mapItems? key leaf rest)

/-- The fields of an object with every leaf and every key changed. -/
def mapFields? (key : String → String) (leaf : Value → Option Value) :
    List (String × Value) → Option (List (String × Value))
  | [] => some []
  | (name, v) :: rest => do
    let v ← mapLeaves? key leaf v
    return (key name, v) :: (← mapFields? key leaf rest)

end

end NoteTemplate.Value
