import NoteTemplate.Datum

/-!
The variables of a template: names with what they hold, in order. Extracted page data stands under
names in double braces, assignments under plain names.
-/

namespace NoteTemplate

/-- The key of a variable. Data files may hold keys that are no text; no template can name them. -/
inductive Key where
  | text (name : String)
  | other (kind : String)
deriving Inhabited, Repr, DecidableEq

abbrev Variables := Assoc Key Datum

namespace Variables

/-- What a variable holds; null if there is none of the name. -/
def get (vars : Variables) (name : String) : Datum :=
  (Assoc.get? vars (.text name)).getD Datum.null

/-- Whether there is a variable of a name. -/
def has (vars : Variables) (name : String) : Bool := (Assoc.get? vars (.text name)).isSome

def assign (vars : Variables) (name : String) (d : Datum) : Variables :=
  Assoc.set vars (.text name) d

/-- The variable under a name in braces, or if that holds nothing, under the plain name. -/
def field (vars : Variables) (name : String) : Datum :=
  let found := get vars (Value.wrapped name)
  if found.isNull then get vars name else found

/-- What the first step of a path leads to. -/
def step (vars : Variables) : Value.Step → Except Fault Datum
  | .key name => .ok (field vars name)
  | .index base index =>
    if base = "" then .ok (get vars (Value.bareKey index))
    else
      match field vars base with
      | .plain v => .ok (.plain (Value.selectIndex v index))
      | .deferred _ => .ok Datum.null

/-- What a path leads to. A deferred expression has no parts. -/
def walk (vars : Variables) (path : String) : Except Fault Datum :=
  if path = "" then .ok Datum.null
  else
    match Value.stepsOf path with
    | [] => .ok Datum.null
    | first :: rest => do
      match ← step vars first with
      | .deferred source => return if rest = [] then .deferred source else Datum.null
      | .plain v => return .plain (← Value.follow v rest)

def isPath (name : String) : Bool := name.toList.contains '.' || name.toList.contains '['

/-- What a name stands for: a variable under the name in braces, one under the plain name, or the
end of a path. -/
def resolve (vars : Variables) (name : String) : Except Fault Datum :=
  let name := Text.strip name
  let found := field vars name
  if !found.isNull then .ok found
  else if isPath name then walk vars name
  else .ok Datum.null

/-- The fields of an object as variables. -/
def ofFields (fields : Assoc String Value) : Variables :=
  fields.map fun (name, v) => (.text name, .plain v)

end Variables

end NoteTemplate
