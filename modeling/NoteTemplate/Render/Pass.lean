import NoteTemplate.Filter.Registry
import NoteTemplate.Node
import NoteTemplate.Variables

/-!
One pass of rendering: what it is given, what it changes, and how it stops.
-/

namespace NoteTemplate.Render

/-- The answer of a resolver to a name that only the surroundings can resolve. -/
inductive Resolution where
  | value (v : Value)
  /-- The name is left to the second look through the rendered text. -/
  | declined
  | failed (message : String)
deriving Inhabited, Repr

/-- A filter that belongs to one rendering only. It works on values and may fail with a message. -/
abbrev CustomFilter := Value → List Value → Except String Value

/-- The resolver of a pass: it is told the variables where the name stands, and may change a state
of its own. -/
abbrev Resolver (σ : Type) := String → Variables → StateM σ Resolution

/-- What a pass is given. -/
structure Context (σ : Type) where
  url : String := ""
  resolver : Option (Resolver σ) := none
  filters : Assoc String CustomFilter := []
  registry : Registry := []

/-- A mistake noted while rendering, with its place if it has one. -/
structure RenderError where
  message : String
  place : Option Place := none
deriving Inhabited, Repr, DecidableEq

/-- The message with the place. -/
def RenderError.text (e : RenderError) : String :=
  match e.place with
  | none => e.message
  | some p =>
    e.message ++ " (line " ++ Nat.repr p.line ++ ", column " ++ Nat.repr p.column ++ ")"

/-- What a pass changes. -/
structure Pass (σ : Type) where
  vars : Variables
  /-- The mistakes so far, the latest first. -/
  errors : List RenderError := []
  /-- Whether blanks are to be cut off the next output. -/
  pendingTrim : Bool := false
  /-- Whether some expression was put off. -/
  deferred : Bool := false
  world : σ

/-- What ends an evaluation: a mistake that the pass notes before it goes on, or a fault. -/
inductive Stop where
  | failed (message : String)
  | fault (f : Fault)
deriving Repr, DecidableEq

/-- A computation in a pass. What it changed stays changed when it stops. -/
abbrev Run (σ : Type) (α : Type) := ExceptT Stop (StateM (Pass σ)) α

variable {σ : Type}

/-- End with a fault, if there is one. -/
def ofFault {α : Type} (result : Except Fault α) : Run σ α :=
  match result with
  | .ok a => pure a
  | .error f => throw (.fault f)

def note (message : String) (place : Place) : Run σ Unit :=
  modify fun pass => { pass with errors := ⟨message, some place⟩ :: pass.errors }

/-- Put an expression off. -/
def defer (source : String) : Run σ Datum := do
  modify fun pass => { pass with deferred := true }
  return .deferred source

end NoteTemplate.Render
