import NoteTemplate.Datum
import NoteTemplate.Filter.Param

/-!
Filters by name. A filter works on the text of a value; when it fails, the value stays as it is.
-/

namespace NoteTemplate

/-- A filter under its name. It turns a text, a parameter and the address of the page into a value;
no value means that it failed. -/
structure Filter where
  name : String
  run : String → Option String → String → Option Value
  description : String := ""
  /-- Whether the filter is told the address of the page. -/
  wantsUrl : Bool := false

namespace Filter

/-- A filter that changes a text and asks for nothing else. -/
def ofText (name : String) (f : String → String) (description : String) : Filter :=
  { name, run := fun s _ _ => some (.str (f s)), description }

/-- A filter that changes a text as a parameter says. -/
def ofParam (name : String) (f : String → Option String → String) (description : String) : Filter :=
  { name, run := fun s param _ => some (.str (f s param)), description }

/-- A filter that changes a text as a parameter says, or fails. -/
def ofFallible (name : String) (f : String → Option String → Option String)
    (description : String) : Filter :=
  { name, run := fun s param _ => (f s param).map .str, description }

end Filter

/-- Filters in the order in which their names were first registered. -/
abbrev Registry := Assoc String Filter

namespace Registry

/-- Register a filter; it replaces one of the same name. -/
def register (registry : Registry) (filter : Filter) : Registry :=
  Assoc.set registry filter.name filter

/-- A registry of the given filters. -/
def ofList (filters : List Filter) : Registry := filters.foldl register []

def names (registry : Registry) : List String :=
  (registry.map (·.1)).mergeSort fun a b => a ≤ b

/-- The filters in the order of their names. -/
def sorted (registry : Registry) : List Filter :=
  registry.names.filterMap fun name => Assoc.get? registry name

def nonEmpty (param : Option String) : Option String := param.filter (· ≠ "")

/-- Apply a filter to a text that stands for a value. The result is read back as an array or object
if it looks like one. A filter that fails leaves the value as it is. -/
def applyTo (filter : Filter) (d : Datum) (text : String) (param : Option String)
    (url : String) : Datum :=
  match filter.run text (nonEmpty param) (if filter.wantsUrl then url else "") with
  | some result => .plain result.structured
  | none => d

/-- Apply a filter to a value. An unknown filter leaves the value as it is. -/
def apply (registry : Registry) (name : String) (d : Datum) (param : Option String)
    (url : String) : Except Fault Datum :=
  match Assoc.get? registry name with
  | none => .ok d
  | some filter => do return applyTo filter d (← d.written) param url

/-- The name and the parameter in one part of a chain. -/
def link (part : String) : String × Option String :=
  match Text.cutAtChar? ':' part.toList with
  | some (name, param) =>
    (Text.strip (String.ofList name), nonEmpty (some (Text.strip (String.ofList param))))
  | none => (Text.strip part, none)

/-- Apply the filters of a chain, which bars separate, one after another. -/
def applyChain (registry : Registry) (d : Datum) (chain : String) (url : String) :
    Except Fault Datum :=
  ((Param.split '|' chain).filter (· ≠ "")).foldlM
    (fun d part => let (name, param) := link part; apply registry name d param url) d

end Registry

end NoteTemplate
