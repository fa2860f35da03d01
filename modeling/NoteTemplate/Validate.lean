import NoteTemplate.EditDistance
import NoteTemplate.Node
import NoteTemplate.Prompt
import NoteTemplate.Text.Search

/-!
Checking the names of a template: a name that is neither known beforehand nor assigned before its
use is reported, with the nearest known name if there is one.
-/

namespace NoteTemplate.Validate

open NoteTemplate.Text

/-- The variables that every page has. -/
def presets : List String :=
  ["author", "content", "contentHtml", "date", "description", "domain", "favicon", "fullHtml",
    "highlights", "image", "published", "selection", "selectionHtml", "site", "title", "time",
    "url", "words"]

/-- Beginnings of names that are resolved by other means. -/
def specialMarks : List String := ["schema:", "selector:", "selectorHtml:", "meta:", "prompt:"]

/-- A use of a name, with the names that are assigned before it. -/
structure Reference where
  name : String
  place : Place
  scope : List String
deriving Repr, DecidableEq

/-- The part of a name before its first point and bracket. -/
def baseName (name : String) : String :=
  String.ofList ((name.toList.takeWhile (· ≠ '.')).takeWhile (· ≠ '['))

/-- Whether nothing is wrong with a name. -/
def isKnown (known scope : List String) (name : String) : Bool :=
  startsWith ['"'] name.toList ||
    specialMarks.any (fun mark => startsWith mark.toList name.toList) ||
    known.contains name || scope.contains name ||
    (let base := baseName name
     known.contains base || scope.contains base || base == "loop")

/-- The name at the root of an expression: under filters, points and brackets, and on the left of a
fallback. -/
def root? : Expr → Option (String × Place)
  | .identifier name place => some (name, place)
  | .filter value _ _ _ _ _ => root? value
  | .member object _ _ => root? object
  | .index object _ _ => root? object
  | .binary operator left _ _ => if operator = .fallback then root? left else none
  | _ => none

/-- The names of an expression outside the arguments of its filters. -/
def names : Expr → List (String × Place)
  | .identifier name place => [(name, place)]
  | .filter value _ _ _ _ _ => names value
  | .binary _ left right _ => names left ++ names right
  | .not e _ => names e
  | .member object _ _ => names object
  | .index object key _ => names object ++ names key
  | .group inner _ => names inner
  | .literal _ _ => []

/-- Names used where others are assigned. -/
def refer (scope : List String) (found : List (String × Place)) : List Reference :=
  found.map fun (name, place) => ⟨name, place, scope⟩

mutual

/-- The references of a part, and the names assigned behind it. -/
def ofNode (scope : List String) : Node → List Reference × List String
  | .text _ _ => ([], scope)
  | .print e _ _ => (refer scope (root? e).toList, scope)
  | .assign name e _ _ =>
    let scope := name :: scope
    (refer scope (names e), scope)
  | .conditional condition body branches otherwise _ _ =>
    let (first, scope') := ofNodes scope body
    let (middle, scope'') := ofBranches scope' branches
    let (last, scope''') := ofOtherwise scope'' otherwise
    (refer scope (names condition) ++ first ++ middle ++ last, scope''')
  | .loop iterator iterable body _ _ =>
    let (inner, _) := ofNodes (iterator :: (iterator ++ "_index") :: scope) body
    (refer scope (names iterable) ++ inner, scope)

/-- The references of parts one behind the other. -/
def ofNodes (scope : List String) : List Node → List Reference × List String
  | [] => ([], scope)
  | node :: rest =>
    let (first, scope) := ofNode scope node
    let (later, scope) := ofNodes scope rest
    (first ++ later, scope)

/-- The references of the branches of a condition. -/
def ofBranches (scope : List String) : List (Expr × List Node) → List Reference × List String
  | [] => ([], scope)
  | (condition, body) :: rest =>
    let (first, scope') := ofNodes scope body
    let (later, scope'') := ofBranches scope' rest
    (refer scope (names condition) ++ first ++ later, scope'')

/-- The references of the branch without a condition. -/
def ofOtherwise (scope : List String) : Option (List Node) → List Reference × List String
  | some body => ofNodes scope body
  | none => ([], scope)

end

/-- A doubtful name and the one that may be meant. -/
structure Warning where
  name : String
  suggestion : Option String
  place : Place
deriving Repr, DecidableEq

/-- The message of a warning without its place. -/
def Warning.message (w : Warning) : String :=
  "Unknown variable \"" ++ w.name ++ "\"" ++
    match w.suggestion with
    | some s => ". Did you mean \"" ++ s ++ "\"?"
    | none => ""

/-- The message of a warning with its place. -/
def Warning.text (w : Warning) : String :=
  w.message ++ " (line " ++ Nat.repr w.place.line ++ ", column " ++ Nat.repr w.place.column ++ ")"

/-- The doubtful names of a template in order. -/
def warnings (nodes : List Node) (known : List String) : List Warning :=
  let known := presets ++ known
  ((ofNodes [] nodes).1.filter fun r => !isKnown known r.scope r.name).map fun r =>
    ⟨r.name, nearest r.name known, r.place⟩

end NoteTemplate.Validate
