import NoteTemplate.Expr

/-!
The parts of a template: text, expressions to print, conditions, loops and assignments.
-/

namespace NoteTemplate

/-- Whether the delimiters at the two ends of a construct ask for blanks beside them to be cut. -/
structure Trim where
  left : Bool
  right : Bool
deriving Inhabited, Repr, DecidableEq

/-- A part of a template. The branches of a condition behind the first one have conditions of their
own; the last one, behind `else`, has none. -/
inductive Node where
  | text (text : String) (place : Place)
  | print (expression : Expr) (trim : Trim) (place : Place)
  | conditional (condition : Expr) (body : List Node) (branches : List (Expr × List Node))
      (otherwise : Option (List Node)) (trim : Trim) (place : Place)
  | loop (iterator : String) (iterable : Expr) (body : List Node) (trim : Trim) (place : Place)
  | assign (name : String) (value : Expr) (trim : Trim) (place : Place)
deriving Inhabited, Repr

namespace Node

def place : Node → Place
  | text _ p => p
  | print _ _ p => p
  | conditional _ _ _ _ _ p => p
  | loop _ _ _ _ p => p
  | assign _ _ _ p => p

/-- Which blanks beside a part are cut. -/
def trim : Node → Trim
  | text _ _ => ⟨false, false⟩
  | print _ t _ => t
  | conditional _ _ _ _ t _ => t
  | loop _ _ _ t _ => t
  | assign _ _ t _ => t

/-- The expression at the head of a part. -/
def expression? : Node → Option Expr
  | text _ _ => none
  | print e _ _ => some e
  | conditional e _ _ _ _ _ => some e
  | loop _ e _ _ _ => some e
  | assign _ e _ _ => some e

end Node

end NoteTemplate
