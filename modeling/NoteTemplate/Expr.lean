import NoteTemplate.Token
import NoteTemplate.Value.Basic

/-!
The expressions of the template language.
-/

namespace NoteTemplate

/-- A line and a column of a template. -/
structure Place where
  line : Nat
  column : Nat
deriving Inhabited, Repr, DecidableEq

def Token.place (token : Token) : Place := ⟨token.position.line, token.position.column⟩

/-- A constant of an expression. -/
inductive Literal where
  | null
  | bool (b : Bool)
  | int (n : Int)
  | float (x : Float)
  | text (s : String)
deriving Inhabited, Repr

def Literal.value : Literal → Value
  | null => .null
  | bool b => .bool b
  | int n => .int n
  | float x => .float x
  | text s => .str s

/-- The operators between two expressions. -/
inductive Operator where
  | fallback
  | or
  | and
  | equal
  | notEqual
  | greater
  | less
  | atLeast
  | atMost
  | contains
deriving Inhabited, Repr, DecidableEq

def Operator.text : Operator → String
  | fallback => "??"
  | or => "or"
  | and => "and"
  | equal => "=="
  | notEqual => "!="
  | greater => ">"
  | less => "<"
  | atLeast => ">="
  | atMost => "<="
  | contains => "contains"

/-- What stands between two arguments of a filter. -/
inductive Separator where
  | comma
  | colon
deriving Inhabited, Repr, DecidableEq

def Separator.text : Separator → String
  | comma => ","
  | colon => ":"

/-- An expression. A filter keeps the form of its arguments: the separators between them, or that
they stand in parentheses. -/
inductive Expr where
  | literal (l : Literal) (place : Place)
  | identifier (name : String) (place : Place)
  | member (object : Expr) (name : String) (place : Place)
  | index (object : Expr) (key : Expr) (place : Place)
  | not (argument : Expr) (place : Place)
  | binary (operator : Operator) (left right : Expr) (place : Place)
  | group (inner : Expr) (place : Place)
  | filter (value : Expr) (name : String) (args : List Expr) (separators : List Separator)
      (parenthesized : Bool) (place : Place)
deriving Inhabited, Repr

namespace Expr

def place : Expr → Place
  | literal _ p => p
  | identifier _ p => p
  | member _ _ p => p
  | index _ _ p => p
  | not _ p => p
  | binary _ _ _ p => p
  | group _ p => p
  | filter _ _ _ _ _ p => p

/-- What the filters of an expression are applied to. -/
def base : Expr → Expr
  | filter value _ _ _ _ _ => base value
  | e => e

end Expr

end NoteTemplate
