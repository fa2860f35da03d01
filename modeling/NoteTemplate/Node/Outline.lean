import NoteTemplate.Node
import NoteTemplate.Value.Json.Writer

/-!
The outline of a template: its parts and expressions as data, without their places.
-/

namespace NoteTemplate

/-- An object whose first field tells what it is the outline of. -/
def outlined (type : String) (fields : List (String × Value)) : Value :=
  .obj (("type", .str type) :: fields)

mutual

def Expr.outline : Expr → Value
  | .literal l _ => outlined "Literal" [("value", l.value)]
  | .identifier name _ => outlined "Identifier" [("name", .str name)]
  | .member object name _ =>
    outlined "Member"
      [("object", outline object), ("property", outlined "Literal" [("value", .str name)]),
        ("computed", .bool false)]
  | .index object key _ =>
    outlined "Member"
      [("object", outline object), ("property", outline key), ("computed", .bool true)]
  | .not argument _ =>
    outlined "Unary" [("operator", .str "not"), ("argument", outline argument)]
  | .binary operator left right _ =>
    outlined "Binary"
      [("operator", .str operator.text), ("left", outline left), ("right", outline right)]
  | .group inner _ => outlined "Group" [("expression", outline inner)]
  | .filter value name args separators parenthesized _ =>
    outlined "Filter"
      [("value", outline value), ("name", .str name), ("args", .arr (outlineAll args)),
        ("separators", .arr (separators.map fun s => .str s.text)),
        ("parenthesized", .bool parenthesized)]

def Expr.outlineAll : List Expr → List Value
  | [] => []
  | e :: rest => outline e :: outlineAll rest

end

/-- The fields that tell which blanks are cut. -/
def Trim.outline (t : Trim) : List (String × Value) :=
  [("trim_left", .bool t.left), ("trim_right", .bool t.right)]

mutual

def Node.outline : Node → Value
  | .text s _ => outlined "TextNode" [("text", .str s)]
  | .print e t _ => outlined "VariableNode" (("expression", e.outline) :: t.outline)
  | .conditional condition body branches otherwise t _ =>
    outlined "IfNode"
      ([("condition", condition.outline), ("consequent", .arr (outlineNodes body)),
        ("elseifs", .arr (outlineBranches branches)),
        ("alternate", outlineOtherwise otherwise)] ++ t.outline)
  | .loop iterator iterable body t _ =>
    outlined "ForNode"
      ([("iterator", .str iterator), ("iterable", iterable.outline),
        ("body", .arr (outlineNodes body))] ++ t.outline)
  | .assign name e t _ =>
    outlined "SetNode" ([("variable", .str name), ("value", e.outline)] ++ t.outline)

def Node.outlineNodes : List Node → List Value
  | [] => []
  | node :: rest => outline node :: outlineNodes rest

def Node.outlineBranches : List (Expr × List Node) → List Value
  | [] => []
  | (condition, body) :: rest =>
    .obj [("condition", condition.outline), ("body", .arr (outlineNodes body))] ::
      outlineBranches rest

/-- The outline of the branch without a condition. -/
def Node.outlineOtherwise : Option (List Node) → Value
  | some body => .arr (outlineNodes body)
  | none => .null

end

def Node.outlineText (nodes : List Node) : Except Fault String :=
  let outline := Value.arr (outlineNodes nodes)
  outline.ifWritable outline.toIndentedJson

end NoteTemplate
