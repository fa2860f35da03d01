import NoteTemplate.Template

/-! The expressions that are written the way they are read. They are built
level by level, as the reader takes them apart: what stands inside an operator
binds more tightly than the operator, and only parentheses and brackets start
again at the loosest level. -/
namespace NoteTemplate.Expr

open Token

/-- Whether characters are those of a name. -/
def isNameText : List Char → Bool
  | [] => false
  | c :: rest => isNameStart c && rest.all isNameChar

/-- A name begins with one of the characters that names may begin with. -/
theorem exists_of_isNameText {cs : List Char} (h : isNameText cs = true) :
    ∃ c rest, cs = c :: rest ∧ isNameStart c = true ∧ ∀ d ∈ rest, isNameChar d = true := by
  cases cs with
  | nil => cases h
  | cons c rest =>
      rw [isNameText, Bool.and_eq_true, List.all_eq_true] at h
      exact ⟨c, rest, rfl, h⟩

/-- A name that is read as one identifier wherever it stands: no word of the
language in any case, and not the beginning of a page selector. -/
structure PlainName (name : String) : Prop where
  chars : isNameText name.toList = true
  notWord : keyword? (Text.toLower name) = none
  notSelector : name ≠ "selector" ∧ name ≠ "selectorHtml"

/-- A text that a template can hold between quotes. Neither end of a construct
stands in it, escaped or not. -/
def Quotable (s : String) : Prop :=
  ¬ ['\x7d', '\x7d'] <:+: s.toList ∧ ¬ ['%', '\x7d'] <:+: s.toList

/-- Whether a point behind an expression is read as its part, and not into the
name or the number before it. -/
def takesPoint : Expr → Bool
  | group _ _ => true
  | literal (.text _) _ => true
  | index _ _ _ => true
  | _ => false

/-- Whether the first character of an expression is a parenthesis. -/
def opensWithParen : Expr → Bool
  | group _ _ => true
  | index object _ _ => opensWithParen object
  | member object _ _ => opensWithParen object
  | _ => false

/-- Whether an operator compares. -/
def comparing : Operator → Bool
  | .fallback | .or | .and => false
  | _ => true

/-- The levels of binding, from the tightest to the loosest. -/
inductive Level where
  | primary
  | accessed
  | filtered
  | comparison
  | negation
  | conjunction
  | disjunction
  | fallback
deriving DecidableEq

/-- The canonical expressions of each level. -/
inductive Canonical : Level → Expr → Prop where
  | null (p : Place) : Canonical .primary (literal .null p)
  | bool (b : Bool) (p : Place) : Canonical .primary (literal (.bool b) p)
  | int (n : Int) (p : Place) : Canonical .primary (literal (.int n) p)
  | text {s : String} (p : Place) : Quotable s → Canonical .primary (literal (.text s) p)
  | identifier {name : String} (p : Place) : PlainName name →
      Canonical .primary (identifier name p)
  | group {e : Expr} (p : Place) : Canonical .fallback e → Canonical .primary (group e p)
  | primary {e : Expr} : Canonical .primary e → Canonical .accessed e
  | index {object key : Expr} (p : Place) : Canonical .accessed object →
      Canonical .fallback key → Canonical .accessed (index object key p)
  | member {object : Expr} {name : String} (p : Place) : Canonical .accessed object →
      takesPoint object = true → PlainName name → Canonical .accessed (member object name p)
  | accessed {e : Expr} : Canonical .accessed e → Canonical .filtered e
  | filterAlone {value : Expr} {name : String} (p : Place) : Canonical .filtered value →
      PlainName name → Canonical .filtered (filter value name [] [] false p)
  | filterList {value first : Expr} {name : String} {rest : List Expr}
      {separators : List Separator} (p : Place) : Canonical .filtered value → PlainName name →
      Canonical .accessed first → opensWithParen first = false →
      (∀ arg ∈ rest, Canonical .accessed arg) → separators.length = rest.length →
      Canonical .filtered (filter value name (first :: rest) separators false p)
  | filterParens {value : Expr} {name : String} {args : List Expr} (p : Place) :
      Canonical .filtered value → PlainName name → args ≠ [] →
      (∀ arg ∈ args, Canonical .accessed arg) →
      Canonical .filtered (filter value name args [] true p)
  | filtered {e : Expr} : Canonical .filtered e → Canonical .comparison e
  | comparison {operator : Operator} {left right : Expr} (p : Place) :
      comparing operator = true → Canonical .filtered left → Canonical .filtered right →
      Canonical .comparison (binary operator left right p)
  | compared {e : Expr} : Canonical .comparison e → Canonical .negation e
  | not {e : Expr} (p : Place) : Canonical .negation e → Canonical .negation (not e p)
  | negated {e : Expr} : Canonical .negation e → Canonical .conjunction e
  | and {left right : Expr} (p : Place) : Canonical .conjunction left →
      Canonical .negation right → Canonical .conjunction (binary .and left right p)
  | conjoined {e : Expr} : Canonical .conjunction e → Canonical .disjunction e
  | or {left right : Expr} (p : Place) : Canonical .disjunction left →
      Canonical .conjunction right → Canonical .disjunction (binary .or left right p)
  | disjoined {e : Expr} : Canonical .disjunction e → Canonical .fallback e
  | fallback {left right : Expr} (p : Place) : Canonical .fallback left →
      Canonical .disjunction right → Canonical .fallback (binary .fallback left right p)

mutual

/-- An expression with all its places forgotten. -/
def unplaced : Expr → Expr
  | literal l _ => literal l ⟨0, 0⟩
  | identifier name _ => identifier name ⟨0, 0⟩
  | member object name _ => member (unplaced object) name ⟨0, 0⟩
  | index object key _ => index (unplaced object) (unplaced key) ⟨0, 0⟩
  | not argument _ => not (unplaced argument) ⟨0, 0⟩
  | binary operator left right _ => binary operator (unplaced left) (unplaced right) ⟨0, 0⟩
  | group inner _ => group (unplaced inner) ⟨0, 0⟩
  | filter value name args separators parenthesized _ =>
      filter (unplaced value) name (unplacedAll args) separators parenthesized ⟨0, 0⟩

/-- Expressions with all their places forgotten. -/
def unplacedAll : List Expr → List Expr
  | [] => []
  | e :: rest => unplaced e :: unplacedAll rest

end

mutual

/-- How many expressions at most stand inside of each other: behind `not`, in
parentheses or in brackets. -/
def depth : Expr → Nat
  | literal _ _ => 0
  | identifier _ _ => 0
  | member object _ _ => depth object
  | index object key _ => max (depth object) (depth key + 1)
  | not argument _ => depth argument + 1
  | binary _ left right _ => max (depth left) (depth right)
  | group inner _ => depth inner + 1
  | filter value _ args _ parenthesized _ =>
      max (depth value) (if parenthesized && !args.isEmpty then depthAll args + 1 else depthAll args)

/-- The greatest depth of several expressions. -/
def depthAll : List Expr → Nat
  | [] => 0
  | e :: rest => max (depth e) (depthAll rest)

end

/-- What a reader finds of a token beside its place. -/
abbrev Shape := Kind × String

/-- The kind and the value of a token. -/
def shape (token : Token) : Shape := (token.kind, token.value)

/-- The token that an operator is written as. -/
def operatorKind : Operator → Kind
  | .fallback => .fallback
  | .or => .orWord
  | .and => .andWord
  | .equal => .equal
  | .notEqual => .notEqual
  | .greater => .greater
  | .less => .less
  | .atLeast => .atLeast
  | .atMost => .atMost
  | .contains => .containsWord

/-- The token that a separator is written as. -/
def separatorKind : Separator → Kind
  | .comma => .comma
  | .colon => .colon

/-- The token of a constant. -/
def literalShape : Literal → Shape
  | .null => (.null, "null")
  | .bool b => (.boolean, if b then "true" else "false")
  | .int n => (.number, Value.text (.int n))
  | .float x => (.number, Value.text (.float x))
  | .text s => (.string, s)

mutual

/-- The tokens that an expression is written as. -/
def shapes : Expr → List Shape
  | literal l _ => [literalShape l]
  | identifier name _ => [(.identifier, name)]
  | member object name _ => shapes object ++ [(.dot, "."), (.identifier, name)]
  | index object key _ => shapes object ++ (.leftBracket, "[") :: (shapes key ++ [(.rightBracket, "]")])
  | not argument _ => (.notWord, "not") :: shapes argument
  | binary operator left right _ =>
      shapes left ++ (operatorKind operator, operator.text) :: shapes right
  | group inner _ => (.leftParen, "(") :: (shapes inner ++ [(.rightParen, ")")])
  | filter value name args separators parenthesized _ =>
      let head := shapes value ++ [(.pipe, "|"), (.identifier, name)]
      match args with
      | [] => head
      | first :: rest =>
          if parenthesized then
            head ++ (.colon, ":") :: (.leftParen, "(") ::
              (shapes first ++ shapesBehind (rest.map fun _ => .comma) rest ++ [(.rightParen, ")")])
          else head ++ (.colon, ":") :: (shapes first ++ shapesBehind separators rest)

/-- The tokens of the arguments behind the first one, each with its separator. -/
def shapesBehind : List Separator → List Expr → List Shape
  | separator :: separators, arg :: rest =>
      (separatorKind separator, separator.text) :: (shapes arg ++ shapesBehind separators rest)
  | _, _ => []

end

end NoteTemplate.Expr
