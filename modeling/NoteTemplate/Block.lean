import NoteTemplate.TemplateError
import NoteTemplate.Text.Case

/-!
Matching the tags of blocks by counting depth: which tag closes a block, and which `elseif` and
`else` tags belong to it.
-/

namespace NoteTemplate

/-- The kinds of blocks. -/
inductive BlockKind where
  | conditional
  | loop
deriving Inhabited, Repr, DecidableEq

/-- A block by the places of its tags in the list of tokens. Each place is that of the opening
delimiter of a tag. -/
structure Block where
  kind : BlockKind
  start : Nat
  /-- The word of the opening tag. -/
  keyword : Token
  /-- The `elseif` and `else` tags in order. -/
  branches : List Nat := []
  /-- The closing tag, if there is one. -/
  close : Option Nat := none
deriving Inhabited, Repr, DecidableEq

namespace Block

/-- The greatest depth of blocks inside each other. -/
def maxDepth : Nat := 64

/-- The tags that end the bodies of a block: its branches and its closing tag. -/
def boundaries (block : Block) : List Nat := block.branches ++ block.close.toList

/-- The part that the word of a tag plays among blocks. -/
inductive Role where
  | opens (kind : BlockKind)
  | branches
  | closes (kind : BlockKind)
deriving Repr, DecidableEq

/-- The role of a word, if it has one. -/
def role? : Token.Kind → Option Role
  | .ifWord => some (.opens .conditional)
  | .forWord => some (.opens .loop)
  | .elseifWord => some .branches
  | .elseWord => some .branches
  | .endifWord => some (.closes .conditional)
  | .endforWord => some (.closes .loop)
  | _ => none

def closingWord : BlockKind → String
  | .conditional => "endif"
  | .loop => "endfor"

/-- A tag that plays a role among blocks. -/
structure Tag where
  index : Nat
  keyword : Token
  role : Role
deriving Repr, DecidableEq

/-- The block tags of a list of tokens that begins at an index. -/
def tagsFrom (index : Nat) : List Token → List Tag
  | start :: keyword :: rest =>
    let later := tagsFrom (index + 1) (keyword :: rest)
    if start.kind = .tagStart then
      match role? keyword.kind with
      | some role => ⟨index, keyword, role⟩ :: later
      | none => later
    else later
  | _ => []

/-- The state of the count: the blocks still open, innermost first, those that are closed, and the
mistakes so far in reverse order. -/
structure Matching where
  stack : List Block := []
  closed : List Block := []
  mistakes : List TemplateError := []
deriving Inhabited, Repr

/-- A tag that belongs to no open block. -/
def Matching.stray (m : Matching) (tag : Tag) : Matching :=
  let word := Text.toLower tag.keyword.value
  { m with mistakes := TemplateError.atToken (.strayTag word) tag.keyword :: m.mistakes }

/-- The state behind one more tag. -/
def Matching.step (m : Matching) (tag : Tag) : Matching :=
  match tag.role with
  | .opens kind =>
    let stack := ({ kind, start := tag.index, keyword := tag.keyword } : Block) :: m.stack
    if stack.length = maxDepth + 1 then
      { m with
        stack,
        mistakes := TemplateError.atToken (.blocksTooDeep maxDepth) tag.keyword :: m.mistakes }
    else { m with stack }
  | .branches =>
    match m.stack with
    | block :: rest =>
      if block.kind = .conditional then
        { m with stack := { block with branches := block.branches ++ [tag.index] } :: rest }
      else m.stray tag
    | [] => m.stray tag
  | .closes kind =>
    match m.stack with
    | block :: rest =>
      if block.kind = kind then
        { m with stack := rest, closed := { block with close := some tag.index } :: m.closed }
      else m.stray tag
    | [] => m.stray tag

/-- The mistake of a block that is not closed. -/
def unclosed (block : Block) : TemplateError :=
  let opener := Text.toLower block.keyword.value
  TemplateError.atToken (.unclosedBlock (closingWord block.kind) opener) block.keyword

end Block

/-- The blocks of a template and everything that is wrong with them. -/
structure BlockMap where
  blocks : List Block := []
  issues : List TemplateError := []
deriving Inhabited, Repr

namespace BlockMap

/-- Whether every tag has its place. -/
def balanced (m : BlockMap) : Bool := m.issues.isEmpty

/-- The block that a tag opens. -/
def blockAt? (m : BlockMap) (start : Nat) : Option Block := m.blocks.find? (·.start == start)

/-- The outcome of a count: the blocks by the place of their opening tag, and the mistakes in the
order of the text, followed by the blocks left open, outermost first. -/
def ofMatching (m : Block.Matching) : BlockMap :=
  ⟨(m.stack ++ m.closed).mergeSort fun a b => a.start ≤ b.start,
    m.mistakes.reverse ++ m.stack.reverse.map Block.unclosed⟩

/-- The blocks of a list of tokens. -/
def ofTokens (tokens : List Token) : BlockMap :=
  ofMatching ((Block.tagsFrom 0 tokens).foldl Block.Matching.step {})

end BlockMap

end NoteTemplate
