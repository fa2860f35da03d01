import NoteTemplate.Block
import NoteTemplate.Expr.OfTokens
import NoteTemplate.Fault
import NoteTemplate.Node
import NoteTemplate.Text.Margin

/-!
Reading the parts of a template from its tokens. Which tags end the body of a block is known from
the count of depth beforehand. A mistake does not stop the reading: it is noted, the construct is
skipped, and reading goes on behind it.
-/

namespace NoteTemplate

/-- A result, the mistakes noted on the way to it, and the place in the list of tokens behind it. -/
structure Parsed (α : Type) where
  result : α
  errors : List TemplateError
  position : Nat
deriving Repr

namespace Node

open Tokens

/-- A template while it is read: all its tokens, its blocks, and the room for expressions inside of
expressions. -/
structure Source where
  tokens : List Token
  blocks : BlockMap
  room : Nat

namespace Source

variable (source : Source)

def tokensFrom (position : Nat) : List Token := source.tokens.drop position

/-- The place at which a rest of the tokens begins. -/
def positionOf (rest : List Token) : Nat := source.tokens.length - rest.length

end Source

/-- The rest of an expression that could not be read, up to its closing delimiter or the next
construct. -/
def skipVariable : List Token → List Token
  | [] => []
  | t :: rest =>
    match t.kind with
    | .endOfText | .text | .variableStart | .tagStart => t :: rest
    | .variableEnd => rest
    | _ => skipVariable rest

/-- The rest of a tag behind its first token, up to its closing delimiter or the next construct. -/
def skipTagRest : List Token → List Token
  | [] => []
  | t :: rest =>
    match t.kind with
    | .endOfText | .text | .variableStart | .tagStart => t :: rest
    | .tagEnd => rest
    | _ => skipTagRest rest

/-- What follows a tag that could not be read. -/
def skipTag (ts : List Token) : List Token := skipTagRest (advance ts)

/-- What follows a block: the tokens behind its closing tag, or behind its opening tag when it is
not closed. -/
def skipBlock (source : Source) (start : Nat) : List Token :=
  match (source.blocks.blockAt? start).bind (·.close) with
  | some close => skipTag (source.tokensFrom close)
  | none => skipTag (source.tokensFrom start)

/-- A text, unless it is empty. Behind a tag that does not cut blanks itself, the rest of the line
is dropped when it is blank. -/
def ofText (previous : Option Token) (token : Token) : Option Node :=
  let text := token.value.toList
  let kept := match previous with
    | some before =>
      if before.kind = .tagEnd && !before.trimRight then Text.cutLineEnd text else text
    | none => text
  if kept = [] then none else some (.text (String.ofList kept) token.place)

/-- Reads an expression to print at its opening delimiter. -/
def readVariable (room : Nat) (ts : List Token) : Except Failure (Found Node) := do
  let start := current ts
  let ts := advance ts
  if at? ts .variableEnd then fail .emptyVariable start ts
  else
    match ← readExpr room ts with
    | (none, rest) =>
      let token := current rest
      if isBroken token.kind then fail (unexpected token) token rest
      else fail .emptyVariable start rest
    | (some e, rest) =>
      if at? rest .identifier then fail .severalWords start rest
      else
        let (close, rest) ← expectEnd .variableEnd .variableNotClosed rest
        return (.print e ⟨start.trimLeft, close.trimRight⟩ start.place, rest)

def readAssign (room : Nat) (ts : List Token) : Except Failure (Found Node) := do
  let start := current ts
  let ts := advance (advance ts)
  if !at? ts .identifier then fail .noTarget start ts
  else
    let name := (current ts).value
    let ts := advance ts
    if !at? ts .assign then fail .noAssign start ts
    else
      match ← readExpr room (advance ts) with
      | (none, rest) => fail .noValue start rest
      | (some value, rest) =>
        let (close, rest) ← expectEnd .tagEnd (.tagNotClosed "set") rest
        return (.assign name value ⟨start.trimLeft, close.trimRight⟩ start.place, rest)

/-- Reads the condition of an opening or branching tag, and the end of the tag. -/
def readCondition (room : Nat) (word : String) (blame : Token) (ts : List Token) :
    Except Failure (Found (Expr × Token)) := do
  match ← readExpr room ts with
  | (none, rest) => fail (.noCondition word) blame rest
  | (some condition, rest) =>
    let (close, rest) ← expectEnd .tagEnd (.tagNotClosed word) rest
    return ((condition, close), rest)

/-- The head of a loop: its iterator, what it runs over, and the end of its tag. -/
structure LoopHead where
  iterator : String
  iterable : Expr
  close : Token

def readLoopHead (room : Nat) (ts : List Token) : Except Failure (Found LoopHead) := do
  let start := current ts
  let ts := advance (advance ts)
  if !at? ts .identifier then fail .noIterator start ts
  else
    let iterator := (current ts).value
    let ts := advance ts
    if !at? ts .inWord then fail .noIn start ts
    else
      match ← readExpr room (advance ts) with
      | (none, rest) => fail .noIterable start rest
      | (some iterable, rest) =>
        let (close, rest) ← expectEnd .tagEnd (.tagNotClosed "for") rest
        return (⟨iterator, iterable, close⟩, rest)

def readClosingTag (source : Source) (word : String) (close : Nat) :
    Except Failure (Found Token) :=
  expectEnd .tagEnd (.tagNotClosed word) (advance (advance (source.tokensFrom close)))

def mapText (f : List Char → List Char) : Node → Node
  | .text s p => .text (String.ofList (f s.toList)) p
  | node => node

/-- Changes the first element of a list. -/
def mapHead {α : Type} (f : α → α) : List α → List α
  | [] => []
  | a :: rest => f a :: rest

/-- Changes the last element of a list. -/
def mapLast {α : Type} (f : α → α) : List α → List α
  | [] => []
  | [a] => [f a]
  | a :: b :: rest => a :: mapLast f (b :: rest)

def isEmptyText : Node → Bool
  | .text s _ => s == ""
  | _ => false

/-- A body whose delimiters cut the blanks at its ends. -/
def trimBody (head : Token) (next : Token) (body : List Node) : List Node :=
  let body := if head.trimRight then mapHead (mapText Text.cutMarginStart) body else body
  let body := if next.trimLeft then mapLast (mapText Text.cutMarginEnd) body else body
  body.filter fun node => !isEmptyText node

/-- The branches of a condition as they are read. -/
structure Branches where
  branches : List (Expr × List Node) := []
  otherwise : Option (List Node) := none

/-- The result of a construct that may have failed. -/
abbrev Attempt (α : Type) := Parsed (Except TemplateError α)

/-- A failure of a construct whose recovery does not depend on where it happened. -/
def failed {α : Type} (source : Source) (errors : List TemplateError) (f : Failure) :
    Except Fault (Attempt α) :=
  do return ⟨.error (← f.mistake), errors, source.positionOf f.rest⟩

/-- A block that was read, or its mistake and the place behind the block. -/
def guarded (source : Source) (start : Nat) (attempt : Attempt Node) :
    Parsed (Option Node) :=
  match attempt.result with
  | .ok node => ⟨some node, attempt.errors, attempt.position⟩
  | .error e =>
    ⟨none, attempt.errors ++ [e], source.positionOf (skipBlock source start)⟩

mutual

/-- Reads parts up to a place. -/
def readNodes (source : Source) (stop : Nat) :
    Nat → Nat → Except Fault (Parsed (List Node))
  | 0, position => .ok ⟨[], [], position⟩
  | fuel + 1, position =>
    if position < stop && !at? (source.tokensFrom position) .endOfText then do
      let first ← readNode source fuel position
      let rest ← readNodes source stop fuel first.position
      return ⟨first.result.toList ++ rest.result, first.errors ++ rest.errors, rest.position⟩
    else .ok ⟨[], [], position⟩
termination_by structural fuel => fuel

def readNode (source : Source) : Nat → Nat → Except Fault (Parsed (Option Node))
  | 0, position => .ok ⟨none, [], position⟩
  | fuel + 1, position =>
    let ts := source.tokensFrom position
    let token := current ts
    match token.kind with
    | .text =>
      let previous := if position = 0 then none else source.tokens[position - 1]?
      .ok ⟨ofText previous token, [], source.positionOf (advance ts)⟩
    | .variableStart =>
      match readVariable source.room ts with
      | .ok (node, rest) => .ok ⟨some node, [], source.positionOf rest⟩
      | .error f => do return ⟨none, [← f.mistake], source.positionOf (skipVariable f.rest)⟩
    | .tagStart => readTag source fuel position
    | _ =>
      .ok ⟨none, [TemplateError.atToken (unexpected token) token], source.positionOf (advance ts)⟩
termination_by structural fuel => fuel

/-- Reads a tag and, if it opens a block, the whole block. -/
def readTag (source : Source) : Nat → Nat → Except Fault (Parsed (Option Node))
  | 0, position => .ok ⟨none, [], position⟩
  | fuel + 1, position =>
    let ts := source.tokensFrom position
    let keyword := second ts
    let skipped (mistake : Mistake) : Except Fault (Parsed (Option Node)) :=
      .ok ⟨none, [TemplateError.atToken mistake keyword], source.positionOf (skipTag ts)⟩
    match keyword.kind with
    | .ifWord => do
      let attempt ← readConditional source fuel position
      return guarded source position attempt
    | .forWord => do
      let attempt ← readLoop source fuel position
      return guarded source position attempt
    | .setWord =>
      match readAssign source.room ts with
      | .ok (node, rest) => .ok ⟨some node, [], source.positionOf rest⟩
      | .error f => do return ⟨none, [← f.mistake], source.positionOf (skipTag f.rest)⟩
    | .elseifWord | .elseWord | .endifWord | .endforWord =>
      skipped (.strayTag (Text.toLower keyword.value))
    | .tagEnd | .endOfText => skipped .emptyTag
    | _ => skipped (.unknownTag keyword.value)
termination_by structural fuel => fuel

def readConditional (source : Source) : Nat → Nat → Except Fault (Attempt Node)
  | 0, position => .ok ⟨.error ⟨.tooDeep, 1, 1⟩, [], position⟩
  | fuel + 1, position => do
    let block := (source.blocks.blockAt? position).getD default
    let ts := source.tokensFrom position
    let start := current ts
    match readCondition source.room "if" start (advance (advance ts)) with
    | .error f => failed source [] f
    | .ok ((condition, close), rest) =>
      match block.boundaries with
      | [] => .error .unclosedBody
      | first :: later =>
        let body ← readBody source fuel close first (source.positionOf rest)
        match body.result with
        | .error e => return ⟨.error e, body.errors, body.position⟩
        | .ok consequent =>
          let more ← readBranches source fuel block.branches later {}
          let errors := body.errors ++ more.errors
          match more.result with
          | .error e => return ⟨.error e, errors, more.position⟩
          | .ok branches =>
            match readClosingTag source "endif" (block.close.getD 0) with
            | .error f => failed source errors f
            | .ok (close, rest) =>
              let node := Node.conditional condition consequent branches.branches
                branches.otherwise ⟨start.trimLeft, close.trimRight⟩ start.place
              return ⟨.ok node, errors, source.positionOf rest⟩
termination_by structural fuel => fuel

/-- Reads the branches of a condition, each up to the next boundary. -/
def readBranches (source : Source) :
    Nat → List Nat → List Nat → Branches → Except Fault (Attempt Branches)
  | 0, _, _, _ => .ok ⟨.error ⟨.tooDeep, 1, 1⟩, [], 0⟩
  | _ + 1, [], _, found => .ok ⟨.ok found, [], 0⟩
  | fuel + 1, branch :: branches, boundaries, found => do
    let ts := advance (source.tokensFrom branch)
    let keyword := current ts
    if keyword.kind = .elseifWord then
      match readCondition source.room "elseif" keyword (advance ts) with
      | .error f => failed source [] f
      | .ok ((condition, close), rest) =>
        match boundaries with
        | [] => .error .unclosedBody
        | stop :: later =>
          let body ← readBody source fuel close stop (source.positionOf rest)
          match body.result with
          | .error e => return ⟨.error e, body.errors, body.position⟩
          | .ok nodes =>
            let found := { found with branches := found.branches ++ [(condition, nodes)] }
            let more ← readBranches source fuel branches later found
            return ⟨more.result, body.errors ++ more.errors, more.position⟩
    else
      match expectEnd .tagEnd (.tagNotClosed "else") (advance ts) with
      | .error f => failed source [] f
      | .ok (close, rest) =>
        match boundaries with
        | [] => .error .unclosedBody
        | stop :: later =>
          let body ← readBody source fuel close stop (source.positionOf rest)
          match body.result with
          | .error e => return ⟨.error e, body.errors, body.position⟩
          | .ok nodes =>
            let found := { found with otherwise := some nodes }
            let more ← readBranches source fuel branches later found
            return ⟨more.result, body.errors ++ more.errors, more.position⟩
termination_by structural fuel => fuel

def readLoop (source : Source) : Nat → Nat → Except Fault (Attempt Node)
  | 0, position => .ok ⟨.error ⟨.tooDeep, 1, 1⟩, [], position⟩
  | fuel + 1, position => do
    let ts := source.tokensFrom position
    let start := current ts
    match readLoopHead source.room ts with
    | .error f => failed source [] f
    | .ok (head, rest) =>
      match (source.blocks.blockAt? position).bind (·.close) with
      | none => .error .unclosedBody
      | some stop =>
        let body ← readBody source fuel head.close stop (source.positionOf rest)
        match body.result with
        | .error e => return ⟨.error e, body.errors, body.position⟩
        | .ok nodes =>
          match readClosingTag source "endfor" stop with
          | .error f => failed source body.errors f
          | .ok (close, rest) =>
            let node := Node.loop head.iterator head.iterable nodes
              ⟨start.trimLeft, close.trimRight⟩ start.place
            return ⟨.ok node, body.errors, source.positionOf rest⟩
termination_by structural fuel => fuel

/-- Reads the body between the end of a tag and the next tag of the block. -/
def readBody (source : Source) : Nat → Token → Nat → Nat → Except Fault (Attempt (List Node))
  | 0, _, _, position => .ok ⟨.error ⟨.tooDeep, 1, 1⟩, [], position⟩
  | fuel + 1, head, stop, position => do
    let body ← readNodes source stop fuel position
    let next := current (source.tokensFrom stop)
    if body.position ≠ stop then
      let token := current (source.tokensFrom body.position)
      return ⟨.error (TemplateError.atToken .unbalancedBody token), body.errors, body.position⟩
    else return ⟨.ok (trimBody head next body.result), body.errors, body.position⟩
termination_by structural fuel => fuel

end

/-- Reads all parts of a list of tokens. -/
def ofTokens (room : Nat) (tokens : List Token) (blocks : BlockMap) :
    Except Fault (Parsed (List Node)) :=
  readNodes ⟨tokens, blocks, room⟩ (tokens.length - 1) (8 * tokens.length + 8) 0

end Node

end NoteTemplate
