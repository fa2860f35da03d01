import NoteTemplate.Node.OfTokens
import NoteTemplate.Token.Scan

/-!
Reading a whole template. A template is accepted only without any mistake.
-/

namespace NoteTemplate

/-- The outcome of reading a template: its parts, or none of them and the mistakes. -/
structure Template where
  nodes : List Node
  errors : List TemplateError := []
deriving Inhabited, Repr

namespace Template

/-- Whether the template was accepted. -/
def ok (t : Template) : Bool := t.errors.isEmpty

/-- The room that expressions inside of expressions usually have. -/
def usualRoom : Nat := 100

/-- The outcome of reading the parts of a template. That there was no room for its expressions is
the only thing said about a template then. -/
def ofParsed (parsed : Except Fault (Parsed (List Node))) : Except Fault Template :=
  match parsed with
  | .ok parsed => .ok (if parsed.errors.isEmpty then ⟨parsed.result, []⟩ else ⟨[], parsed.errors⟩)
  | .error .nestedTooDeeply => .ok ⟨[], [⟨.tooDeep, 1, 1⟩]⟩
  | .error f => .error f

/-- Reads the parts of a template whose blocks are balanced. -/
def ofTokens (room : Nat) (tokens : List Token) (blocks : BlockMap) : Except Fault Template :=
  ofParsed (Node.ofTokens room tokens blocks)

/-- Reads a template. When its blocks are not balanced, only that is reported. -/
def parse (room : Nat) (text : String) : Except Fault Template := do
  let tokens ← Token.scan text
  let blocks := BlockMap.ofTokens tokens
  if blocks.balanced then ofTokens room tokens blocks else return ⟨[], blocks.issues⟩

theorem parse_of_scan {text : String} {tokens : List Token} (hScan : Token.scan text = .ok tokens)
    (room : Nat) :
    parse room text = if (BlockMap.ofTokens tokens).balanced
      then ofTokens room tokens (BlockMap.ofTokens tokens)
      else .ok ⟨[], (BlockMap.ofTokens tokens).issues⟩ := by
  rw [parse, hScan]
  rfl

/-- Reads the parts of a template whether or not its blocks are balanced. -/
def parseUnchecked (room : Nat) (text : String) : Except Fault (Parsed (List Node)) := do
  let tokens ← Token.scan text
  Node.ofTokens room tokens (BlockMap.ofTokens tokens)

end Template

end NoteTemplate
