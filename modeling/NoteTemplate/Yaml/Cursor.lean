import NoteTemplate.Text.Search

/-!
A place in a text of YAML, with the line and column that decide how its blocks nest.
-/

namespace NoteTemplate.Yaml

/-- The text from a place on, and where the place is. -/
structure Cursor where
  rest : List Char
  index : Nat := 0
  line : Nat := 0
  column : Nat := 0
deriving Repr, DecidableEq

/-- Whether a character or the end of the text sets a mark apart from what follows it. -/
def isGap : Option Char → Bool
  | none => true
  | some c => c == ' ' || c == '\t' || c == '\n'

namespace Cursor

def head? (c : Cursor) : Option Char := c.rest.head?

/-- The character some places further on. -/
def peek? (c : Cursor) (n : Nat) : Option Char := c.rest[n]?

def next (c : Cursor) : Cursor :=
  match c.rest with
  | [] => c
  | ch :: rest =>
    if ch = '\n' then ⟨rest, c.index + 1, c.line + 1, 0⟩
    else ⟨rest, c.index + 1, c.line, c.column + 1⟩

/-- The place some characters further on. -/
def advance : Nat → Cursor → Cursor
  | 0, c => c
  | n + 1, c => advance n c.next

/-- The place behind all characters of a kind. -/
def skip (c : Cursor) (p : Char → Bool) : Cursor := c.advance (c.rest.takeWhile p).length

/-- The place behind the spaces that stand in front of a column. -/
def skipIndent (c : Cursor) (column : Nat) : Cursor :=
  c.advance (min (column - c.column) (c.rest.takeWhile (· == ' ')).length)

/-- Whether three hyphens or three points stand at the place, apart from what follows. -/
def isDocumentMark (c : Cursor) : Bool :=
  (startsWith "---".toList c.rest || startsWith "...".toList c.rest) && isGap (c.peek? 3)
where
  startsWith := Text.startsWith

end Cursor

end NoteTemplate.Yaml
