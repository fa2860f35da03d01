import NoteTemplate.Text.Blank
import NoteTemplate.Text.Case
import NoteTemplate.Text.Digit
import NoteTemplate.Text.Word

/-!
Patterns of text: regular expressions with groups, references to groups, lazy and possessive
repetition, and conditions on the text around a place.
-/

namespace NoteTemplate

namespace Pattern

/-- The classes of characters that have a letter. -/
inductive Class where
  | digit
  | blank
  | word
deriving Repr, DecidableEq

/-- Whether a character is in a class, or in its ASCII part. -/
def Class.holds (k : Class) (ascii : Bool) (c : Char) : Bool :=
  if ascii && 0x80 ≤ c.toNat then false
  else match k with
    | digit => Text.isDecimalDigit c
    | blank => Text.isBlank c && !(ascii && 28 ≤ c.toNat && c.toNat ≤ 31)
    | word => Text.isWord c

/-- A part of a set of characters. -/
inductive Item where
  | range (low high : Char)
  | ofClass (k : Class) (negated ascii : Bool)
deriving Repr, DecidableEq

def Item.holds (item : Item) (c : Char) : Bool :=
  match item with
  | range low high => low ≤ c && c ≤ high
  | ofClass k negated ascii => k.holds ascii c != negated

/-- A set of characters. -/
structure CharSet where
  items : List Item
  negated : Bool := false
  /-- Whether the case of letters is no matter. -/
  anyCase : Bool := false
deriving Repr, DecidableEq

/-- The form in which letters are compared when their case is no matter. -/
def fold (c : Char) : Char := Text.shiftCase Text.upperRuns (Text.lowerChar c)

/-- The forms of a letter in both cases. -/
def cases (c : Char) : List Char := [c, Text.lowerChar c, fold c]

def CharSet.holds (set : CharSet) (c : Char) : Bool :=
  let found :=
    if set.anyCase then (cases c).any fun c => set.items.any (·.holds c)
    else set.items.any (·.holds c)
  found != set.negated

/-- Conditions on a place of a text. -/
inductive Anchor where
  | textStart
  | lineStart
  /-- The end of the text. -/
  | textEnd
  /-- The end of the text, or the place in front of a line break that ends it. -/
  | lastLineEnd
  | lineEnd
  | wordEdge (ascii : Bool)
  | noWordEdge (ascii : Bool)
deriving Repr, DecidableEq

/-- How a repetition weighs its turns. -/
inductive Greed where
  | greedy
  | lazy
  | possessive
deriving Repr, DecidableEq

end Pattern

/-- A pattern. Groups are numbered from one. -/
inductive Pattern where
  | empty
  | never
  | one (set : Pattern.CharSet)
  | any (lineBreaks : Bool)
  | seq (first second : Pattern)
  | alt (first second : Pattern)
  | group (index : Nat) (inner : Pattern)
  | repeated (inner : Pattern) (least : Nat) (most : Option Nat) (greed : Pattern.Greed)
  | reference (index : Nat) (anyCase : Bool)
  | anchor (a : Pattern.Anchor)
  | ahead (inner : Pattern) (negated : Bool)
  /-- Looks back by the width of the inner pattern. -/
  | behind (inner : Pattern) (width : Nat) (negated : Bool)
  | atomic (inner : Pattern)
  | ifGroup (index : Nat) (found missing : Pattern)
deriving Repr

namespace Pattern

/-- The least and the greatest number of characters that a pattern can match; no greatest number
when there is no bound. References count as unbounded unless they are empty. -/
def width : Pattern → Nat × Option Nat
  | empty | never | anchor _ => (0, some 0)
  | one _ | any _ => (1, some 1)
  | seq a b =>
    ((width a).1 + (width b).1, (width a).2.bind fun m => (width b).2.map (m + ·))
  | alt a b =>
    (min (width a).1 (width b).1, (width a).2.bind fun m => (width b).2.map (max m ·))
  | group _ p => width p
  | repeated p least most _ =>
    ((width p).1 * least, (width p).2.bind fun m => if m = 0 then some 0 else most.map (m * ·))
  | reference _ _ => (0, none)
  | ahead _ _ | behind _ _ _ => (0, some 0)
  | atomic p => width p
  | ifGroup _ a b =>
    (min (width a).1 (width b).1, (width a).2.bind fun m => (width b).2.map (max m ·))

end Pattern

end NoteTemplate
