import NoteTemplate.Text.Margin
import NoteTemplate.Text.Digit
import NoteTemplate.Yaml.Cursor

/-!
Reading the scalars of YAML: plain ones, ones in quotes, and blocks of lines. Line breaks in plain
and quoted scalars fold: a single one is a space, and of several all but the first stay.
-/

namespace NoteTemplate.Yaml

open NoteTemplate.Text (isInlineBlank isHexDigit hexValue)

def folded (breaks : Nat) : List Char := if breaks = 0 then [' '] else List.replicate breaks '\n'

/-- A plain scalar, where it ends, and whether a line break was passed behind it. -/
structure Plain where
  text : List Char
  stop : Cursor
  passedBreak : Bool

/-- The length of the part of a plain scalar that stands on one line, without blanks. Inside of
brackets it ends at commas and brackets. -/
def plainLength (inFlow : Bool) : List Char → Nat
  | [] => 0
  | c :: rest =>
    if c = ':' && isGap rest.head? then 0
    else if isGap (some c) || inFlow && ",[]\x7b\x7d".toList.contains c then 0
    else plainLength inFlow rest + 1

/-- Passes spaces and line breaks, which are counted. None at the mark of a document. -/
def skipPlainBreaks : Nat → Cursor → Nat → Option Nat × Cursor
  | 0, c, n => (some n, c)
  | fuel + 1, c, n =>
    let c := c.skip (· == ' ')
    if c.head? = some '\n' then
      let c := c.next
      if c.isDocumentMark then (none, c) else skipPlainBreaks fuel c (n + 1)
    else (some n, c)

/-- The blanks behind a part of a plain scalar, the place behind them, and whether they hold a line
break. A document mark behind them ends the scalar, as does anything but blanks. -/
def plainBlanks (fuel : Nat) (c : Cursor) : List Char × Cursor × Bool :=
  let spaces := c.rest.takeWhile (· == ' ')
  let c := c.advance spaces.length
  if c.head? = some '\n' then
    let c := c.next
    if c.isDocumentMark then ([], c, true)
    else match skipPlainBreaks fuel c 0 with
      | (some breaks, c) => (folded breaks, c, true)
      | (none, c) => ([], c, true)
  else (spaces, c, false)

/-- Reads a plain scalar whose further lines are indented up to a column, behind a text and the
blanks that follow it. -/
def readPlainFrom (inFlow : Bool) (column : Nat) : Nat → Plain → List Char → Plain
  | 0, found, _ => found
  | fuel + 1, found, blanks =>
    let n := plainLength inFlow found.stop.rest
    if found.stop.head? = some '#' || n = 0 then found
    else
      let text := found.text ++ blanks ++ found.stop.rest.take n
      let (blanks, stop, passedBreak) := plainBlanks fuel (found.stop.advance n)
      let found : Plain := ⟨text, stop, passedBreak⟩
      if blanks.isEmpty || stop.head? = some '#' || !inFlow && stop.column < column then found
      else readPlainFrom inFlow column fuel found blanks

def readPlain (inFlow : Bool) (column : Nat) (c : Cursor) : Plain :=
  readPlainFrom inFlow column (c.rest.length + 1) ⟨[], c, false⟩ []

/-- Passes blanks and line breaks inside of quotes, and counts the line breaks. The mark of a
document must not stand inside of quotes. -/
def skipQuotedBreaks? : Nat → Cursor → Nat → Option (Nat × Cursor)
  | 0, _, _ => none
  | fuel + 1, c, n =>
    if c.isDocumentMark then none
    else
      let c := c.skip isInlineBlank
      if c.head? = some '\n' then skipQuotedBreaks? fuel c.next (n + 1) else some (n, c)

def escapes : List (Char × Nat) := [
  ('0', 0), ('a', 7), ('b', 8), ('t', 9), ('\t', 9), ('n', 10), ('v', 11), ('f', 12), ('r', 13),
  ('e', 27), (' ', 32), ('"', 34), ('/', 47), ('\\', 92), ('N', 0x85), ('_', 0xA0),
  ('L', 0x2028), ('P', 0x2029)]

/-- How many hexadecimal digits follow a protected character. -/
def escapeDigits? (c : Char) : Option Nat :=
  if c = 'x' then some 2 else if c = 'u' then some 4 else if c = 'U' then some 8 else none

/-- A number of hexadecimal digits and what follows them. -/
def readHex? (count : Nat) (cs : List Char) : Option Nat :=
  let digits := cs.take count
  if digits.length = count && digits.all isHexDigit then some (hexValue digits) else none

def secondHalf? (cs : List Char) : Option Nat :=
  match cs with
  | '\\' :: 'u' :: rest => (readHex? 4 rest).filter fun n => 0xDC00 ≤ n && n < 0xE000
  | _ => none

/-- Reads what stands behind a backslash: a character, and the place behind it. -/
def readEscape? (c : Cursor) : Option (Char × Cursor) := do
  let ch ← c.head?
  match escapes.lookup ch with
  | some n => return (Char.ofNat n, c.next)
  | none =>
    let count ← escapeDigits? ch
    let n ← readHex? count c.next.rest
    let after := c.advance (count + 1)
    if 0xD800 ≤ n && n < 0xDC00 then
      let low ← secondHalf? after.rest
      return (Char.ofNat (0x10000 + (n - 0xD800) * 0x400 + (low - 0xDC00)), after.advance 6)
    else if n.isValidChar then return (Char.ofNat n, after)
    else none

def readQuoted? (double : Bool) : Nat → Cursor → Option (List Char × Cursor)
  | 0, _ => none
  | fuel + 1, c => do
    let go (text : List Char) (c : Cursor) : Option (List Char × Cursor) :=
      (readQuoted? double fuel c).map fun (rest, c) => (text ++ rest, c)
    let ch ← c.head?
    if isInlineBlank ch || ch = '\n' then
      let blanks := c.rest.takeWhile isInlineBlank
      let c := c.advance blanks.length
      if c.head? = some '\n' then
        let (breaks, c) ← skipQuotedBreaks? (c.rest.length + 1) c.next 0
        go (folded breaks) c
      else go blanks c
    else if ch = (if double then '"' else '\'') then
      if !double && c.peek? 1 = some '\'' then go ['\''] (c.advance 2) else some ([], c.next)
    else if double && ch = '\\' then
      let c := c.next
      if c.head? = some '\n' then
        let (breaks, c) ← skipQuotedBreaks? (c.rest.length + 1) c.next 0
        go (List.replicate breaks '\n') c
      else
        let (ch, c) ← readEscape? c
        go [ch] c
    else go [ch] c.next

/-- What becomes of the line breaks at the end of a block. -/
inductive Chomping where
  /-- All are dropped. -/
  | strip
  /-- One is kept. -/
  | clip
  /-- All are kept. -/
  | keep
deriving Repr, DecidableEq

/-- The head of a block: what becomes of its last line breaks, and by how much it is indented. -/
structure BlockHead where
  chomping : Chomping := .clip
  increment : Option Nat := none

def readChomping? (c : Cursor) : Option (Chomping × Cursor) :=
  match c.head? with
  | some '+' => some (.keep, c.next)
  | some '-' => some (.strip, c.next)
  | _ => none

/-- A digit in the head of a block; zero is none. -/
def readIncrement? (c : Cursor) : Option (Nat × Cursor) :=
  match c.head? with
  | some ch => if '1' ≤ ch && ch ≤ '9' then some (ch.toNat - 48, c.next) else none
  | none => none

def readBlockHead? (c : Cursor) : Option (BlockHead × Cursor) :=
  let (head, c) : BlockHead × Cursor :=
    match readChomping? c with
    | some (chomping, c) =>
      match readIncrement? c with
      | some (n, c) => (⟨chomping, some n⟩, c)
      | none => (⟨chomping, none⟩, c)
    | none =>
      match readIncrement? c with
      | some (n, c) =>
        match readChomping? c with
        | some (chomping, c) => (⟨chomping, some n⟩, c)
        | none => ({ increment := some n }, c)
      | none => ({}, c)
  if c.head?.all fun ch => ch = ' ' || ch = '\n' then
    let c := c.skip (· == ' ')
    let c := if c.head? = some '#' then c.skip (· != '\n') else c
    match c.head? with
    | none => some (head, c)
    | some '\n' => some (head, c.next)
    | some _ => none
  else none

/-- Passes the empty lines in front of a block: their number, and the greatest indentation. -/
def skipBlockStart : Nat → Cursor → Nat → Nat → Nat × Nat × Cursor
  | 0, c, breaks, deepest => (breaks, deepest, c)
  | fuel + 1, c, breaks, deepest =>
    match c.head? with
    | some '\n' => skipBlockStart fuel c.next (breaks + 1) deepest
    | some ' ' => skipBlockStart fuel c.next breaks (max deepest c.next.column)
    | _ => (breaks, deepest, c)

/-- Passes the empty lines of a block up to its indentation on the next line. -/
def skipBlockBreaks (indent : Nat) : Nat → Cursor → Nat → Nat × Cursor
  | 0, c, breaks => (breaks, c)
  | fuel + 1, c, breaks =>
    let c := c.skipIndent indent
    if c.head? = some '\n' then skipBlockBreaks indent fuel c.next (breaks + 1) else (breaks, c)

/-- The lines of a block. -/
structure BlockLines where
  text : List Char := []
  /-- Whether the last line has a break. -/
  broken : Bool := false
  /-- The empty lines behind it. -/
  breaks : Nat := 0
  stop : Cursor

/-- Reads the lines of a block with an indentation. In a folded block single line breaks between
lines that do not begin with a blank become spaces. -/
def readBlockLines (fold outermost : Bool) (indent : Nat) : Nat → BlockLines → BlockLines
  | 0, found => found
  | fuel + 1, found =>
    let c := found.stop
    if c.column ≠ indent || c.head?.isNone then found
    else
      let solid := !c.head?.any isInlineBlank
      let line := c.rest.takeWhile (· != '\n')
      let c := c.advance line.length
      let broken := c.head? = some '\n'
      let (breaks, c) := skipBlockBreaks indent (c.rest.length + 1) c.next 0
      let text := found.text ++ List.replicate found.breaks '\n' ++ line
      let found : BlockLines := ⟨text, broken, breaks, c⟩
      if outermost && c.column = 0 && c.isDocumentMark || c.column ≠ indent || c.head?.isNone then
        found
      else
        let joint := if fold && broken && solid && !c.head?.any isInlineBlank then
            (if breaks = 0 then [' '] else [])
          else if broken then ['\n'] else []
        readBlockLines fold outermost indent fuel { found with text := text ++ joint }

/-- Reads a block behind its mark; its lines are indented from a column on. -/
def readBlock? (fold : Bool) (least : Nat) (c : Cursor) : Option (List Char × Cursor) := do
  let (head, c) ← readBlockHead? c
  let fuel := c.rest.length + 1
  let (indent, breaks, c) := match head.increment with
    | none =>
      let (breaks, deepest, c) := skipBlockStart fuel c 0 0
      (max least deepest, breaks, c)
    | some n =>
      let indent := max least 1 + n - 1
      let (breaks, c) := skipBlockBreaks indent fuel c 0
      (indent, breaks, c)
  let found := readBlockLines fold (least = 0) indent fuel { breaks, stop := c }
  let ending := match head.chomping with
    | .strip => []
    | .clip => if found.broken then ['\n'] else []
    | .keep => (if found.broken then ['\n'] else []) ++ List.replicate found.breaks '\n'
  return (found.text ++ ending, found.stop)

end NoteTemplate.Yaml
