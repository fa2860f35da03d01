import NoteTemplate.Text.Word
import NoteTemplate.Yaml.Scalar

/-!
The tokens of YAML. Indentation becomes tokens that open and close blocks. Whether a scalar or a
collection is a key is known only at the colon behind it; then the token of the key is put in front
of it after all.
-/

namespace NoteTemplate.Yaml

/-- A token. -/
inductive Token where
  | directive
  | documentStart
  | documentEnd
  | blockSequence
  | blockMapping
  | blockEnd
  | flowSequence
  | flowSequenceEnd
  | flowMapping
  | flowMappingEnd
  | blockEntry
  | flowEntry
  | key
  | value
  | copy (name : String)
  | anchor (name : String)
  | tag (name : String)
  | scalar (plain : Bool) (text : String)
deriving Repr, DecidableEq

/-- Where a key may stand: the number of tokens in front of it, whether something else would be a
fault, and its place. -/
structure KeySpot where
  count : Nat
  required : Bool
  index : Nat
  line : Nat
  column : Nat
deriving Repr, DecidableEq

/-- A scanner on its way through a text. -/
structure Scanner where
  cursor : Cursor
  /-- The tokens, the last first. -/
  tokens : List Token := []
  /-- The column of the innermost block; minus one outside of all. -/
  indent : Int := -1
  /-- The columns of the blocks around it. -/
  indents : List Int := []
  /-- Whether a key may stand at the place. -/
  keyAllowed : Bool := true
  /-- The spot of a key in the innermost brackets. -/
  spot : Option KeySpot := none
  /-- The spots of keys around the open brackets, the innermost first. -/
  outerSpots : List (Option KeySpot) := []
  /-- Whether each pair of open brackets is a mapping, the innermost first. -/
  flows : List Bool := []

namespace Scanner

def column (s : Scanner) : Int := s.cursor.column

def inFlow (s : Scanner) : Bool := !s.flows.isEmpty

def add (s : Scanner) (t : Token) : Scanner := { s with tokens := t :: s.tokens }

/-- Adds tokens behind the first tokens of a given number. -/
def insert (s : Scanner) (count : Nat) (ts : List Token) : Scanner :=
  let behind := s.tokens.length - count
  { s with tokens := s.tokens.take behind ++ ts.reverse ++ s.tokens.drop behind }

def move (s : Scanner) (n : Nat) : Scanner := { s with cursor := s.cursor.advance n }

/-- Passes blanks, comments and line breaks. Behind a line break a key may stand again. -/
def skipBlanks (inFlow : Bool) : Nat → Cursor → Bool → Cursor × Bool
  | 0, c, keyAllowed => (c, keyAllowed)
  | fuel + 1, c, keyAllowed =>
    let c := c.skip fun ch => ch == ' ' || inFlow && ch == '\t'
    let c := if c.head? = some '#' then c.skip (· != '\n') else c
    if c.head? = some '\n' then skipBlanks inFlow fuel c.next (keyAllowed || !inFlow)
    else (c, keyAllowed)

def maxKeyLength : Nat := 1024

/-- Whether a key can no longer stand at a spot, as it must stand on one line. -/
def isStale (c : Cursor) (spot : KeySpot) : Bool :=
  spot.line ≠ c.line || maxKeyLength < c.index - spot.index

/-- Drops the spots at which no key can stand any more; a fault where one must. -/
def dropStale? (s : Scanner) : Option Scanner :=
  let stale (spot : Option KeySpot) : Bool := spot.any (isStale s.cursor)
  if (s.spot :: s.outerSpots).any fun spot => stale spot && spot.any (·.required) then none
  else
    let keep (spot : Option KeySpot) : Option KeySpot := if stale spot then none else spot
    some { s with spot := keep s.spot, outerSpots := s.outerSpots.map keep }

/-- Gives up the spot of a key; a fault where one must stand. -/
def dropSpot? (s : Scanner) : Option Scanner :=
  if s.spot.any (·.required) then none else some { s with spot := none }

/-- Remembers the place as the spot of a key, if one may stand there. -/
def saveSpot? (s : Scanner) : Option Scanner :=
  if s.keyAllowed then do
    let required := !s.inFlow && s.indent = s.column
    let s ← s.dropSpot?
    let c := s.cursor
    return { s with spot := some ⟨s.tokens.length, required, c.index, c.line, c.column⟩ }
  else some s

def closeBlocks (column : Int) : List Int → Scanner → Scanner
  | [], s => s
  | outer :: rest, s =>
    if column < s.indent then
      closeBlocks column rest { s with
        indent := outer, indents := rest, tokens := .blockEnd :: s.tokens }
    else s

/-- Closes the blocks that stand deeper than a column, outside of brackets. -/
def unwind (s : Scanner) (column : Int) : Scanner :=
  if s.inFlow then s else closeBlocks column s.indents s

/-- Opens a block at a column, behind some tokens, unless one is open there. -/
def openBlock (s : Scanner) (column : Int) (count : Nat) (t : Token) : Scanner :=
  if s.indent < column then
    { s.insert count [t] with indent := column, indents := s.indent :: s.indents }
  else s

/-- Opens a block at the place, outside of brackets. A fault where none may begin. -/
def beginBlock? (s : Scanner) (t : Token) : Option Scanner :=
  if s.inFlow then some s
  else if s.keyAllowed then some (s.openBlock s.column s.tokens.length t)
  else none

/-- A directive, which takes up its line. -/
def readDirective? (s : Scanner) : Option Scanner := do
  let s ← (s.unwind (-1)).dropSpot?
  return { s with keyAllowed := false, cursor := s.cursor.skip (· != '\n') }.add .directive

def readDocumentMark? (s : Scanner) (t : Token) : Option Scanner := do
  let s ← (s.unwind (-1)).dropSpot?
  return ({ s with keyAllowed := false }.add t).move 3

def openFlow? (s : Scanner) (isMapping : Bool) (t : Token) : Option Scanner := do
  let s ← s.saveSpot?
  return ({ s with
    outerSpots := s.spot :: s.outerSpots
    spot := none
    flows := isMapping :: s.flows
    keyAllowed := true }.add t).move 1

def closeFlow? (s : Scanner) (t : Token) : Option Scanner := do
  let s ← s.dropSpot?
  return ({ s with
    spot := s.outerSpots.head?.join
    outerSpots := s.outerSpots.tail
    flows := s.flows.tail
    keyAllowed := false }.add t).move 1

def readFlowEntry? (s : Scanner) : Option Scanner := do
  let s ← s.dropSpot?
  return ({ s with keyAllowed := true }.add .flowEntry).move 1

def readBlockEntry? (s : Scanner) : Option Scanner := do
  let s ← s.beginBlock? .blockSequence
  let s ← { s with keyAllowed := true }.dropSpot?
  return (s.add .blockEntry).move 1

def readKey? (s : Scanner) : Option Scanner := do
  let s ← s.beginBlock? .blockMapping
  let s ← { s with keyAllowed := !s.inFlow }.dropSpot?
  return (s.add .key).move 1

/-- The colon of a value. What stood at the spot of a key is one. -/
def readValue? (s : Scanner) : Option Scanner :=
  match s.spot with
  | some spot =>
    let s := { s with spot := none, keyAllowed := false }.insert spot.count [.key]
    let s := if s.inFlow then s else s.openBlock spot.column spot.count .blockMapping
    some ((s.add .value).move 1)
  | none => do
    let s ← s.beginBlock? .blockMapping
    let s ← { s with keyAllowed := !s.inFlow }.dropSpot?
    return (s.add .value).move 1

def isAnchorChar (c : Char) : Bool :=
  ('!' ≤ c && c ≤ '~' || 0xA0 ≤ c.toNat && c.toNat ≠ 0xFEFF) && !",[]\x7b\x7d".toList.contains c

/-- An anchor or an alias, told by its mark. -/
def readAnchor? (s : Scanner) (make : String → Token) : Option Scanner := do
  let s ← s.saveSpot?
  let c := s.cursor.next
  let name := c.rest.takeWhile isAnchorChar
  let c := c.advance name.length
  let ends := isGap c.head? || c.head?.any fun ch => "?:,[]\x7b\x7d%@\x60".toList.contains ch
  if name.isEmpty || !ends then none
  else some ({ s with keyAllowed := false, cursor := c }.add (make (String.ofList name)))

def openTag : String := "!"

def coreTag : String := "tag:yaml.org,2002:"

def isTagChar (c : Char) : Bool :=
  Text.isAsciiLetter c || Text.isAsciiDigit c || "-;/?:@&=+$,_.!~*'()[]%#".toList.contains c

/-- The characters of a tag from a place on; there must be some. -/
def readTagChars? (c : Cursor) : Option (String × Cursor) :=
  match c.rest.takeWhile isTagChar with
  | [] => none
  | cs => some (String.ofList cs, c.advance cs.length)

def readTagName? (c : Cursor) : Option (String × Cursor) :=
  match c.rest with
  | '<' :: _ => do
    let (name, c) ← readTagChars? c.next
    if c.head? = some '>' then some (name, c.next) else none
  | '!' :: _ => (readTagChars? c.next).map fun (name, c) => (coreTag ++ name, c)
  | cs =>
    if isGap cs.head? then some (openTag, c)
    else do
      let (name, c) ← readTagChars? c
      -- No document may name a tag by a handle of its own.
      if name.toList.contains '!' then none else some (openTag ++ name, c)

def readTag? (s : Scanner) : Option Scanner := do
  let s ← s.saveSpot?
  let (name, c) ← readTagName? s.cursor.next
  if c.head?.all fun ch => ch = ' ' || ch = '\n' then
    some ({ s with keyAllowed := false, cursor := c }.add (.tag name))
  else none

def readBlockScalar? (s : Scanner) (fold : Bool) : Option Scanner := do
  let s ← { s with keyAllowed := true }.dropSpot?
  let (text, c) ← readBlock? fold (s.indent + 1).toNat s.cursor.next
  return { s with cursor := c }.add (.scalar false (String.ofList text))

def readQuotedScalar? (s : Scanner) (double : Bool) : Option Scanner := do
  let s ← s.saveSpot?
  let c := s.cursor.next
  let (text, c) ← readQuoted? double (c.rest.length + 1) c
  return { s with keyAllowed := false, cursor := c }.add (.scalar false (String.ofList text))

def readPlainScalar? (s : Scanner) : Option Scanner := do
  let s ← s.saveSpot?
  let found := readPlain s.inFlow (s.indent + 1).toNat s.cursor
  return { s with keyAllowed := found.passedBreak, cursor := found.stop }.add
    (.scalar true (String.ofList found.text))

/-- The characters that begin no plain scalar by themselves. -/
def marks : List Char := "\t-?:,[]\x7b\x7d#&*!|>'\"%@\x60".toList

def beginsPlain (s : Scanner) (ch : Char) : Bool :=
  !marks.contains ch ||
    !isGap (s.cursor.peek? 1) && (ch = '-' || !s.inFlow && (ch = '?' || ch = ':')) ||
    ch = ':' && s.inFlow && s.cursor.peek? 1 ≠ some ' ' && s.cursor.peek? 1 ≠ some '\t'

def beginsValue (s : Scanner) : Bool := isGap (s.cursor.peek? 1) || s.flows.head?.any id

def readToken? (s : Scanner) (ch : Char) : Option Scanner :=
  let apart := isGap (s.cursor.peek? 1)
  let atMark := s.cursor.column = 0 && s.cursor.isDocumentMark
  if ch = '%' && s.cursor.column = 0 then s.readDirective?
  else if ch = '-' && atMark then s.readDocumentMark? .documentStart
  else if ch = '.' && atMark then s.readDocumentMark? .documentEnd
  else if ch = '[' then s.openFlow? false .flowSequence
  else if ch = '\x7b' then s.openFlow? true .flowMapping
  else if ch = ']' then s.closeFlow? .flowSequenceEnd
  else if ch = '\x7d' then s.closeFlow? .flowMappingEnd
  else if ch = ',' then s.readFlowEntry?
  else if ch = '-' && apart then s.readBlockEntry?
  else if ch = '?' && (s.inFlow || apart) then s.readKey?
  else if ch = ':' && s.beginsValue then s.readValue?
  else if ch = '*' then s.readAnchor? .copy
  else if ch = '&' then s.readAnchor? .anchor
  else if ch = '!' then s.readTag?
  else if ch = '|' && !s.inFlow then s.readBlockScalar? false
  else if ch = '>' && !s.inFlow then s.readBlockScalar? true
  else if ch = '\'' then s.readQuotedScalar? false
  else if ch = '"' then s.readQuotedScalar? true
  else if s.beginsPlain ch then s.readPlainScalar?
  else none

def run? : Nat → Scanner → Option (List Token)
  | 0, _ => none
  | fuel + 1, s => do
    let (cursor, keyAllowed) :=
      skipBlanks s.inFlow (s.cursor.rest.length + 1) s.cursor s.keyAllowed
    let s ← { s with cursor, keyAllowed }.dropStale?
    let s := s.unwind s.column
    match s.cursor.head? with
    | none =>
      let s ← (s.unwind (-1)).dropSpot?
      return s.tokens.reverse
    | some ch => run? fuel (← s.readToken? ch)

end Scanner

def isPrintable (c : Char) : Bool :=
  c == '\t' || c == '\n' || c == '\r' || ' ' ≤ c && c ≤ '~' || c.toNat == 0x85 ||
    0xA0 ≤ c.toNat && c.toNat ≤ 0xFFFD || 0x10000 ≤ c.toNat

/-- The tokens of a text, whose lines end with line feeds; none for a faulty text. -/
def tokens? (cs : List Char) : Option (List Token) :=
  if cs.all isPrintable then
    let cs := if cs.head? = some (Char.ofNat 0xFEFF) then cs.drop 1 else cs
    Scanner.run? (cs.length + 1) { cursor := { rest := cs } }
  else none

end NoteTemplate.Yaml
