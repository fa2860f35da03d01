import NoteTemplate.Pattern.Match
import NoteTemplate.Text.Digit
import NoteTemplate.Text.Search

/-!
Reading patterns from their usual notation. A text that is no pattern is refused as a whole.
-/

namespace NoteTemplate.Pattern

open NoteTemplate.Text

/-- The switches that letters in a pattern turn on and off. -/
structure Flags where
  anyCase : Bool := false
  multiline : Bool := false
  dotAll : Bool := false
  verbose : Bool := false
  ascii : Bool := false
deriving Inhabited, Repr, DecidableEq

/-- The groups seen so far: the number of the next one, names, and the groups still open. Inside a
look behind only groups before it may be referred to. -/
structure Scope where
  next : Nat := 1
  names : List (String × Nat) := []
  opened : List Nat := []
  lookBehind : Option Nat := none
deriving Inhabited, Repr

/-- What kind of item a part of a sequence is, as far as repetition is concerned. -/
inductive Shape where
  | plain
  | anchor
  | repeated
deriving Repr, DecidableEq

/-- A character of a pattern that stands for itself. -/
def literal (flags : Flags) (c : Char) : Pattern :=
  .one ⟨[.range c c], false, flags.anyCase⟩

/-- The character of a code point, unless it is none. -/
def charOf? (n : Nat) : Option Char := if n.isValidChar then some (Char.ofNat n) else none

/-- The character that a count of hexadecimal digits writes. -/
def readHex? (count : Nat) (cs : List Char) : Option (Char × List Char) := do
  let digits ← (cs.take count).mapM hexDigitValue?
  if digits.length < count then none
  else
    let c ← charOf? (digits.foldl (fun n d => n * 16 + d) 0)
    return (c, cs.drop count)

def controlEscape? (c : Char) : Option Char :=
  if c = 'a' then some (Char.ofNat 7)
  else if c = 'f' then some (Char.ofNat 12)
  else if c = 'n' then some '\n'
  else if c = 'r' then some '\r'
  else if c = 't' then some '\t'
  else if c = 'v' then some (Char.ofNat 11)
  else none

/-- The class that a letter behind a backslash stands for; a capital stands for what is not in it. -/
def classEscape? (flags : Flags) (c : Char) : Option Item :=
  if c = 'd' then some (.ofClass .digit false flags.ascii)
  else if c = 'D' then some (.ofClass .digit true flags.ascii)
  else if c = 's' then some (.ofClass .blank false flags.ascii)
  else if c = 'S' then some (.ofClass .blank true flags.ascii)
  else if c = 'w' then some (.ofClass .word false flags.ascii)
  else if c = 'W' then some (.ofClass .word true flags.ascii)
  else none

def hexEscape? (c : Char) (rest : List Char) : Option (Char × List Char) :=
  if c = 'x' then readHex? 2 rest
  else if c = 'u' then readHex? 4 rest
  else if c = 'U' then readHex? 8 rest
  else none

/-- Whether a letter introduces a hexadecimal escape or the name of a character, which must be
complete. -/
def isStrictEscape (c : Char) : Bool := c == 'x' || c == 'u' || c == 'U' || c == 'N'

/-- Reads an escape inside a set, behind its backslash. -/
def readSetEscape? (flags : Flags) : List Char → Option (Item × List Char)
  | [] => none
  | c :: rest =>
    let single (d : Char) (rest : List Char) : Option (Item × List Char) := some (.range d d, rest)
    match classEscape? flags c with
    | some item => some (item, rest)
    | none =>
      match controlEscape? c with
      | some d => single d rest
      | none =>
        if c = 'b' then single (Char.ofNat 8) rest
        else if isStrictEscape c then (hexEscape? c rest).bind fun (d, rest) => single d rest
        else if isOctalDigit c then
          let more := (rest.take 2).takeWhile isOctalDigit
          let n := octalValue (c :: more)
          if n > 255 then none else single (Char.ofNat n) (rest.drop more.length)
        else if isAsciiDigit c || isAsciiLetter c then none
        else single c rest

/-- The single character of a set item, if it is one. -/
def Item.single? : Item → Option Char
  | .range low high => if low = high then some low else none
  | .ofClass _ _ _ => none

/-- Reads one item of a set, an escape or a character. -/
def readSetItem? (flags : Flags) : List Char → Option (Item × List Char)
  | '\\' :: rest => readSetEscape? flags rest
  | c :: rest => some (.range c c, rest)
  | [] => none

/-- Reads the items of a set up to its closing bracket. A bracket that comes first is an item. -/
def readSet? (flags : Flags) : Nat → Bool → List Char → Option (List Item × List Char)
  | 0, _, _ => none
  | _ + 1, _, [] => none
  | fuel + 1, first, c :: cs =>
    if c = ']' && !first then some ([], cs)
    else do
      let (item, rest) ← readSetItem? flags (c :: cs)
      match rest with
      | '-' :: ']' :: after => return ([item, .range '-' '-'], after)
      | '-' :: after =>
        let (upper, after) ← readSetItem? flags after
        let low ← item.single?
        let high ← upper.single?
        if high < low then none
        else
          let (items, rest) ← readSet? flags fuel false after
          return (.range low high :: items, rest)
      | rest =>
        let (items, rest) ← readSet? flags fuel false rest
        return (item :: items, rest)

def refer? (flags : Flags) (scope : Scope) (index : Nat) : Option Pattern :=
  let isOpen := scope.opened.contains index
  let hidden := match scope.lookBehind with
    | some bound => bound ≤ index
    | none => false
  if index = 0 || scope.next ≤ index || isOpen || hidden then none
  else some (.reference index flags.anyCase)

/-- Reads an escape outside sets, behind its backslash. -/
def readEscape? (flags : Flags) (scope : Scope) :
    List Char → Option (Pattern × Shape × List Char)
  | [] => none
  | c :: rest =>
    let plain (p : Pattern) (rest : List Char) : Option (Pattern × Shape × List Char) :=
      some (p, .plain, rest)
    let edge (a : Anchor) : Option (Pattern × Shape × List Char) := some (.anchor a, .anchor, rest)
    if c = 'A' then edge .textStart
    else if c = 'Z' then edge .textEnd
    else if c = 'b' then edge (.wordEdge flags.ascii)
    else if c = 'B' then edge (.noWordEdge flags.ascii)
    else
      match classEscape? flags c with
      | some item => plain (.one ⟨[item], false, flags.anyCase⟩) rest
      | none =>
        match controlEscape? c with
        | some d => plain (literal flags d) rest
        | none =>
          if isStrictEscape c then
            (hexEscape? c rest).bind fun (d, rest) => plain (literal flags d) rest
          else if c = '0' then
            let more := (rest.take 2).takeWhile isOctalDigit
            plain (literal flags (Char.ofNat (octalValue more))) (rest.drop more.length)
          else if isAsciiDigit c then
            match rest with
            | d :: e :: after =>
              if isOctalDigit c && isOctalDigit d && isOctalDigit e then
                let n := octalValue [c, d, e]
                if n > 255 then none else plain (literal flags (Char.ofNat n)) after
              else if isAsciiDigit d then
                (refer? flags scope (digitsValue [c, d])).bind fun p => plain p (e :: after)
              else (refer? flags scope (digitsValue [c])).bind fun p => plain p rest
            | d :: [] =>
              if isAsciiDigit d then
                (refer? flags scope (digitsValue [c, d])).bind fun p => plain p []
              else (refer? flags scope (digitsValue [c])).bind fun p => plain p rest
            | [] => (refer? flags scope (digitsValue [c])).bind fun p => plain p []
          else if isAsciiLetter c then none
          else plain (literal flags c) rest

/-- The bounds of a repetition in braces, behind the opening one; none if these are no bounds and
the brace stands for itself. -/
def readBounds? (cs : List Char) : Option ((Nat × Option Nat) × List Char) :=
  let low := cs.takeWhile isAsciiDigit
  let rest := cs.dropWhile isAsciiDigit
  let number (digits : List Char) : Option Nat :=
    if digits = [] then none else some (digitsValue digits)
  match rest with
  | ',' :: rest =>
    let high := rest.takeWhile isAsciiDigit
    match rest.dropWhile isAsciiDigit with
    | '\x7d' :: after => some (((number low).getD 0, number high), after)
    | _ => none
  | '\x7d' :: after => if low = [] then none else some (((number low).getD 0, number low), after)
  | _ => none

/-- What follows the letters of switches. -/
inductive FlagScope where
  | whole
  | group
deriving Repr, DecidableEq

def setFlag? (flags : Flags) (on : Bool) (c : Char) : Option Flags :=
  if c = 'i' then some { flags with anyCase := on }
  else if c = 'm' then some { flags with multiline := on }
  else if c = 's' then some { flags with dotAll := on }
  else if c = 'x' then some { flags with verbose := on }
  else if c = 'a' && on then some { flags with ascii := true }
  else if c = 'u' && on then some { flags with ascii := false }
  else none

/-- Reads the letters of switches behind `(?`. Letters for the two kinds of classes exclude each
other, and no letter may be turned both on and off. -/
def readFlags? (flags : Flags) : List Char → Option (Flags × FlagScope × List Char)
  | cs =>
    let added := cs.takeWhile isAsciiLetter
    let rest := cs.dropWhile isAsciiLetter
    if added.contains 'a' && added.contains 'u' then none
    else do
      let flags ← added.foldlM (fun flags c => setFlag? flags true c) flags
      match rest with
      | ')' :: after => if added = [] then none else return (flags, .whole, after)
      | ':' :: after => return (flags, .group, after)
      | '-' :: after =>
        let removed := after.takeWhile isAsciiLetter
        if removed = [] || removed.any added.contains then none
        else
          let flags ← removed.foldlM (fun flags c => setFlag? flags false c) flags
          match after.dropWhile isAsciiLetter with
          | ':' :: body => return (flags, .group, body)
          | _ => none
      | _ => none

def isGroupName (name : List Char) : Bool :=
  match name with
  | [] => false
  | c :: _ => name.all isWord && !isDigit c

def sequence (items : List (Pattern × Shape)) : Pattern :=
  match items with
  | [] => .empty
  | [(p, _)] => p
  | (p, _) :: rest => .seq p (sequence rest)

/-- A pattern that was read, the groups seen, and the text behind. -/
structure Read where
  pattern : Pattern
  scope : Scope
  rest : List Char

def isPatternBlank (c : Char) : Bool := c == ' ' || (9 ≤ c.toNat && c.toNat ≤ 13)

mutual

/-- Reads alternatives. Only the very first item of the whole pattern may be a switch for all. -/
def readAlternatives? : Nat → Flags → Scope → Bool → List Char → Option Read
  | 0, _, _, _, _ => none
  | fuel + 1, flags, scope, first, cs => do
    let (branch, flags) ← readSequence? fuel flags scope first [] cs
    match branch.rest with
    | '|' :: rest =>
      let more ← readAlternatives? fuel flags branch.scope false rest
      return { more with pattern := .alt branch.pattern more.pattern }
    | _ => return branch

/-- Reads a sequence of items, the last one first in the accumulator. -/
def readSequence? :
    Nat → Flags → Scope → Bool → List (Pattern × Shape) → List Char → Option (Read × Flags)
  | 0, _, _, _, _, _ => none
  | fuel + 1, flags, scope, first, items, cs =>
    let done : Option (Read × Flags) := some (⟨sequence items.reverse, scope, cs⟩, flags)
    let push (p : Pattern) (shape : Shape) (rest : List Char) : Option (Read × Flags) :=
      readSequence? fuel flags scope first ((p, shape) :: items) rest
    let again (least : Nat) (most : Option Nat) (rest : List Char) : Option (Read × Flags) :=
      match items with
      | (p, .plain) :: before =>
        let (greed, rest) := match rest with
          | '?' :: rest => (Greed.lazy, rest)
          | '+' :: rest => (Greed.possessive, rest)
          | rest => (Greed.greedy, rest)
        readSequence? fuel flags scope first
          ((.repeated p least most greed, .repeated) :: before) rest
      | _ => none
    match cs with
    | [] => done
    | c :: rest =>
      if c = '|' || c = ')' then done
      else if flags.verbose && isPatternBlank c then
        readSequence? fuel flags scope first items rest
      else if flags.verbose && c = '#' then
        readSequence? fuel flags scope first items ((rest.dropWhile (· ≠ '\n')).drop 1)
      else if c = '\\' then do
        let (p, shape, rest) ← readEscape? flags scope rest
        push p shape rest
      else if c = '[' then do
        let (negated, body) := match rest with
          | '^' :: body => (true, body)
          | body => (false, body)
        let (set, rest) ← readSet? flags (body.length + 1) true body
        push (.one ⟨set, negated, flags.anyCase⟩) .plain rest
      else if c = '.' then push (.any flags.dotAll) .plain rest
      else if c = '^' then
        push (.anchor (if flags.multiline then .lineStart else .textStart)) .anchor rest
      else if c = '$' then
        push (.anchor (if flags.multiline then .lineEnd else .lastLineEnd)) .anchor rest
      else if c = '?' then again 0 (some 1) rest
      else if c = '*' then again 0 none rest
      else if c = '+' then again 1 none rest
      else if c = '\x7b' then
        match readBounds? rest with
        | none => push (literal flags c) .plain rest
        | some ((least, most), rest) =>
          if (match most with | some m => decide (m < least) | none => false) then none
          else again least most rest
      else if c = '(' then
        match rest with
        | '?' :: rest => readExtension? fuel flags scope (first && items.isEmpty) items rest
        | rest => readGroup? fuel flags scope first items none rest
      else push (literal flags c) .plain rest

/-- Reads a group with a number behind its opening parenthesis, and goes on with the sequence. -/
def readGroup? :
    Nat → Flags → Scope → Bool → List (Pattern × Shape) → Option String → List Char →
      Option (Read × Flags)
  | 0, _, _, _, _, _, _ => none
  | fuel + 1, flags, scope, first, items, name, cs => do
    let index := scope.next
    if (match name with | some n => scope.names.any (·.1 == n) | none => false) then none
    let names := match name with
      | some n => (n, index) :: scope.names
      | none => scope.names
    let inner := { scope with next := index + 1, names, opened := index :: scope.opened }
    let body ← readAlternatives? fuel flags inner false cs
    match body.rest with
    | ')' :: rest =>
      let outer := { body.scope with opened := scope.opened }
      readSequence? fuel flags outer first ((.group index body.pattern, .plain) :: items) rest
    | _ => none

/-- Reads what stands behind `(?`, and goes on with the sequence. -/
def readExtension? :
    Nat → Flags → Scope → Bool → List (Pattern × Shape) → List Char → Option (Read × Flags)
  | 0, _, _, _, _, _ => none
  | fuel + 1, flags, scope, first, items, cs =>
    let push (p : Pattern) (scope : Scope) (rest : List Char) : Option (Read × Flags) :=
      readSequence? fuel flags scope first ((p, .plain) :: items) rest
    let enclosed (inner : Flags) (wrap : Pattern → Pattern) (cs : List Char) :
        Option (Read × Flags) := do
      let body ← readAlternatives? fuel inner scope false cs
      match body.rest with
      | ')' :: rest => push (wrap body.pattern) body.scope rest
      | _ => none
    let lookBehind (negated : Bool) (cs : List Char) : Option (Read × Flags) := do
      let bound := scope.lookBehind.getD scope.next
      let body ← readAlternatives? fuel flags { scope with lookBehind := some bound } false cs
      match body.rest, width body.pattern with
      | ')' :: rest, (least, some most) =>
        if least = most then
          push (.behind body.pattern least negated)
            { body.scope with lookBehind := scope.lookBehind } rest
        else none
      | _, _ => none
    match cs with
    | 'P' :: '<' :: rest => do
      let (name, rest) ← cutAtChar? '>' rest
      if isGroupName name then
        readGroup? fuel flags scope first items (some (String.ofList name)) rest
      else none
    | 'P' :: '=' :: rest => do
      let (name, rest) ← cutAtChar? ')' rest
      let index ← scope.names.lookup (String.ofList name)
      push (← refer? flags scope index) scope rest
    | ':' :: rest => enclosed flags id rest
    | '>' :: rest => enclosed flags .atomic rest
    | '#' :: rest => do
      let (_, rest) ← cutAtChar? ')' rest
      readSequence? fuel flags scope first items rest
    | '=' :: rest => enclosed flags (.ahead · false) rest
    | '!' :: rest => enclosed flags (.ahead · true) rest
    | '<' :: '=' :: rest => lookBehind false rest
    | '<' :: '!' :: rest => lookBehind true rest
    | '(' :: rest => do
      let (name, rest) ← cutAtChar? ')' rest
      let index ←
        if isGroupName name then scope.names.lookup (String.ofList name)
        else if name ≠ [] && name.all isAsciiDigit then some (digitsValue name)
        else none
      if index = 0 then none
      let (found, _) ← readSequence? fuel flags scope false [] rest
      match found.rest with
      | '|' :: rest =>
        let (missing, _) ← readSequence? fuel flags found.scope false [] rest
        match missing.rest with
        | ')' :: rest => push (.ifGroup index found.pattern missing.pattern) missing.scope rest
        | _ => none
      | ')' :: rest => push (.ifGroup index found.pattern .empty) found.scope rest
      | _ => none
    | rest => do
      let (inner, reach, rest) ← readFlags? flags rest
      match reach with
      | .group => enclosed inner id rest
      | .whole => if first then readSequence? fuel inner scope true items rest else none

end

def greatestCondition : Pattern → Nat
  | .seq a b | .alt a b => max (greatestCondition a) (greatestCondition b)
  | .ifGroup i a b => max i (max (greatestCondition a) (greatestCondition b))
  | .group _ p => greatestCondition p
  | .repeated p _ _ _ => greatestCondition p
  | .ahead p _ => greatestCondition p
  | .behind p _ _ => greatestCondition p
  | .atomic p => greatestCondition p
  | .empty | .never | .one _ | .any _ | .reference _ _ | .anchor _ => 0

def ofChars? (cs : List Char) : Option Compiled := do
  let found ← readAlternatives? (4 * cs.length + 4) {} {} true cs
  if found.rest ≠ [] then none
  else if found.scope.next ≤ greatestCondition found.pattern then none
  else return ⟨found.pattern, found.scope.next - 1⟩

/-- The pattern that a text writes; a text that is no pattern matches nothing. -/
def ofString (s : String) : Compiled := (ofChars? s.toList).getD ⟨.never, 0⟩

end NoteTemplate.Pattern
