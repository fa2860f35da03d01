import NoteTemplate.Pattern.Reader
import NoteTemplate.Text.Case
import NoteTemplate.Text.Reference

/-!
The tokens of HTML: tags, texts, references, comments and declarations. What is no proper markup is
text.
-/

namespace NoteTemplate.Html

open NoteTemplate.Text
open NoteTemplate.Pattern (Subject Compiled matchAt? searchFrom)

/-- An attribute of a tag; one without an equals sign has no value. -/
abbrev Attribute := String × Option String

/-- A token of HTML. -/
inductive Token where
  | startTag (name : String) (attributes : List Attribute)
  /-- A tag that is closed by a slash at its end. -/
  | emptyTag (name : String) (attributes : List Attribute)
  | endTag (name : String)
  | text (cs : List Char)
  /-- A reference to a code point in decimal or hexadecimal digits. -/
  | numbered (digits : List Char)
  /-- A reference to a character by name. -/
  | named (name : List Char)
  | comment (cs : List Char)
  | doctype (cs : List Char)
  /-- What stands inside square brackets of a declaration. -/
  | bracketed (cs : List Char)
  | instruction (cs : List Char)
deriving Repr, DecidableEq

namespace Token

def tagName : Compiled :=
  Pattern.ofString "([a-zA-Z][^\\t\\n\\r\\f />\\x00]*)(?:\\s|/(?!>))*"

def valueNotation : String := "'[^']*'|\"[^\"]*\"|(?!['\"])[^>\\s]*"

/-- An attribute: its name, its value with the equals sign, and its value. -/
def attributePattern : Compiled := Pattern.ofString
  ("((?<=['\"\\s/])[^\\s/>][^\\s/=>]*)(\\s*=+\\s*(" ++ valueNotation ++ "))?(?:\\s|/(?!>))*")

def startTagBody : Compiled := Pattern.ofString
  ("<[a-zA-Z][^\\t\\n\\r\\f />\\x00]*(?:[\\s/]*(?:(?<=['\"\\s/])[^\\s/>][^\\s/=>]*(?:\\s*=+\\s*(?:" ++
    valueNotation ++ ")\\s*)?(?:\\s|/(?!>))*)*)?\\s*")

def plainEndTag : Compiled := Pattern.ofString "</\\s*([a-zA-Z][-.a-zA-Z0-9:_]*)\\s*>"

def numberedReference : Compiled :=
  Pattern.ofString "&#([0-9]+|[xX][0-9a-fA-F]+)[^0-9a-fA-F]"

def namedReference : Compiled :=
  Pattern.ofString "&([a-zA-Z][-.a-zA-Z0-9]*)[^a-zA-Z0-9]"

def commentEnd : Compiled := Pattern.ofString "--\\s*>"

def sectionEnd : Compiled := Pattern.ofString "\\]\\s*\\]\\s*>"

def conditionalEnd : Compiled := Pattern.ofString "\\]\\s*>"

def sectionName : Compiled := Pattern.ofString "([a-zA-Z][-_.a-zA-Z0-9]*)\\s*"

def rawElements : List String := ["script", "style"]

def rawEnd (name : String) : Compiled := Pattern.ofString ("(?i)</\\s*" ++ name ++ "\\s*>")

/-- The first match of a pattern at a place or behind it. -/
def search? (p : Compiled) (s : Subject) (place : Nat) : Option Pattern.Found :=
  searchFrom p s (s.size + 1 - place) place false

/-- The first place from one on with a character of some kind, looked for at a number of places. -/
def findFrom (s : Subject) (p : Char → Bool) : Nat → Nat → Option Nat
  | 0, _ => none
  | fuel + 1, i =>
    match s.at? i with
    | some c => if p c then some i else findFrom s p fuel (i + 1)
    | none => none

/-- The first place from one on with a character of some kind. -/
def find? (s : Subject) (p : Char → Bool) (i : Nat) : Option Nat := findFrom s p (s.size - i) i

def standsAt (s : Subject) (text : String) (i : Nat) : Bool :=
  s.slice i (i + text.length) = text.toList

/-- Tokens that were read and the place behind them. -/
abbrev Step := List Token × Nat

/-- The outcome of reading markup: a step, a need for more text, or a fault that makes all of the
text unreadable. -/
inductive Outcome where
  | step (tokens : List Token) (place : Nat)
  | incomplete
  | fault
deriving Repr

/-- The end of a start tag; none if it is not complete. A tag that is not closed properly ends in
front of the character that does not belong to it. -/
def startTagEnd? (s : Subject) (i : Nat) : Option Nat :=
  match matchAt? startTagBody s i false with
  | none => none
  | some found =>
    let j := found.stop
    match s.at? j with
    | none => none
    | some c =>
      if c = '>' then some (j + 1)
      else if c = '/' then (if s.at? (j + 1) = some '>' then some (j + 2) else none)
      else if isAsciiLetter c || c = '=' then none
      else if i < j then some j
      else some (i + 1)

/-- The value of an attribute without its quotes and with its references resolved. -/
def attributeValue (cs : List Char) : List Char :=
  let bare := match cs with
    | c :: rest =>
      if (c = '"' || c = '\'') && rest.getLast?.getD c = c then rest.dropLast else cs
    | [] => []
  resolveReferences bare

/-- The attributes from a place up to the end of a tag, and the place behind them. -/
def readAttributes (s : Subject) (stop : Nat) : Nat → Nat → List Attribute × Nat
  | 0, k => ([], k)
  | fuel + 1, k =>
    if stop ≤ k then ([], k)
    else match matchAt? attributePattern s k false with
      | none => ([], k)
      | some found =>
        let name := String.ofList (lower (found.text s 1))
        let value := match found.text s 2 with
          | [] => none
          | _ => some (String.ofList (attributeValue (found.text s 3)))
        let (rest, k) := readAttributes s stop fuel found.stop
        ((name, value) :: rest, k)

/-- Reads a start tag. What is left over inside of it makes it text. -/
def readStartTag (s : Subject) (i : Nat) : Outcome :=
  match startTagEnd? s i, matchAt? tagName s (i + 1) false with
  | some stop, some found =>
    let name := String.ofList (lower (found.text s 1))
    let (attributes, k) := readAttributes s stop (stop + 1) found.stop
    let rest := Text.trim (s.slice k stop)
    if rest = ['>'] then .step [startTag name attributes] stop
    else if rest = ['/', '>'] then .step [emptyTag name attributes] stop
    else .step [text (s.slice i stop)] stop
  | _, _ => .incomplete

def readBogusComment (s : Subject) (i : Nat) : Outcome :=
  match find? s (· == '>') (i + 2) with
  | some stop => .step [comment (s.slice (i + 2) stop)] (stop + 1)
  | none => .incomplete

/-- Reads an end tag. Inside a raw element only its own end tag counts. -/
def readEndTag (s : Subject) (raw : Option String) (i : Nat) : Outcome :=
  match find? s (· == '>') (i + 1) with
  | none => .incomplete
  | some close =>
    match matchAt? plainEndTag s i false with
    | some found =>
      let name := String.ofList (lower (found.text s 1))
      if raw.isSome && raw ≠ some name then .step [text (s.slice i (close + 1))] (close + 1)
      else .step [endTag name] (close + 1)
    | none =>
      if raw.isSome then .step [text (s.slice i (close + 1))] (close + 1)
      else match matchAt? tagName s (i + 2) false with
        | some found =>
          let name := String.ofList (lower (found.text s 1))
          .step [endTag name] ((find? s (· == '>') found.stop).getD close + 1)
        | none => if s.at? (i + 2) = some '>' then .step [] (i + 3) else readBogusComment s i

def readComment (s : Subject) (i : Nat) : Outcome :=
  match search? commentEnd s (i + 4) with
  | some found => .step [comment (s.slice (i + 4) found.start)] found.stop
  | none => .incomplete

/-- Reads a section in brackets. A section without a known name is a fault. -/
def readSection (s : Subject) (i : Nat) : Outcome :=
  if s.size ≤ i + 3 then .incomplete
  else match matchAt? sectionName s (i + 3) false with
    | none => .fault
    | some found =>
      let name := String.ofList ((found.text s 1).map Char.toLower)
      if found.stop = s.size then .incomplete
      else
        let close? :=
          if ["temp", "cdata", "ignore", "include", "rcdata"].contains name then some sectionEnd
          else if ["if", "else", "endif"].contains name then some conditionalEnd
          else none
        match close? with
        | none => .fault
        | some close =>
          match search? close s (i + 3) with
          | some found => .step [.bracketed (s.slice (i + 3) found.start)] found.stop
          | none => .incomplete

def readDeclaration (s : Subject) (i : Nat) : Outcome :=
  if s.at? (i + 2) = some '[' then readSection s i
  else if lower (s.slice i (i + 9)) = "<!doctype".toList then
    match find? s (· == '>') (i + 9) with
    | some stop => .step [doctype (s.slice (i + 2) stop)] (stop + 1)
    | none => .incomplete
  else readBogusComment s i

def readInstruction (s : Subject) (i : Nat) : Outcome :=
  match find? s (· == '>') (i + 2) with
  | some stop => .step [instruction (s.slice (i + 2) stop)] (stop + 1)
  | none => .incomplete

def readMarkup (s : Subject) (raw : Option String) (i : Nat) : Outcome :=
  match s.at? (i + 1) with
  | none => .incomplete
  | some c =>
    if isAsciiLetter c then readStartTag s i
    else if c = '/' then readEndTag s raw i
    else if standsAt s "<!--" i then readComment s i
    else if c = '?' then readInstruction s i
    else if c = '!' then readDeclaration s i
    else .step [text ['<']] (i + 1)

/-- The place behind markup that is never completed: behind the next closing bracket, in front of
the next opening one, or else one further. -/
def skipMarkup (s : Subject) (i : Nat) : Nat :=
  match find? s (· == '>') (i + 1) with
  | some k => k + 1
  | none => (find? s (· == '<') (i + 1)).getD (i + 1)

/-- Where reading stands: the place, and the raw element around it. -/
structure Spot where
  place : Nat := 0
  raw : Option String := none

def rawAfter (raw : Option String) (tokens : List Token) : Option String :=
  match tokens with
  | [startTag name _] => if rawElements.contains name then some name else raw
  | [endTag _] => none
  | _ => raw

/-- The outcome of reading a reference. A reference without an end stops the pass; one that is none
stands for itself. -/
inductive RefOutcome where
  | go (tokens : List Token) (place : Nat)
  | stop (tokens : List Token) (place : Nat)

/-- Drops the semicolon that ends a reference; another character stays. -/
def referenceEnd (s : Subject) (stop : Nat) : Nat :=
  if s.before? stop = some ';' then stop else stop - 1

def readAmpersand (s : Subject) (closing : Bool) (i : Nat) : RefOutcome :=
  if s.at? (i + 1) = some '#' then
    match matchAt? numberedReference s i false with
    | some found => .go [numbered (found.text s 1)] (referenceEnd s found.stop)
    | none =>
      if (find? s (· == ';') i).isSome then .stop [text (s.slice i (i + 2))] (i + 2)
      else .stop [] i
  else match matchAt? namedReference s i false with
    | some found => .go [named (found.text s 1)] (referenceEnd s found.stop)
    | none =>
      match s.at? (i + 1) with
      | none => .stop [] i
      | some c =>
        if isAsciiLetter c then
          -- A single letter at the very end loses its ampersand.
          if closing && i + 2 = s.size then .stop [] (i + 1) else .stop [] i
        else .go [text ['&']] (i + 1)

/-- One pass over a text from a spot on. It stops at markup that is not complete, unless the text is
known to be at its end. -/
def pass (s : Subject) (closing : Bool) : Nat → Spot → Option (List Token × Spot)
  | 0, spot => some ([], spot)
  | fuel + 1, spot =>
    let i := spot.place
    let next? := match spot.raw with
      | none => some ((find? s (fun c => c == '&' || c == '<') i).getD s.size)
      | some name => (search? (rawEnd name) s i).map (·.start)
    match (if s.size ≤ i then none else next?) with
    | none => some ([], spot)
    | some j =>
      let before := if i < j then [text (s.slice i j)] else []
      let go (tokens : List Token) (spot : Spot) : Option (List Token × Spot) :=
        (pass s closing fuel spot).map fun (rest, spot) => (before ++ tokens ++ rest, spot)
      match s.at? j with
      | none => some (before, { spot with place := j })
      | some c =>
        if c = '<' then
          match readMarkup s spot.raw j with
          | .fault => none
          | .step tokens k => go tokens ⟨k, rawAfter spot.raw tokens⟩
          | .incomplete =>
            if closing && j + 1 < s.size then
              let k := skipMarkup s j
              go [text (s.slice j k)] { spot with place := k }
            else some (before, { spot with place := j })
        else
          match readAmpersand s closing j with
          | .go tokens k => go tokens { spot with place := k }
          | .stop tokens k => some (before ++ tokens, { spot with place := k })

/-- Passes over a text that is not known to be at its end, one after another. -/
def openPasses (s : Subject) : Nat → Spot → Option (List Token × Spot)
  | 0, spot => some ([], spot)
  | n + 1, spot => do
    let (tokens, spot) ← pass s false (s.size + 1) spot
    let (more, spot) ← openPasses s n spot
    return (tokens ++ more, spot)

/-- The tokens of a text, after a number of passes in which it is not known to be at its end. What
is left in the end is text, unless it is the content of a raw element. None for a faulty text. -/
def scan? (passes : Nat) (cs : List Char) : Option (List Token) := do
  let s : Subject := ⟨cs.toArray⟩
  let (tokens, spot) ← openPasses s passes {}
  let (more, spot) ← pass s true (s.size + 1) spot
  let rest :=
    if spot.place < s.size && spot.raw.isNone then [text (s.slice spot.place s.size)] else []
  return tokens ++ more ++ rest

end Token

end NoteTemplate.Html
