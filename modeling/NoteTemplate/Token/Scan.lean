import NoteTemplate.Fault
import NoteTemplate.Text.Blank
import NoteTemplate.Text.Case
import NoteTemplate.Text.Digit
import NoteTemplate.Text.Search
import NoteTemplate.Token

/-!
Cutting a template into tokens. The scanner is in one of three modes: plain text, the inside of an
expression in double braces and the inside of a tag. Every lexeme takes at least one character, so
the scan ends; what it cannot read it passes on as tokens of its own for the parser to report.
-/

namespace NoteTemplate.Token

open NoteTemplate.Text

/-- What surrounds the scanner. -/
inductive Mode where
  | text
  | variable
  | tag
deriving Inhabited, Repr, DecidableEq

/-- A token found at the front of a text, the number of characters that it takes, and the mode
behind it. -/
structure Lexeme where
  kind : Kind
  value : String
  size : Nat
  mode : Mode
  trimLeft : Bool := false
  trimRight : Bool := false
  size_pos : 0 < size := by omega

def openVariable : List Char := ['\x7b', '\x7b']

def openTag : List Char := ['\x7b', '%']

def opensHere (cs : List Char) : Bool := startsWith openVariable cs || startsWith openTag cs

def plainText : List Char → List Char
  | [] => []
  | c :: rest => if opensHere (c :: rest) then [] else c :: plainText rest

/-- The opening delimiter at the front of a text. A dash behind it belongs to it. -/
def openingLexeme (cs : List Char) : Lexeme :=
  let trim := startsWith ['-'] (cs.drop 2)
  let size := if trim then 3 else 2
  let value := String.ofList (cs.take size)
  have : 0 < size := by simp only [size]; split <;> omega
  if startsWith openVariable cs then ⟨.variableStart, value, size, .variable, trim, false, this⟩
  else ⟨.tagStart, value, size, .tag, trim, false, this⟩

def closing? (mode : Mode) (cs : List Char) : Option Lexeme :=
  let kind := if mode = .variable then Kind.variableEnd else Kind.tagEnd
  let mark := if mode = .variable then '\x7d' else '%'
  if startsWith ['-', mark, '\x7d'] cs then
    some ⟨kind, String.ofList ['-', mark, '\x7d'], 3, .text, false, true, by omega⟩
  else if startsWith [mark, '\x7d'] cs then
    some ⟨kind, String.ofList [mark, '\x7d'], 2, .text, false, false, by omega⟩
  else none

def endsHere (cs : List Char) : Bool :=
  startsWith ['\x7d', '\x7d'] cs || startsWith ['%', '\x7d'] cs

/-- The characters of a string behind its opening quote, as written. The string ends at the quote,
but no string reaches over the end of an expression or a tag. -/
def stringBody (quote : Char) : List Char → List Char
  | [] => []
  | c :: rest =>
    if c = quote || endsHere (c :: rest) then []
    else if c = '\\' then
      match rest with
      | e :: rest => c :: e :: stringBody quote rest
      | [] => [c]
    else c :: stringBody quote rest

/-- The characters of an argument that begins with a backslash, as written. -/
def argumentBody : List Char → List Char
  | [] => []
  | c :: rest =>
    if c = '|' || c = '%' || c = '\x7d' || c = ')' then []
    else if c = '\\' then
      match rest with
      | e :: rest => c :: e :: argumentBody rest
      | [] => [c]
    else c :: argumentBody rest

/-- The character that a backslash and another one stand for. -/
def unescapeChar (c : Char) : Char :=
  if c = 'n' then '\n' else if c = 't' then '\t' else if c = 'r' then '\r' else c

/-- The text that escapes stand for. A backslash at the very end stands for itself. -/
def unescape : List Char → List Char
  | [] => []
  | c :: rest =>
    if c = '\\' then
      match rest with
      | e :: rest => unescapeChar e :: unescape rest
      | [] => [c]
    else c :: unescape rest

def stringLexeme (mode : Mode) (quote : Char) (rest : List Char) : Lexeme :=
  let body := stringBody quote rest
  if startsWith [quote] (rest.drop body.length) then
    ⟨.string, String.ofList (unescape body), body.length + 2, mode, false, false, by omega⟩
  else ⟨.openString, String.ofList [quote], body.length + 1, mode, false, false, by omega⟩

def argumentLexeme (mode : Mode) (rest : List Char) : Lexeme :=
  let body := argumentBody ('\\' :: rest)
  ⟨.string, String.ofList (unescape body), body.length - 1 + 1, mode, false, false, by omega⟩

/-- The digits, and a point with more digits, at the front of a text. -/
def numberTail (cs : List Char) : List Char :=
  let whole := cs.takeWhile isDecimalDigit
  match cs.dropWhile isDecimalDigit with
  | '.' :: rest => whole ++ '.' :: rest.takeWhile isDecimalDigit
  | _ => whole

def numberLexeme (mode : Mode) (c : Char) (rest : List Char) : Except Fault Lexeme :=
  let found := c :: numberTail rest
  let lexeme : Lexeme :=
    ⟨.number, String.ofList found, found.length, mode, false, false, by simp [found]⟩
  if c = '-' then
    match rest with
    | d :: _ => if isDecimalDigit d then .ok lexeme else .error .strayDigit
    | [] => .error .strayDigit
  else if isDecimalDigit c then .ok lexeme
  else .error .strayDigit

def isNameStart (c : Char) : Bool := isAsciiLetter c || c == '_' || c == '@'

def isNameChar (c : Char) : Bool :=
  isAsciiLetter c || isAsciiDigit c || c == '_' || c == '@' || c == '-' || c == '.'

/-- The characters of a name. A dash in front of a closing delimiter belongs to the delimiter. -/
def nameTail : List Char → List Char
  | [] => []
  | c :: rest =>
    if !isNameChar c then []
    else if c = '-' && (startsWith ['\x7d'] rest || startsWith ['%'] rest) then []
    else c :: nameTail rest

/-- Where the scanner stands in a page selector: the depth of open brackets and parentheses and the
quote of an open string. -/
structure SelectorState where
  brackets : Nat := 0
  parens : Nat := 0
  quote : Option Char := none

def SelectorState.atTop (s : SelectorState) : Bool :=
  s.quote.isNone && s.brackets == 0 && s.parens == 0

/-- Whether a page selector ends at the front of a text. The end of an expression or a tag ends even
a selector with something open. -/
def SelectorState.stopsAt (s : SelectorState) (cs : List Char) : Bool :=
  endsHere cs ||
    (s.atTop &&
      (startsWith ['|'] cs || startsWith ['-', '%'] cs || startsWith ['-', '\x7d'] cs ||
        startsWith ['\x7d'] cs))

/-- Whether a character opens or closes a string. -/
def isQuote (c : Char) : Bool := c == '"' || c == '\''

def SelectorState.next (s : SelectorState) (c : Char) : SelectorState :=
  match s.quote with
  | some quote => if c = quote then { s with quote := none } else s
  | none =>
    if isQuote c then { s with quote := some c }
    else if c = '[' then { s with brackets := s.brackets + 1 }
    else if c = ']' then { s with brackets := s.brackets - 1 }
    else if c = '(' then { s with parens := s.parens + 1 }
    else if c = ')' then { s with parens := s.parens - 1 }
    else s

/-- Whether a backslash takes the next character with it: any one inside a string, a quote outside
of one. -/
def SelectorState.takesAlong (s : SelectorState) (rest : List Char) : Bool :=
  s.quote.isSome || (rest.head?.map isQuote).getD false

/-- The characters of a page selector, as written. -/
def selectorBody (s : SelectorState) : List Char → List Char
  | [] => []
  | c :: rest =>
    if s.stopsAt (c :: rest) then []
    else if c = '\\' && s.takesAlong rest then
      match rest with
      | e :: rest => c :: e :: selectorBody s rest
      | [] => [c]
    else c :: selectorBody (s.next c) rest

/-- The words of the language, in lower case. -/
def keyword? (word : String) : Option Kind :=
  [("if", .ifWord), ("elseif", .elseifWord), ("else", .elseWord), ("endif", .endifWord),
    ("for", .forWord), ("in", .inWord), ("endfor", .endforWord), ("set", .setWord),
    ("and", .andWord), ("or", .orWord), ("not", .notWord), ("contains", .containsWord),
    ("true", .boolean), ("false", .boolean), ("null", .null)].lookup word

/-- A name at its first character: a word of the language in any case, a page selector, or an
identifier. -/
def nameLexeme (mode : Mode) (c : Char) (rest : List Char) : Lexeme :=
  let name := String.ofList (c :: nameTail rest)
  let behind := rest.drop (nameTail rest).length
  if (name == "selector" || name == "selectorHtml") && startsWith [':'] behind then
    let body := selectorBody {} (behind.drop 1)
    let value := name ++ ":" ++ String.ofList (trimEnd body)
    ⟨.identifier, value, (nameTail rest).length + 2 + body.length, mode, false, false, by omega⟩
  else
    ⟨(keyword? (toLower name)).getD .identifier, name, (nameTail rest).length + 1, mode, false,
      false, by omega⟩

def pairKind? (a b : Char) : Option Kind :=
  if a = '=' && b = '=' then some .equal
  else if a = '!' && b = '=' then some .notEqual
  else if a = '>' && b = '=' then some .atLeast
  else if a = '<' && b = '=' then some .atMost
  else if a = '&' && b = '&' then some .andWord
  else if a = '|' && b = '|' then some .orWord
  else if a = '?' && b = '?' then some .fallback
  else none

def singleKind? (c : Char) : Option Kind :=
  if c = '>' then some .greater
  else if c = '<' then some .less
  else if c = '!' then some .notWord
  else if c = '=' then some .assign
  else if c = '|' then some .pipe
  else if c = '(' then some .leftParen
  else if c = ')' then some .rightParen
  else if c = '[' then some .leftBracket
  else if c = ']' then some .rightBracket
  else if c = ':' then some .colon
  else if c = ',' then some .comma
  else if c = '.' then some .dot
  else none

/-- The operator, name or lone character at the front of a text. -/
def markLexeme (mode : Mode) (c : Char) (rest : List Char) : Lexeme :=
  match rest.head?.bind (pairKind? c) with
  | some kind => ⟨kind, String.ofList (c :: rest.take 1), 2, mode, false, false, by omega⟩
  | none =>
    match singleKind? c with
    | some kind => ⟨kind, String.ofList [c], 1, mode, false, false, by omega⟩
    | none =>
      if isNameStart c then nameLexeme mode c rest
      else if c = '\\' then argumentLexeme mode rest
      else ⟨.unknown, String.ofList [c], 1, mode, false, false, by omega⟩

def startsNumber (c : Char) (rest : List Char) : Bool :=
  isDigit c || (c = '-' && (rest.head?.map isDigit).getD false)

/-- The lexeme at the front of a text inside an expression or a tag, where no blank stands. -/
def innerLexeme (mode : Mode) (c : Char) (rest : List Char) : Except Fault Lexeme :=
  match closing? mode (c :: rest) with
  | some lexeme => .ok lexeme
  | none =>
    if opensHere (c :: rest) then .ok (openingLexeme (c :: rest))
    else if isQuote c then .ok (stringLexeme mode c rest)
    else if startsNumber c rest then numberLexeme mode c rest
    else .ok (markLexeme mode c rest)

def lexeme (mode : Mode) (c : Char) (rest : List Char) : Except Fault Lexeme :=
  if mode = .text then
    if opensHere (c :: rest) then .ok (openingLexeme (c :: rest))
    else
      let text := c :: plainText rest
      .ok ⟨.text, String.ofList text, text.length, .text, false, false, by simp [text]⟩
  else innerLexeme mode c rest

/-- Blanks between the tokens of an expression. -/
def isGap (c : Char) : Bool := c == ' ' || c == '\t' || c == '\r' || c == '\n'

/-- The blanks in front of the next token; plain text has none. -/
def gap (mode : Mode) (cs : List Char) : List Char :=
  if mode = .text then [] else cs.takeWhile isGap

/-- The tokens of a text that begins at a place of the template. -/
def scanFrom (mode : Mode) (position : Position) (cs : List Char) : Except Fault (List Token) :=
  let blanks := gap mode cs
  let start := position.advance blanks
  match h : cs.drop blanks.length with
  | [] => .ok [⟨.endOfText, "", start, false, false⟩]
  | c :: rest => do
    let found ← lexeme mode c rest
    have : rest.length + 1 - found.size < cs.length := by
      have := found.size_pos
      have := congrArg List.length h
      simp only [List.length_drop, List.length_cons] at this
      omega
    let tokens ← scanFrom found.mode (start.advance ((c :: rest).take found.size))
      ((c :: rest).drop found.size)
    return ⟨found.kind, found.value, start, found.trimLeft, found.trimRight⟩ :: tokens
termination_by cs.length

/-- The tokens of a template. The last one marks the end of the text. -/
def scan (text : String) : Except Fault (List Token) := scanFrom .text Position.start text.toList

end NoteTemplate.Token
