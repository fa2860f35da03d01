/-!
The tokens of a template with their places in the text.
-/

namespace NoteTemplate

/-- A place in a text: the number of characters before it, its line and its column from one. -/
structure Position where
  offset : Nat
  line : Nat
  column : Nat
deriving Inhabited, Repr, DecidableEq

namespace Position

def start : Position := ⟨0, 1, 1⟩

def next (p : Position) (c : Char) : Position :=
  if c = '\n' then ⟨p.offset + 1, p.line + 1, 1⟩ else ⟨p.offset + 1, p.line, p.column + 1⟩

/-- The place behind a run of characters. -/
def advance (p : Position) (cs : List Char) : Position := cs.foldl next p

@[simp] theorem advance_nil (p : Position) : p.advance [] = p := rfl

@[simp] theorem advance_append (p : Position) (a b : List Char) :
    p.advance (a ++ b) = (p.advance a).advance b := List.foldl_append

end Position

namespace Token

/-- The kinds of tokens. -/
inductive Kind where
  | text
  | variableStart
  | variableEnd
  | tagStart
  | tagEnd
  | ifWord
  | elseifWord
  | elseWord
  | endifWord
  | forWord
  | inWord
  | endforWord
  | setWord
  | equal
  | notEqual
  | greater
  | less
  | atLeast
  | atMost
  | andWord
  | orWord
  | notWord
  | containsWord
  | fallback
  | assign
  | identifier
  | string
  | number
  | boolean
  | null
  | pipe
  | leftParen
  | rightParen
  | leftBracket
  | rightBracket
  | colon
  | comma
  | dot
  /-- A character that begins no token. -/
  | unknown
  /-- The quote of a string that is not closed. -/
  | openString
  | endOfText
deriving Inhabited, Repr, DecidableEq

def Kind.name : Kind → String
  | text => "TEXT"
  | variableStart => "VARIABLE_START"
  | variableEnd => "VARIABLE_END"
  | tagStart => "TAG_START"
  | tagEnd => "TAG_END"
  | ifWord => "IF"
  | elseifWord => "ELSEIF"
  | elseWord => "ELSE"
  | endifWord => "ENDIF"
  | forWord => "FOR"
  | inWord => "IN"
  | endforWord => "ENDFOR"
  | setWord => "SET"
  | equal => "EQ"
  | notEqual => "NEQ"
  | greater => "GT"
  | less => "LT"
  | atLeast => "GTE"
  | atMost => "LTE"
  | andWord => "AND"
  | orWord => "OR"
  | notWord => "NOT"
  | containsWord => "CONTAINS"
  | fallback => "NULLISH"
  | assign => "ASSIGN"
  | identifier => "IDENTIFIER"
  | string => "STRING"
  | number => "NUMBER"
  | boolean => "BOOLEAN"
  | null => "NULL"
  | pipe => "PIPE"
  | leftParen => "LPAREN"
  | rightParen => "RPAREN"
  | leftBracket => "LBRACKET"
  | rightBracket => "RBRACKET"
  | colon => "COLON"
  | comma => "COMMA"
  | dot => "DOT"
  | unknown => "UNKNOWN"
  | openString => "UNTERMINATED_STRING"
  | endOfText => "EOF"

end Token

/-- A token: its kind, its value, the place of its first character, and for the delimiters of
expressions and tags whether they ask for blanks beside them to be cut. -/
structure Token where
  kind : Token.Kind
  value : String
  position : Position
  trimLeft : Bool := false
  trimRight : Bool := false
deriving Inhabited, Repr, DecidableEq

end NoteTemplate
