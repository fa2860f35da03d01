/-!
Line breaks, and the blanks that template delimiters cut beside them: blanks of a line and at most
one line break.
-/

namespace NoteTemplate.Text

/-- Every line break as a line feed, whether it is written with a carriage return or without. -/
def unifyBreaks : List Char → List Char
  | '\r' :: '\n' :: rest => '\n' :: unifyBreaks rest
  | '\r' :: rest => '\n' :: unifyBreaks rest
  | c :: rest => c :: unifyBreaks rest
  | [] => []

def isInlineBlank (c : Char) : Bool := c == ' ' || c == '\t'

def dropLineBreak? : List Char → Option (List Char)
  | '\n' :: rest => some rest
  | '\r' :: '\n' :: rest => some rest
  | _ => none

def cutMarginStart (cs : List Char) : List Char :=
  let rest := cs.dropWhile isInlineBlank
  (dropLineBreak? rest).getD rest

/-- Cut leading blanks and the line break behind them, or nothing when there is no line break. -/
def cutLineEnd (cs : List Char) : List Char :=
  (dropLineBreak? (cs.dropWhile isInlineBlank)).getD cs

def dropLineBreakBackwards : List Char → List Char
  | '\n' :: '\r' :: before => before
  | '\n' :: before => before
  | before => before

/-- Cut trailing blanks, a line break before them and the blanks before that. -/
def cutMarginEnd (cs : List Char) : List Char :=
  let before := cs.reverse.dropWhile isInlineBlank
  ((dropLineBreakBackwards before).dropWhile isInlineBlank).reverse

end NoteTemplate.Text
