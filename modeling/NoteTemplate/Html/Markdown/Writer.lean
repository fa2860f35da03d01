import NoteTemplate.Assoc
import NoteTemplate.Pattern.Reader
import NoteTemplate.Text.Search

/-!
The writer of Markdown. It keeps blanks and line breaks back until the text behind them is known,
and writes the marks of quotations and code in front of each line.
-/

namespace NoteTemplate.Html.Markdown

open NoteTemplate.Text

/-- A list whose items are being written, with the number of its last item. -/
structure Listing where
  ordered : Bool
  number : Int
deriving Repr, DecidableEq

/-- Where a link leads to. -/
structure Target where
  address : List Char
  title : List Char
deriving Repr, DecidableEq

/-- What a page has been written so far, and what is around the next text. -/
structure Writer where
  /-- The address of the page. -/
  base : List Char := []
  /-- The pieces that are written, the last first. -/
  pieces : List (List Char) := []
  /-- Whether the last text that was written ends a line. -/
  endsLine : Bool := false
  /-- How many hidden elements are open; nothing is written inside of them, nor behind an end tag
  too many. -/
  hidden : Int := 0
  /-- The line breaks to be written in front of the next text. -/
  breaks : Nat := 0
  /-- What stands in front of these line breaks. -/
  breakMark : List Char := []
  /-- Whether a blank stands in front of the next text. -/
  space : Bool := false
  /-- Whether the next text stands directly behind a mark at the start of a line. -/
  atStart : Bool := true
  /-- The open links, the innermost first; links inside of the page lead nowhere. -/
  links : List (Option Target) := []
  /-- The address of a link that has no label yet. -/
  unlabelled : Option (List Char) := none
  /-- Whether a link is still without any text. -/
  linkEmpty : Bool := false
  /-- The open lists, the innermost first. -/
  lists : List Listing := []
  /-- Whether the last tag was one of a list. -/
  afterList : Bool := false
  /-- How many quotations are open. -/
  quotations : Int := 0
  /-- Whether blanks and line breaks count. -/
  preformatted : Bool := false
  /-- Whether nothing has been written yet of what is preformatted. -/
  preformattedStarts : Bool := false
  inCode : Bool := false
  /-- Whether the next text is the first one behind the opening of stressed text. -/
  stressOpens : Bool := false
  /-- Whether the last text was the first one behind such an opening. -/
  stressOpened : Bool := false
  /-- The last text. -/
  lastText : List Char := []
  /-- The last tag. -/
  lastTag : String := ""
  /-- The text of the open abbreviation. -/
  abbreviation : Option (List Char) := none
  /-- What the open abbreviation stands for. -/
  abbreviated : Option (List Char) := none
  /-- The abbreviations to be explained in the end. -/
  abbreviations : Assoc (List Char) (List Char) := []
  /-- Whether the next row is the head of a table. -/
  headRow : Bool := false
  /-- Whether a cell stands in front of the next one. -/
  inRow : Bool := false
  /-- The number of cells in the row. -/
  cells : Nat := 0

/-- How a piece of text is written. -/
inductive Manner where
  /-- As it stands. -/
  | mark
  /-- As running text, in which blanks shrink. -/
  | prose
  /-- As the mark of a quotation. -/
  | quotation
  /-- As the end of the page. -/
  | last
deriving Repr, DecidableEq

def squeezeBlanks : List Char → List Char
  | [] => []
  | c :: rest =>
    if isBlank c then
      match squeezeBlanks rest with
      | ' ' :: rest => ' ' :: rest
      | rest => ' ' :: rest
    else c :: squeezeBlanks rest

/-- The characters that have a meaning in the text of a link, with a backslash in front. -/
def escapeLink (cs : List Char) : List Char :=
  cs.flatMap fun c =>
    if c = '\\' || c = '[' || c = ']' || c = '(' || c = ')' then ['\\', c] else [c]

def numberedStart : Pattern.Compiled := Pattern.ofString "(?m)^(\\s*\\d+)(\\.)(?=\\s)"

/-- The start of a line that would be read as an item with a plus sign. -/
def plusStart : Pattern.Compiled := Pattern.ofString "(?m)^(\\s*)(\\+)(?=\\s)"

/-- The start of a line that would be read as an item with a hyphen, or as a rule. -/
def hyphenStart : Pattern.Compiled := Pattern.ofString "(?m)^(\\s*)(-)(?=\\s|\\-)"

def protection : Pattern.Compiled :=
  Pattern.ofString "(\\\\)(?=[\\\\\x60*_\x7b\x7d\\[\\]()#+\\-.!])"

/-- Puts a backslash between the two groups of every match. -/
def escapeMatches (cs : List Char) (p : Pattern.Compiled) : List Char :=
  Pattern.replace p (fun s found => found.text s 1 ++ '\\' :: found.text s 2) cs

/-- The text in which each backslash stands for itself and no line begins with the mark of an item. -/
def escapeProse (cs : List Char) : List Char :=
  let cs := Pattern.replace protection (fun s found => '\\' :: found.text s 1) cs
  [numberedStart, plusStart, hyphenStart].foldl escapeMatches cs

namespace Writer

def put (w : Writer) (cs : List Char) : Writer :=
  { w with
    pieces := cs :: w.pieces
    endsLine := match cs.getLast? with
      | some c => c == '\n'
      | none => w.endsLine }

def breakLine (w : Writer) : Writer := if w.breaks = 0 then { w with breaks := 1 } else w

def breakParagraph (w : Writer) : Writer := { w with breaks := 2 }

/-- The next text stands behind a forced line break. -/
def breakRow (w : Writer) : Writer := { w.breakLine with breakMark := [' ', ' '] }

def margin (w : Writer) (manner : Manner) (cs : List Char) : List Char :=
  let quotes := List.replicate w.quotations.toNat '>'
  let gap := if manner = .quotation && cs.head? = some '>' || w.quotations = 0 then [] else [' ']
  let indent := if w.preformatted then
      List.replicate (4 * (if w.lists.isEmpty then 1 else w.lists.length)) ' '
    else []
  quotes ++ gap ++ indent

/-- Writes what is held back and then a text. -/
def write (w : Writer) (manner : Manner) (cs : List Char) : Writer :=
  let begins := w.preformattedStarts
  let cs := if begins && cs.head? ≠ some '\n' && !startsWith ['\r', '\n'] cs then '\n' :: cs else cs
  let margin := w.margin manner cs
  let cs := if w.preformatted then
      cs.flatMap fun c => if c = '\n' then c :: margin else [c]
    else cs
  let cs := if begins && !w.lists.isEmpty then cs.dropWhile (· == '\n') else cs
  let w : Writer := { w with preformattedStarts := false }
  let w : Writer := if w.atStart then { w with space := false, breaks := 0, atStart := false } else w
  let w : Writer := if manner = .last then { w.put ['\n'] with breaks := 0, space := false } else w
  let w : Writer := if w.breaks = 0 then w else
    { w.put (List.replicate w.breaks (w.breakMark ++ '\n' :: margin)).flatten with
      space := false, breakMark := [] }
  let w : Writer := if w.space && !w.endsLine then w.put [' '] else w
  let w : Writer := { w with space := false }
  let w : Writer := if manner = .last then
      w.abbreviations.foldl (fun w (short, long) =>
        w.put ("  *[".toList ++ short ++ "]: ".toList ++ long ++ ['\n'])) w
    else w
  { w with breaks := 0 }.put cs

/-- Writes a text, unless it is hidden or there is nothing to write. -/
def emit (w : Writer) (manner : Manner) (cs : List Char) : Writer :=
  let w := { w with abbreviation := w.abbreviation.map (· ++ cs) }
  if w.hidden ≠ 0 then w
  else if manner = .prose && !w.preformatted then
    match squeezeBlanks cs with
    | [] => w
    | ' ' :: rest =>
      let w := { w with space := true }
      if rest.isEmpty then w else w.write manner rest
    | cs => w.write manner cs
  else if cs.isEmpty && (manner = .mark || manner = .prose) then w
  else w.write manner cs

def mark (w : Writer) (s : String) : Writer := w.emit .mark s.toList

def openLabel (w : Writer) : Writer :=
  { w.mark "[" with unlabelled := none, linkEmpty := false }

/-- Writes a text, of which only what was written by the author is escaped. -/
def addProse (w : Writer) (written : Bool) (cs : List Char) : Writer :=
  let cs := if written && !w.inCode && !w.preformatted then escapeProse cs else cs
  { w with lastText := cs }.emit .prose cs

/-- Whether an address begins with the name of a protocol. -/
def isAbsolute (cs : List Char) : Bool :=
  let scheme := cs.takeWhile fun c => isAsciiLetter c || c == '+'
  !scheme.isEmpty && startsWith "://".toList (cs.drop scheme.length)

def headingLevel? (name : String) : Option Nat :=
  match name.toList with
  | ['h', c] => if '1' ≤ c && c ≤ '9' then some (c.toNat - 48) else none
  | _ => none

/-- Whether a text that follows stressed text has to be kept apart from it. -/
def needsGap (w : Writer) (cs : List Char) : Bool :=
  (cs.head?.map fun c => !isBlank c && !"][()\x7b\x7d.!?".toList.contains c).getD false &&
    (headingLevel? w.lastTag).isNone && not (["a", "code", "pre"].contains w.lastTag)

def settleStress (w : Writer) (cs : List Char) : Writer × List Char :=
  if w.stressOpens then ({ w with stressOpens := false, stressOpened := true }, trim cs)
  else if w.stressOpened then
    ({ w with stressOpened := false }, if w.needsGap cs then ' ' :: cs else cs)
  else (w, cs)

/-- Adds a text. A link whose label is its address is written in angle brackets. -/
def addText (w : Writer) (written : Bool) (cs : List Char) : Writer :=
  if cs.isEmpty then w
  else
    let (w, cs) := w.settleStress cs
    match w.unlabelled with
    | none => w.addProse written cs
    | some address =>
      if address = cs && isAbsolute address then
        { w.emit .mark ('<' :: (cs ++ ['>'])) with linkEmpty := false }
      else w.openLabel.addProse written cs

/-- Opens stressed text with a mark, which stands apart from some characters. -/
def openStress (w : Writer) (mark : String) (apart : Char → Bool) : Writer :=
  let w := match w.lastText.getLast? with
    | some c =>
      if apart c then { w with lastText := w.lastText ++ [' '] }.mark (" " ++ mark) else w.mark mark
    | none => w.mark mark
  { w with stressOpens := true }

end Writer

end NoteTemplate.Html.Markdown
