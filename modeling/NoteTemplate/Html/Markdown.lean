import NoteTemplate.Decimal.Reader
import NoteTemplate.Html.Markdown.Writer
import NoteTemplate.Html.Token
import NoteTemplate.Url
import NoteTemplate.Value.Json.Writer

/-!
Pages of HTML as Markdown. Each tag has a role, and each role a way of writing its start and its
end.
-/

namespace NoteTemplate.Html.Markdown

open NoteTemplate.Text
open Writer (headingLevel?)

/-- What the elements of some names are written as. -/
inductive Role where
  | heading (level : Nat)
  | block
  | lineBreak
  | rule
  | hidden
  | body
  | quotation
  | emphasis
  | strong
  | struck
  | code
  | abbreviation
  | quotes
  | link
  | image
  | definitions
  | term
  | definition
  | list (ordered : Bool)
  | item
  | table
  | row
  | cell
  | preformatted
  | other
deriving Repr, DecidableEq

def roles : List (String × Role) := [
  ("p", .block), ("div", .block), ("br", .lineBreak), ("hr", .rule), ("head", .hidden),
  ("style", .hidden), ("script", .hidden), ("body", .body), ("blockquote", .quotation),
  ("em", .emphasis), ("i", .emphasis), ("u", .emphasis), ("strong", .strong), ("b", .strong),
  ("del", .struck), ("strike", .struck), ("s", .struck), ("kbd", .code), ("code", .code),
  ("tt", .code), ("abbr", .abbreviation), ("q", .quotes), ("a", .link), ("img", .image),
  ("dl", .definitions), ("dt", .term), ("dd", .definition), ("ul", .list false),
  ("ol", .list true), ("li", .item), ("table", .table), ("tr", .row), ("td", .cell),
  ("th", .cell), ("pre", .preformatted)]

def Role.ofName (name : String) : Role :=
  match headingLevel? name with
  | some level => .heading level
  | none => (Assoc.get? roles name).getD .other

/-- The elements that do not open the label of a link. -/
def unlabelling : List String := ["p", "div", "style", "dl", "dt", "img"]

def isAsciiMark (c : Char) : Bool :=
  c.toNat ≤ 126 && (' ' ≤ c || (9 ≤ c.toNat && c.toNat ≤ 13)) && !isAsciiLetter c && !isAsciiDigit c

namespace Writer

/-- The indentation of an item under its lists, of which the outermost stands first. A plain list
inside a numbered one stands deeper. -/
def itemIndent (inOrdered : Bool) : List Listing → List Char
  | [] => []
  | l :: rest =>
    List.replicate (if inOrdered && !l.ordered then 3 else 2) ' ' ++ itemIndent l.ordered rest

def startItem (w : Writer) : Writer :=
  let w := w.emit .mark (itemIndent false w.lists.reverse)
  let w := match w.lists with
    | ⟨true, n⟩ :: rest =>
      { w with lists := ⟨true, n + 1⟩ :: rest }.mark (Value.Json.intText (n + 1) ++ ". ")
    | _ => w.mark "* "
  { w with atStart := true }

/-- The number in front of the first item of a list; none for a start without a number at all. -/
def listNumber? (attributes : List Attribute) : Option Int :=
  match Assoc.get? (Assoc.ofPairs attributes) "start" with
  | none => some 0
  | some none => none
  | some (some s) => some (((Decimal.readInt? s).map (· - 1)).getD 0)

def startList? (w : Writer) (ordered : Bool) (attributes : List Attribute) : Option Writer :=
  (listNumber? attributes).map fun n =>
    let w := if w.lists.isEmpty && !w.afterList then w.breakParagraph else w
    { w with lists := ⟨ordered, n⟩ :: w.lists, afterList := true }

def endList (w : Writer) : Writer :=
  let w := if w.lists.isEmpty && !w.afterList then w.breakParagraph else w
  let w := match w.lists with
    | [] => w
    | [_] => { w with lists := [] }.mark "\n"
    | _ :: rest => { w with lists := rest }
  { w with afterList := true }

/-- Starts a heading. Inside of a link its mark stands in front of the label. -/
def startHeading (w : Writer) (level : Nat) : Writer :=
  let mark := String.ofList (List.replicate level '#') ++ " "
  if w.links.isEmpty then w.breakParagraph.mark mark
  else match w.pieces with
    | ['['] :: rest => ({ w with pieces := rest, space := false }.mark mark).mark "["
    | _ => w

/-- Opens a link. Links inside of the page are no links. -/
def startLink (w : Writer) (attributes : List Attribute) : Writer :=
  let attributes := Assoc.ofPairs attributes
  let nowhere := { w with links := none :: w.links }
  match Assoc.get? attributes "href" with
  | some (some address) =>
    if startsWith ['#'] address.toList then nowhere
    else
      let title := ((Assoc.get? attributes "title").join.getD "").toList
      { w with
        links := some ⟨address.toList, title⟩ :: w.links
        unlabelled := some address.toList
        linkEmpty := true }
  | _ => nowhere

def endLabel? (w : Writer) (target : Target) : Option Writer :=
  let w := if w.linkEmpty then w.openLabel else w
  (Url.join? w.base target.address).map fun address =>
    let title := escapeLink target.title
    let note := if title.all isBlank then [] else [' ', '"'] ++ title ++ ['"']
    { w with breaks := 0 }.emit .mark ("](".toList ++ escapeLink address ++ note ++ [')'])

def endLink? (w : Writer) : Option Writer :=
  match w.links with
  | [] => some w
  | target :: rest =>
    let w := { w with links := rest }
    if (w.unlabelled.any fun address => !address.isEmpty) && !w.linkEmpty then
      some { w with unlabelled := none }
    else match target with
      | none => some w
      | some target => w.endLabel? target

def addImage? (w : Writer) (attributes : List Attribute) : Option Writer :=
  let attributes := Assoc.ofPairs attributes
  match Assoc.get? attributes "src" with
  | some (some address) =>
    let w := if w.unlabelled.isSome then w.openLabel else w
    let description := escapeLink ((Assoc.get? attributes "alt").join.getD "").toList
    let w := w.emit .mark (['!', '['] ++ description ++ [']'])
    (Url.join? w.base address.toList).map fun address =>
      w.emit .mark ('(' :: (escapeLink address ++ [')']))
  | _ => some w

def startCell (w : Writer) : Writer :=
  let w := if w.inRow then w.mark "| " else w
  { w with inRow := true, cells := w.cells + 1 }

/-- Ends a row. A line stands below the first one of a table. -/
def endRow (w : Writer) : Writer :=
  let w := { w with inRow := false }.breakRow
  if w.headRow then
    let rule := joinWith "|" (List.replicate w.cells "---")
    { (w.mark rule).breakRow with headRow := false }
  else w

def startAbbreviation (w : Writer) (attributes : List Attribute) : Writer :=
  let title := (Assoc.get? (Assoc.ofPairs attributes) "title").join
  { w with abbreviation := some [], abbreviated := title.map String.toList }

/-- Ends an abbreviation, which is explained if it has a title. -/
def endAbbreviation (w : Writer) : Writer :=
  let w := match w.abbreviated, w.abbreviation with
    | some long, some short => { w with abbreviations := Assoc.set w.abbreviations short long }
    | _, _ => w
  { w with abbreviation := none, abbreviated := none }

/-- Starts or ends a block, which is a paragraph of its own outside of links and tables. -/
def block (w : Writer) : Writer :=
  if w.links.isEmpty && !w.inRow then w.breakParagraph else w

def code (w : Writer) : Writer :=
  if w.preformatted then w
  else
    let w := w.mark "\x60"
    { w with inCode := !w.inCode }

def startRole? (w : Writer) (role : Role) (attributes : List Attribute) : Option Writer :=
  match role with
  | .heading level => some (w.startHeading level)
  | .block => some w.block
  | .lineBreak => some (w.mark (if 0 < w.quotations then "  \n> " else "  \n"))
  | .rule => some (w.breakParagraph.mark "* * *").breakParagraph
  | .hidden => some { w with hidden := w.hidden + 1 }
  | .body => some { w with hidden := 0 }
  | .quotation =>
    let w := w.breakParagraph.emit .quotation ['>', ' ']
    some { w with atStart := true, quotations := w.quotations + 1 }
  | .emphasis => some (w.openStress "_" fun c => !isAsciiMark c)
  | .strong => some (w.openStress "**" (· == '*'))
  | .struck => some (w.openStress "~~" (· == '~'))
  | .code => some w.code
  | .abbreviation => some (w.startAbbreviation attributes)
  | .quotes => some (w.mark "\"")
  | .link => some (w.startLink attributes)
  | .image => w.addImage? attributes
  | .definitions => some w.breakParagraph
  | .definition => some (w.mark "    ")
  | .list ordered => w.startList? ordered attributes
  | .item => some w.breakLine.startItem
  | .table => some { w with headRow := true }
  | .row => some { w with cells := 0 }
  | .cell => some w.startCell
  | .preformatted => some { w with preformattedStarts := true, preformatted := true, breaks := 2 }
  | .term | .other => some w

def endRole? (w : Writer) (role : Role) : Option Writer :=
  match role with
  | .heading _ => some { w with breaks := if w.links.isEmpty then 2 else 0 }
  | .block => some w.block
  | .hidden => some { w with hidden := w.hidden - 1 }
  | .body => some { w with hidden := 0 }
  | .quotation => some { w with quotations := w.quotations - 1 }.breakParagraph
  | .emphasis => some (w.mark "_")
  | .strong => some (w.mark "**")
  | .struck => some (w.mark "~~")
  | .code => some w.code
  | .abbreviation => some w.endAbbreviation
  | .quotes => some (w.mark "\"")
  | .link => w.endLink?
  | .term | .definition | .item => some w.breakLine
  | .list _ => some w.endList
  | .row => some w.endRow
  | .preformatted => some { w with preformatted := false }.breakParagraph
  | .lineBreak | .rule | .image | .definitions | .table | .cell | .other => some w

def keepsList : Role → Bool
  | .list _ => true
  | _ => false

/-- The start tag of an element. Inside of a link without a label most elements open it. -/
def startTag? (w : Writer) (name : String) (attributes : List Attribute) : Option Writer :=
  let w := { w with lastTag := name }
  let w := if w.unlabelled.isSome && !unlabelling.contains name then w.openLabel else w
  let role := Role.ofName name
  (w.startRole? role attributes).map fun w =>
    if keepsList role then w else { w with afterList := false }

def endTag? (w : Writer) (name : String) : Option Writer :=
  let role := Role.ofName name
  ({ w with lastTag := name }.endRole? role).map fun w =>
    match role with
    | .heading _ | .list _ => w
    | _ => { w with afterList := false }

end Writer

/-- Stands for a space at which no line may break, until the page is complete. -/
def fixedSpace : List Char := "&nbsp_place_holder;".toList

def asciiForms : List (String × String) := [
  ("rsquo", "'"), ("lsquo", "'"), ("rdquo", "\""), ("ldquo", "\""), ("copy", "(C)"),
  ("mdash", "--"), ("rarr", "->"), ("larr", "<-"), ("middot", "*"), ("ndash", "-"),
  ("oelig", "oe"), ("aelig", "ae"), ("agrave", "a"), ("aacute", "a"), ("acirc", "a"),
  ("atilde", "a"), ("auml", "a"), ("aring", "a"), ("egrave", "e"), ("eacute", "e"),
  ("ecirc", "e"), ("euml", "e"), ("igrave", "i"), ("iacute", "i"), ("icirc", "i"),
  ("iuml", "i"), ("ograve", "o"), ("oacute", "o"), ("ocirc", "o"), ("otilde", "o"),
  ("ouml", "o"), ("ugrave", "u"), ("uacute", "u"), ("ucirc", "u"), ("uuml", "u"), ("lrm", ""),
  ("rlm", "")]

/-- The form of a named reference; an unknown one stands for itself. -/
def namedForm (name : List Char) : List Char :=
  if name = "nbsp".toList then fixedSpace
  else match Assoc.get? asciiForms (String.ofList name) with
    | some form => form.toList
    | none =>
      (namedReferences.get? (String.ofList name)).getD ('&' :: (name ++ [';']))

def maxNumber : Nat := 2147483647

/-- The form of a numbered reference; a number without a character has none, and one that is far
too great makes the page unreadable. -/
def numberedForm? (digits : List Char) : Option (List Char) :=
  let n := match digits with
    | 'x' :: digits | 'X' :: digits => hexValue digits
    | digits => digitsValue digits
  if maxNumber < n then none
  else
    let isNamed (entry : String × String) : Bool :=
      namedReferences.get? entry.1 = some [Char.ofNat n]
    match if n.isValidChar then asciiForms.find? isNamed else none with
    | some (_, form) => some form.toList
    | none => some (if n.isValidChar then [Char.ofNat n]
      else if n < 0x110000 then [replacementChar] else [])

namespace Writer

def next? (w : Writer) : Token → Option Writer
  | .startTag name attributes => w.startTag? name attributes
  | .emptyTag name attributes => (w.startTag? name attributes).bind (·.endTag? name)
  | .endTag name => w.endTag? name
  | .text cs => some (w.addText true cs)
  | .numbered digits => (numberedForm? digits).map (w.addText false)
  | .named name => some (w.addText false (namedForm name))
  | .comment _ | .doctype _ | .bracketed _ | .instruction _ => some w

def page (w : Writer) : List Char :=
  replaceAll fixedSpace [' '] (w.breakLine.emit .last []).pieces.reverse.flatten

end Writer

/-- A page of HTML as Markdown, without the blanks around it. Its links and images lead where they
do on the page with the given address. -/
def ofHtml? (base cs : List Char) : Option (List Char) := do
  let tokens ← Token.scan? 2 (replaceAll "</' + 'script>".toList "</ignore>".toList cs)
  let w ← tokens.foldlM Writer.next? { base }
  return trim w.page

end NoteTemplate.Html.Markdown
