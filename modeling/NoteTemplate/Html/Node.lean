import NoteTemplate.Assoc
import NoteTemplate.Html.Token
import NoteTemplate.Text.Percent

/-!
Trees of HTML. Elements that are left open end where the element around them ends, and an end tag
without a start tag is ignored.
-/

namespace NoteTemplate.Html

open NoteTemplate.Text

/-- The value of an attribute. -/
inductive AttributeValue where
  | text (s : String)
  /-- A list of words. -/
  | words (ws : List String)
  /-- The name of the encoding of the page. -/
  | encoding (s : String)
  /-- A media type with the name of the encoding of the page. -/
  | mediaType (s : String)
deriving Repr, DecidableEq

def AttributeValue.toString : AttributeValue → String
  | text s => s
  | words ws => joinWith " " ws
  | encoding s => s
  | mediaType s => s

/-- What stands for itself in a tree of HTML, apart from text. -/
inductive Aside where
  | comment
  | doctype
  | cdata
  | declaration
  | instruction
deriving Repr, DecidableEq

/-- A node of a tree. `void` marks an element that is written without an end tag as long as it has
no content. -/
inductive Node where
  | element (name : String) (void : Bool) (attributes : List (String × AttributeValue))
      (children : List Node)
  | text (cs : List Char)
  | aside (kind : Aside) (cs : List Char)
deriving Inhabited

def voidElements : List String := [
  "area", "base", "br", "col", "embed", "hr", "img", "input", "keygen", "link", "menuitem", "meta",
  "param", "source", "track", "wbr", "basefont", "bgsound", "command", "frame", "image", "isindex",
  "nextid", "spacer"]

/-- The elements whose blanks count. -/
def spacedElements : List String := ["pre", "textarea"]

/-- The attributes whose values are lists of words: those of every element, and those of one. -/
def wordAttributes (element : String) : List String :=
  ["class", "accesskey", "dropzone"] ++
    if element = "a" || element = "link" then ["rel", "rev"]
    else if element = "td" || element = "th" then ["headers"]
    else if element = "form" then ["accept-charset"]
    else if element = "object" then ["archive"]
    else if element = "area" then ["rel"]
    else if element = "icon" then ["sizes"]
    else if element = "iframe" then ["sandbox"]
    else if element = "output" then ["for"]
    else []

/-- The attributes of an element. Of several with one name the first place and the last value
count. -/
def readAttributes (element : String) (attributes : List Attribute) :
    List (String × AttributeValue) :=
  let plain := Assoc.ofPairs (attributes.map fun (name, v) => (name, v.getD ""))
  let typed := plain.map fun (name, v) =>
    if (wordAttributes element).contains name then
      (name, AttributeValue.words ((Text.words v.toList).map String.ofList))
    else (name, .text v)
  if element ≠ "meta" then typed
  else
    let isMediaType := (Assoc.get? plain "http-equiv").map toLower = some "content-type"
    match Assoc.get? plain "charset" with
    | some v => Assoc.set typed "charset" (.encoding v)
    | none =>
      match Assoc.get? plain "content" with
      | some v => if isMediaType then Assoc.set typed "content" (.mediaType v) else typed
      | none => typed

namespace Tree

/-- An element that is still open; its children stand in reverse order. -/
structure Open where
  name : String
  attributes : List (String × AttributeValue)
  children : List Node := []

/-- A tree under construction. -/
structure Builder where
  /-- The open elements, the innermost first. -/
  opened : List Open := []
  /-- The nodes outside of them, in reverse order. -/
  top : List Node := []
  /-- Text that is not yet a node. -/
  pending : Option (List Char) := none
  /-- Void elements that were closed without an end tag, which may still follow. -/
  closed : List String := []

namespace Builder

/-- Puts a node at the end of the innermost open element. -/
def add (b : Builder) (node : Node) : Builder :=
  match b.opened with
  | [] => { b with top := node :: b.top }
  | o :: rest => { b with opened := { o with children := node :: o.children } :: rest }

def addText (b : Builder) (cs : List Char) : Builder :=
  { b with pending := some (b.pending.getD [] ++ cs) }

def isAsciiBlank (c : Char) : Bool :=
  c == ' ' || c == '\n' || c == '\t' || c.toNat == 12 || c == '\r'

/-- Blanks alone shrink to one line break or one space, where blanks do not count. -/
def shrink (b : Builder) (cs : List Char) : List Char :=
  if b.opened.any (fun o => spacedElements.contains o.name) || !cs.all isAsciiBlank then cs
  else if cs.contains '\n' then ['\n']
  else [' ']

/-- Makes the pending text a node. -/
def flushAs (b : Builder) (make : List Char → Node) : Builder :=
  match b.pending with
  | none => b
  | some cs => { b with pending := none }.add (make (b.shrink cs))

/-- Makes the pending text a node of text. -/
def flush (b : Builder) : Builder := b.flushAs .text

/-- Puts something apart from text at the end. -/
def addAside (b : Builder) (kind : Aside) (cs : List Char) : Builder :=
  (b.flush.addText cs).flushAs (.aside kind)

def close (o : Open) : Node :=
  .element o.name (voidElements.contains o.name) o.attributes o.children.reverse

/-- Closes the innermost open element. -/
def pop (b : Builder) : Builder :=
  match b.opened with
  | [] => b
  | o :: rest => { b with opened := rest }.add (close o)

/-- Closes a number of open elements. -/
def popMany : Nat → Builder → Builder
  | 0, b => b
  | n + 1, b => popMany n b.pop

/-- Closes the innermost open element with a name and all inside of it, if there is one. -/
def popTo (b : Builder) (name : String) : Builder :=
  match b.opened.findIdx? (·.name == name) with
  | some i => popMany (i + 1) b
  | none => b

def start (b : Builder) (name : String) (attributes : List Attribute) : Builder :=
  let b := b.flush
  { b with opened := ⟨name, readAttributes name attributes, []⟩ :: b.opened }

/-- Ends an element, unless it was closed before. -/
def finish (b : Builder) (name : String) : Builder :=
  if b.closed.contains name then { b with closed := b.closed.erase name }
  else b.flush.popTo name

/-- The character of a numbered reference. Numbers of one byte mean the western code page. -/
def numberedChar (n : Nat) : Char :=
  if 128 ≤ n && n ≤ 159 then Char.ofNat (westernChars.getD (n - 128) 0xFFFD)
  else if n.isValidChar then Char.ofNat n
  else replacementChar

def referenceNumber (cs : List Char) : Nat :=
  match cs with
  | 'x' :: digits | 'X' :: digits => hexValue digits
  | digits => digitsValue digits

/-- The characters of a named reference; a name that is unknown stands for itself. -/
def namedChars (name : List Char) : List Char :=
  (namedReferences.get? (String.ofList name)).getD ('&' :: name)

def next (b : Builder) : Token → Builder
  | .startTag name attributes =>
    let b := b.start name attributes
    if voidElements.contains name then
      let b := b.flush.popTo name
      { b with closed := b.closed ++ [name] }
    else b
  | .emptyTag name attributes => (b.start name attributes).finish name
  | .endTag name => b.finish name
  | .text cs => b.addText cs
  | .numbered cs => b.addText [numberedChar (referenceNumber cs)]
  | .named name => b.addText (namedChars name)
  | .comment cs => b.addAside .comment cs
  | .doctype cs => b.addAside .doctype (cs.drop 8)
  | .bracketed cs =>
    if upper (cs.take 6) = "CDATA[".toList then b.addAside .cdata (cs.drop 6)
    else b.addAside .declaration cs
  | .instruction cs => b.addAside .instruction cs

def nodes (b : Builder) : List Node :=
  let b := b.flush
  (popMany b.opened.length b).top.reverse

end Builder

/-- The tree of a text, unless its markup is at fault. -/
def ofChars? (cs : List Char) : Option (List Node) :=
  (Token.scan? 1 cs).map fun tokens => (tokens.foldl Builder.next {}).nodes

end Tree

namespace Node

/-- The form of a character outside of tags. -/
def escapeChar (c : Char) : List Char :=
  if c = '&' then "&amp;".toList
  else if c = '<' then "&lt;".toList
  else if c = '>' then "&gt;".toList
  else [c]

def escape (cs : List Char) : List Char := cs.flatMap escapeChar

/-- The value of an attribute in quotes. Double quotes are preferred, and escaped where the value has
quotes of both kinds. -/
def quoteValue (cs : List Char) : List Char :=
  let escaped := escape cs
  if !escaped.contains '"' then '"' :: (escaped ++ ['"'])
  else if !escaped.contains '\'' then '\'' :: (escaped ++ ['\''])
  else '"' :: ((escaped.flatMap fun c => if c = '"' then "&quot;".toList else [c]) ++ ['"'])

def outputEncoding : String := "utf-8"

def encodingName : Pattern.Compiled := Pattern.ofString "(?m)((^|[\\s;])charset=)([^;]*)"

/-- The text of a value as it is written, with the name of the encoding in which it is written. -/
def writtenValue : AttributeValue → List Char
  | .encoding _ => outputEncoding.toList
  | .mediaType s =>
    Pattern.replace encodingName (fun s found => found.text s 1 ++ outputEncoding.toList) s.toList
  | v => v.toString.toList

def writeAttributes (attributes : List (String × AttributeValue)) : List Char :=
  (attributes.mergeSort fun a b => a.1 ≤ b.1).flatMap fun (name, v) =>
    ' ' :: (name.toList ++ '=' :: quoteValue (writtenValue v))

/-- Something apart from text between its marks. -/
def writeAside (kind : Aside) (cs : List Char) : List Char :=
  match kind with
  | .comment => "<!--".toList ++ cs ++ "-->".toList
  | .doctype => "<!DOCTYPE ".toList ++ cs ++ ">\n".toList
  | .cdata => "<![CDATA[".toList ++ cs ++ "]]>".toList
  | .declaration => "<?".toList ++ cs ++ "?>".toList
  | .instruction => "<?".toList ++ cs ++ ">".toList

mutual

/-- A node as HTML. The content of raw elements is not escaped. -/
def write (raw : Bool) : Node → List Char
  | text cs => if raw then cs else escape cs
  | aside kind cs => writeAside kind cs
  | element name void attributes children =>
    let head := '<' :: (name.toList ++ writeAttributes attributes)
    if void && children.isEmpty then head ++ ['/', '>']
    else
      head ++ '>' :: (writeAll (Token.rawElements.contains name) children ++
        ['<', '/'] ++ name.toList ++ ['>'])

/-- Nodes as HTML, one after another. -/
def writeAll (raw : Bool) : List Node → List Char
  | [] => []
  | node :: rest => write raw node ++ writeAll raw rest

end

mutual

/-- A node with every element in it replaced by nodes, inner elements first. -/
def expand (f : String → Bool → List (String × AttributeValue) → List Node → List Node) :
    Node → List Node
  | element name void attributes children => f name void attributes (expandAll f children)
  | node => [node]

/-- Nodes with every element in them replaced by nodes, inner elements first. -/
def expandAll (f : String → Bool → List (String × AttributeValue) → List Node → List Node) :
    List Node → List Node
  | [] => []
  | node :: rest => expand f node ++ expandAll f rest

end

mutual

/-- The content of the first element with a name, if there is one in a node. -/
def contentOf? (wanted : String) : Node → Option (List Node)
  | element name _ _ children =>
    if name = wanted then some children else contentIn? wanted children
  | _ => none

/-- The content of the first element with a name, if there is one in some nodes. -/
def contentIn? (wanted : String) : List Node → Option (List Node)
  | [] => none
  | node :: rest =>
    match contentOf? wanted node with
    | some children => some children
    | none => contentIn? wanted rest

end

end Node

end NoteTemplate.Html
