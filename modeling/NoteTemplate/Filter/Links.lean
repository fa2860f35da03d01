import NoteTemplate.Filter.PlainText
import NoteTemplate.Filter.Registry
import NoteTemplate.Text.Naming
import NoteTemplate.Text.Percent
import NoteTemplate.Url
import NoteTemplate.Value.Json.Reader

/-!
Filters that write links: to pages, images, other notes, footnotes and fragments of text.
-/

namespace NoteTemplate.Filter

open NoteTemplate.Text

def escapeBrackets (cs : List Char) : List Char :=
  cs.flatMap fun c => if c = '[' || c = ']' then ['\\', c] else [c]

/-- Whether an address is relative to a page: it begins with a slash or with points and a slash. -/
def isRelative (cs : List Char) : Bool :=
  startsWith ['/'] cs || startsWith ['.', '/'] cs || startsWith ['.', '.', '/'] cs

def linkAddress? (page : String) (address : String) : Option String :=
  let plain := replaceAll [' '] "%20".toList (trim address.toList)
  if page ≠ "" && isRelative plain then (Url.join? page.toList plain).map String.ofList
  else some (String.ofList plain)

def writeLink? (page start label address : String) : Option String :=
  (linkAddress? page address).map fun address =>
    start ++ "[" ++ String.ofList (escapeBrackets label.toList) ++ "](" ++ address ++ ")"

def filledTexts (items : List Value) : List String :=
  (items.map Value.text).filter fun s => !isBlankText s

/-- Links for an address, for each address in an array, or for the addresses that are the keys of an
object, whose values label them. -/
def links? (start label s page : String) : Option String :=
  if isBlankText s then some s
  else match Value.ofJson? s with
    | some (.arr items) =>
      ((filledTexts items).mapM fun address => writeLink? page start label address).map
        (joinWith "\n")
    | some (.obj fields) =>
      (fields.mapM fun (field : String × Value) =>
        writeLink? page start field.2.text field.1).map (joinWith "\n")
    | _ => writeLink? page start label s

def link? (s : String) (param : Option String) (page : String) : Option String :=
  let label := Param.single param
  links? "" (if label = "" then "link" else label) s page

def image? (s : String) (param : Option String) (page : String) : Option String :=
  links? "!" (Param.single param) s page

/-- Links to notes, with another name behind a bar if there is one. -/
def wikilink (s : String) (param : Option String) : String :=
  if isBlankText s then s
  else
    let shown := Param.single param
    let tail := if shown = "" then "" else "|" ++ shown
    match Value.ofJson? s with
    | some (.arr items) =>
      (Value.arr ((filledTexts items).map fun t => .str ("[[" ++ t ++ tail ++ "]]"))).toJson
    | some (.obj fields) =>
      (Value.arr (fields.map fun (name, v) => .str ("[[" ++ name ++ "|" ++ v.text ++ "]]"))).toJson
    | _ => "[[" ++ s ++ tail ++ "]]"

/-- The mark of a footnote: the key in small letters with hyphens between its words. -/
def footnoteMark (key : String) : String :=
  String.ofList (lower (markGaps isBlank '-' false (markCapitals isSmall '-' key.toList)))

def footnotes (s : String) : String :=
  let note (mark : String) (v : Value) : String := "[^" ++ mark ++ "]: " ++ v.text
  match Value.ofJson? s with
  | some (.arr items) =>
    joinWith "\n\n" (items.zipIdx.map fun (v, i) => note (Nat.repr (i + 1)) v)
  | some (.obj fields) => joinWith "\n\n" (fields.map fun (name, v) => note (footnoteMark name) v)
  | _ => s

def maxFragmentWords : Nat := 10

def fragmentEndWords : Nat := 5

/-- The fragment of an address that shows a text on its page: the text, or the words at its ends. -/
def textFragment (s : String) : String :=
  let parts := words (plainMarkdown s.toList)
  let encoded (parts : List (List Char)) : String :=
    String.ofList (percentEncode (List.intercalate [' '] parts))
  "#:~:text=" ++
    if maxFragmentWords < parts.length then
      encoded (parts.take fragmentEndWords) ++ "," ++
        encoded (parts.drop (parts.length - fragmentEndWords))
    else encoded parts

/-- A label and an address at the end of a text. -/
def fragmentParam : Pattern.Compiled := Pattern.ofString "^(.*?):?((?:https?|file)://.*)$"

def readFragmentParam (param : Option String) (page : String) : String × String :=
  let text := (param.getD "").toList.filter fun c => c ≠ '"' && c ≠ '\''
  let subject : Pattern.Subject := ⟨text.toArray⟩
  let (label, address) := match Pattern.matchAt? fragmentParam subject 0 false with
    | some found => (trim (found.text subject 1), trim (found.text subject 2))
    | none => (trim text, page.toList)
  (if label = [] then "link" else String.ofList label, String.ofList address)

/-- Excerpts of a page, each with a link that shows it on the page. -/
def fragmentLinks (s : String) (param : Option String) (page : String) : String :=
  let (label, address) := readFragmentParam param page
  let linked (t : String) : Value :=
    .str (t ++ " [" ++ label ++ "](" ++ address ++ textFragment t ++ ")")
  let linkedItem (v : Value) : Value :=
    match v with
    | .obj fields =>
      match Assoc.get? fields "text" with
      | some t => .obj (Assoc.set fields "text" (linked t.text))
      | none => linked v.text
    | v => linked v.text
  if isBlankText s || address = "" then s
  else
    (Value.arr <| match Value.ofJson? s with
      | some (.arr items) => items.map linkedItem
      | some (.obj fields) => fields.map fun (_, v) => linked v.text
      | some (.str t) => [linked t]
      | _ => [linked s]).toJson

def linking : List Filter := [
  { name := "link", run := fun s param page => (link? s param page).map .str
    description := "Markdown link: link:\"text\"", wantsUrl := true },
  { name := "image", run := fun s param page => (image? s param page).map .str
    description := "Markdown image: image:\"alt\"", wantsUrl := true },
  ofParam "wikilink" wikilink "Wiki link: wikilink:\"alias\"",
  ofText "footnote" footnotes "Footnote list from an array or object",
  { name := "fragment_link", run := fun s param page => some (.str (fragmentLinks s param page))
    description := "Append text fragment links: fragment_link:\"source\"", wantsUrl := true }]

end NoteTemplate.Filter
