import NoteTemplate.Filter.Registry
import NoteTemplate.Html.Markdown
import NoteTemplate.Html.Node
import NoteTemplate.Value.Json.Writer

/-!
Filters for fragments of HTML: they drop, unwrap or rename elements, drop attributes, show the tree
as JSON, or turn the fragment into Markdown. They fail on markup that cannot be read.
-/

namespace NoteTemplate.Filter

open NoteTemplate.Text
open Html (AttributeValue)

/-- What becomes of an element, told by its name, whether it is void, its attributes and its
content. -/
abbrev ElementRule :=
  String → Bool → List (String × AttributeValue) → List Html.Node → List Html.Node

/-- The names in a parameter, which commas separate inside of quotes as well. -/
def nameList (param : Option String) : List String :=
  (((Param.list param).flatMap fun arg => splitOnChar ',' arg.toList).map trim).filterMap fun cs =>
    if cs.isEmpty then none else some (String.ofList cs)

def lowerNameList (param : Option String) : List String := (nameList param).map toLower

/-- A text of HTML with rules applied to its elements, one rule after another. -/
def editHtml? (rules : List ElementRule) (s : String) : Option String :=
  (Html.Tree.ofChars? s.toList).map fun nodes =>
    let edited := rules.foldl (fun nodes rule => Html.Node.expandAll rule nodes) nodes
    String.ofList (Html.Node.writeAll false edited)

/-- What picks elements. -/
inductive ElementSelector where
  /-- Some text in the classes of the element. -/
  | classText (cs : List Char)
  | id (s : String)
  | name (s : String)
deriving Repr, DecidableEq

namespace ElementSelector

def ofString (s : String) : ElementSelector :=
  match s.toList with
  | '.' :: cs => classText cs
  | '#' :: cs => id (String.ofList cs)
  | _ => name (toLower s)

def picks (selector : ElementSelector) (element : String)
    (attributes : List (String × AttributeValue)) : Bool :=
  match selector with
  | classText cs => occursIn cs (((Assoc.get? attributes "class").elim "" (·.toString)).toList)
  | id s => (Assoc.get? attributes "id").map (·.toString) = some s
  | name s => element = s

def dropRule (selectors : List ElementSelector) : ElementRule :=
  fun name void attributes children =>
    if selectors.any (·.picks name attributes) then []
    else [.element name void attributes children]

end ElementSelector

/-- Puts the content of some elements in their place. -/
def unwrapRule (names : List String) : ElementRule :=
  fun name void attributes children =>
    if names.contains name then children else [.element name void attributes children]

/-- Renames elements; without a new name their content takes their place. -/
def renameRule (source target : String) : ElementRule :=
  if target = "" then unwrapRule [source]
  else fun name void attributes children =>
    [.element (if name = source then target else name) void attributes children]

def attributeRule (keep : String → Bool) : ElementRule :=
  fun name void attributes children =>
    [.element name void (attributes.filter fun a => keep a.1) children]

def removeElements? (s : String) (param : Option String) : Option String :=
  match nameList param with
  | [] => some s
  | selectors => editHtml? [ElementSelector.dropRule (selectors.map .ofString)] s

def unwrapElements? (s : String) (param : Option String) : Option String :=
  match lowerNameList param with
  | [] => some s
  | names => editHtml? [unwrapRule names] s

/-- A name with its replacement, which may be missing; none without a name. -/
def renaming? (pair : String) : Option (String × String) :=
  match (Param.split ':' pair).map fun part => toLower (strip (Param.decode part)) with
  | [] => none
  | source :: rest => if source = "" then none else some (source, rest.headD "")

def renamings (param : Option String) : List (String × String) :=
  match param with
  | none => []
  | some text => (Param.split ',' (Param.stripParens text)).filterMap renaming?

def renameElements? (s : String) (param : Option String) : Option String :=
  match renamings param with
  | [] => some s
  | pairs => editHtml? (pairs.map fun (source, target) => renameRule source target) s

/-- Keeps the listed attributes only. -/
def keepAttributes? (s : String) (param : Option String) : Option String :=
  editHtml? [attributeRule fun name => (lowerNameList param).contains name] s

def dropAttributes? (s : String) (param : Option String) : Option String :=
  match lowerNameList param with
  | [] => some s
  | names => editHtml? [attributeRule fun name => !names.contains name] s

mutual

/-- A node as a value; blank text and what is apart from text have none. -/
def nodeValue? : Html.Node → Option Value
  | .text cs =>
    if cs.all isBlank then none
    else some (.obj [("type", .str "text"), ("content", .str (String.ofList (trim cs)))])
  | .aside _ _ => none
  | .element name _ attributes children =>
    let fields := [("type", Value.str "element"), ("tag", .str name)]
    let attributeFields : List (String × Value) :=
      if attributes.isEmpty then []
      else [("attributes", .obj (attributes.map fun (name, v) => (name, .str v.toString)))]
    let childFields : List (String × Value) :=
      match nodeValues children with
      | [] => []
      | values => [("children", .arr values)]
    some (.obj (fields ++ attributeFields ++ childFields))

def nodeValues : List Html.Node → List Value
  | [] => []
  | node :: rest => (nodeValue? node).toList ++ nodeValues rest

end

/-- The tree of a page as JSON: the content of its body, or all of a fragment. A single node stands
alone, others in an array. -/
def treeJson? (s : String) (_ : Option String) : Option String :=
  (Html.Tree.ofChars? s.toList).map fun nodes =>
    match nodeValues ((Html.Node.contentIn? "body" nodes).getD nodes) with
    | [only] => only.toJson
    | values => (Value.arr values).toJson

/-- A fragment as Markdown. Its links are relative to the address in the parameter, or else to that of
the page. -/
def markdown? (s : String) (param : Option String) (page : String) : Option String :=
  let base := Param.single param
  (Html.Markdown.ofHtml? (if base = "" then page else base).toList s.toList).map String.ofList

def elements : List Filter := [
  ofFallible "remove_html" removeElements?
    "Remove elements: remove_html:(\".ad,#nav,script\")",
  ofFallible "remove_tags" unwrapElements?
    "Unwrap tags keeping content: remove_tags:(\"a,span\")",
  ofFallible "replace_tags" renameElements? "Rename tags: replace_tags:\"strong\":\"b\"",
  ofFallible "strip_attr" keepAttributes? "Keep only listed attributes: strip_attr:(\"href\")",
  ofFallible "remove_attr" dropAttributes? "Remove attributes: remove_attr:(\"style,class\")",
  ofFallible "html_to_json" treeJson? "HTML tree as JSON",
  { name := "markdown"
    run := fun s param page => (markdown? s param page).map .str
    description := "Convert HTML to Markdown"
    wantsUrl := true }]

end NoteTemplate.Filter
