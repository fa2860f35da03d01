import NoteTemplate.Assoc
import NoteTemplate.Yaml.Token

/-!
The tree of a document of YAML. What is left out is an empty plain scalar, and an alias is a copy of
what its anchor names.
-/

namespace NoteTemplate.Yaml

/-- A node of a document, with its tag if it has one. -/
inductive Node where
  | scalar (tag : Option String) (plain : Bool) (text : String)
  | sequence (tag : Option String) (items : List Node)
  | mapping (tag : Option String) (entries : List (Node × Node))
deriving Inhabited

namespace Node

/-- What stands where nothing is written. -/
def empty : Node := scalar none true ""

/-- The tokens that are still to be read, and the nodes with anchors. -/
structure Reading where
  tokens : List Token
  anchors : Assoc String Node := []

/-- Reads a part of the tokens, or fails. -/
abbrev Reader := StateT Reading Option

def peek? : Reader (Option Token) := return (← get).tokens.head?

def pass : Reader Unit := modify fun r => { r with tokens := r.tokens.tail }

/-- Whether the next token is one of some; it stays. -/
def meets (ts : List Token) : Reader Bool := return (← peek?).any ts.contains

/-- Passes a token that has to stand next. -/
def expect (t : Token) : Reader Unit := do
  if ← meets [t] then pass else failure

/-- Passes the anchor and the tag of a node, which stand in any order. -/
def properties : Reader (Option String × Option String) := do
  match ← peek? with
  | some (.anchor name) =>
    pass
    match ← peek? with
    | some (.tag tag) => do pass; return (some name, some tag)
    | _ => return (some name, none)
  | some (.tag tag) =>
    pass
    match ← peek? with
    | some (.anchor name) => do pass; return (some name, some tag)
    | _ => return (none, some tag)
  | _ => return (none, none)

def named (name : String) : Reader Node := do
  match Assoc.get? (← get).anchors name with
  | some node => return node
  | none => failure

def keep (anchor : Option String) (node : Node) : Reader Unit :=
  match anchor with
  | some name => modify fun r => { r with anchors := Assoc.set r.anchors name node }
  | none => return

mutual

/-- Reads a node. Blocks stand in blocks only; the items of a sequence that is the value of a key
need no indentation. -/
def read (block compact : Bool) (fuel : Nat) : Reader Node :=
  match fuel with
  | 0 => failure
  | fuel + 1 => do
    match ← peek? with
    | some (.copy name) => do pass; named name
    | _ =>
      let (anchor, tag) ← properties
      let node ← readContent block compact anchor tag fuel
      keep anchor node
      return node
termination_by structural fuel

def readContent (block compact : Bool) (anchor tag : Option String) (fuel : Nat) : Reader Node :=
  match fuel with
  | 0 => failure
  | fuel + 1 => do
    match ← peek? with
    | some (.scalar plain text) => do pass; return scalar tag plain text
    | some .flowSequence => do pass; return sequence tag (← readFlowItems true fuel)
    | some .flowMapping => do pass; return mapping tag (← readFlowEntries true fuel)
    | some .blockEntry =>
      if compact then return sequence tag (← readItems true fuel)
      else if anchor.isSome || tag.isSome then return scalar tag true ""
      else failure
    | some .blockSequence =>
      if block then do pass; return sequence tag (← readItems false fuel) else failure
    | some .blockMapping =>
      if block then do pass; return mapping tag (← readEntries fuel) else failure
    | _ => if anchor.isSome || tag.isSome then return scalar tag true "" else failure
termination_by structural fuel

/-- Reads a node, or nothing in front of some tokens. -/
def readUnless (ends : List Token) (block compact : Bool) (fuel : Nat) : Reader Node :=
  match fuel with
  | 0 => failure
  | fuel + 1 => do
    if ← meets ends then return empty else read block compact fuel
termination_by structural fuel

/-- Reads the items of a block up to its end; without indentation they end where no item
follows. -/
def readItems (compact : Bool) (fuel : Nat) : Reader (List Node) :=
  match fuel with
  | 0 => failure
  | fuel + 1 => do
    if ← meets [.blockEntry] then
      pass
      let ends := if compact then [.blockEntry, .key, .value, .blockEnd]
        else [.blockEntry, .blockEnd]
      let item ← readUnless ends true false fuel
      return item :: (← readItems compact fuel)
    else if compact then return []
    else
      expect .blockEnd
      return []
termination_by structural fuel

def readEntries (fuel : Nat) : Reader (List (Node × Node)) :=
  match fuel with
  | 0 => failure
  | fuel + 1 => do
    let ends := [Token.key, .value, .blockEnd]
    if ← meets [.key, .value] then
      let key ← if ← meets [.key] then do
          pass
          readUnless ends true true fuel
        else pure empty
      let value ← if ← meets [.value] then do
          pass
          readUnless ends true true fuel
        else pure empty
      return (key, value) :: (← readEntries fuel)
    else
      expect .blockEnd
      return []
termination_by structural fuel

/-- Reads the key and the value of an entry in brackets behind the mark of the key. -/
def readFlowPair (close : Token) (fuel : Nat) : Reader (Node × Node) :=
  match fuel with
  | 0 => failure
  | fuel + 1 => do
    let key ← readUnless [.value, .flowEntry, close] false false fuel
    let value ← readFlowValue close fuel
    return (key, value)
termination_by structural fuel

/-- Reads the value of an entry in brackets, if there is one. -/
def readFlowValue (close : Token) (fuel : Nat) : Reader Node :=
  match fuel with
  | 0 => failure
  | fuel + 1 => do
    if ← meets [.value] then
      pass
      readUnless [.flowEntry, close] false false fuel
    else return empty
termination_by structural fuel

/-- Reads items up to a closing bracket. A pair of key and value is a mapping of its own. -/
def readFlowItems (first : Bool) (fuel : Nat) : Reader (List Node) :=
  match fuel with
  | 0 => failure
  | fuel + 1 => do
    unless first || (← meets [.flowSequenceEnd]) do expect .flowEntry
    if ← meets [.flowSequenceEnd] then
      pass
      return []
    else if ← meets [.key] then
      pass
      let pair ← readFlowPair .flowSequenceEnd fuel
      return mapping none [pair] :: (← readFlowItems false fuel)
    else
      let item ← read false false fuel
      return item :: (← readFlowItems false fuel)
termination_by structural fuel

def readFlowEntries (first : Bool) (fuel : Nat) : Reader (List (Node × Node)) :=
  match fuel with
  | 0 => failure
  | fuel + 1 => do
    unless first || (← meets [.flowMappingEnd]) do expect .flowEntry
    if ← meets [.flowMappingEnd] then
      pass
      return []
    else if ← meets [.key] then
      pass
      let pair ← readFlowPair .flowMappingEnd fuel
      return pair :: (← readFlowEntries false fuel)
    else if ← meets [.value] then
      let value ← readFlowValue .flowMappingEnd fuel
      return (empty, value) :: (← readFlowEntries false fuel)
    else
      let key ← read false false fuel
      return (key, empty) :: (← readFlowEntries false fuel)
termination_by structural fuel

end

/-- How deep reading goes for a number of tokens: each token is read at a bounded depth below the
one in front of it. -/
def depth (tokens : List Token) : Nat := 4 * tokens.length + 4

def readMarked : Reader Node := do
  modify fun r => { r with tokens := r.tokens.dropWhile (· == .directive) }
  expect .documentStart
  if (← peek?).isNone || (← meets [.directive, .documentStart, .documentEnd]) then return empty
  else read true false (depth (← get).tokens)

/-- Reads the only document of a text. -/
def readDocument : Reader Node := do
  let node ←
    if ← meets [.directive, .documentStart] then readMarked
    else read true false (depth (← get).tokens)
  if ← meets [.documentEnd] then pass
  if (← peek?).isSome then failure
  return node

/-- The tree of a text with one document; an empty text has an empty one. None for a faulty text. -/
def ofChars? (cs : List Char) : Option Node := do
  let tokens ← tokens? cs
  if tokens.isEmpty then return empty
  let (node, _) ← readDocument.run { tokens }
  return node

end Node

end NoteTemplate.Yaml
