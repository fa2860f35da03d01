import NoteTemplate.Calendar
import NoteTemplate.Decimal.Reader
import NoteTemplate.Moment
import NoteTemplate.Pattern.Reader
import NoteTemplate.Value.Order
import NoteTemplate.Variables
import NoteTemplate.Yaml.Node

/-!
The values of YAML. Plain scalars are read by their text: as null, truth values, numbers or dates,
and as text otherwise. The keys of one mapping must differ, and a key of two less-than signs adds
the entries of other mappings.
-/

namespace NoteTemplate.Yaml

open NoteTemplate.Text

/-- The kind that a tag or a text gives to a scalar. -/
inductive Kind where
  | null
  | bool
  | int
  | float
  | date
  | text
  /-- The key that adds other mappings. -/
  | merge
  /-- The equals sign, which has no value. -/
  | equals
deriving Repr, DecidableEq

namespace Kind

def floats : Pattern.Compiled := Pattern.ofString
  ("[-+]?[0-9][0-9_]*\\.[0-9_]*([eE][-+]?[0-9]+)?$|[-+]?[0-9][0-9_]*[eE][-+]?[0-9]+$|" ++
    "[-+]?\\.[0-9_]+([eE][-+][0-9]+)?$|[-+]?\\.(inf|Inf|INF)$|\\.(nan|NaN|NAN)$")

/-- Integers in binary, octal, decimal and hexadecimal digits. -/
def integers : Pattern.Compiled := Pattern.ofString
  "[-+]?0b[0-1_]+$|[-+]?0o?[0-7_]+$|[-+]?[0-9_]+$|[-+]?0x[0-9a-fA-F_]+$"

/-- Dates, alone or with a time of day. -/
def dates : Pattern.Compiled := Pattern.ofString
  ("[0-9][0-9][0-9][0-9]-[0-9][0-9]-[0-9][0-9]$|" ++
    "[0-9][0-9][0-9][0-9]-[0-9][0-9]?-[0-9][0-9]?([Tt]|[ \\t]+)[0-9][0-9]?:[0-9][0-9]:[0-9][0-9]" ++
    "(\\.[0-9]*)?([ \\t]*(Z|[-+][0-9][0-9]?(:[0-9][0-9])?))?$")

def matchesAll (p : Pattern.Compiled) (s : String) : Bool :=
  (Pattern.matchAt? p ⟨s.toList.toArray⟩ 0 false).isSome

/-- The kind of a plain scalar. Numbers begin with a digit, a sign or a point. -/
def ofPlain (s : String) : Kind :=
  if ["", "~", "null", "Null", "NULL"].contains s then null
  else if ["true", "True", "TRUE", "false", "False", "FALSE"].contains s then bool
  else if s = "<<" then merge
  else if s = "=" then equals
  else match s.toList with
    | c :: _ =>
      if !(isAsciiDigit c || c == '-' || c == '+' || c == '.') then text
      else if matchesAll floats s then float
      else if c != '.' && matchesAll integers s then int
      else if isAsciiDigit c && matchesAll dates s then date
      else text
    | [] => null

def tags : List (String × Kind) := [
  ("null", null), ("bool", bool), ("int", int), ("float", float), ("timestamp", date),
  ("str", text)]

def ofTag? (tag : String) : Option Kind :=
  (dropPrefix? Scanner.coreTag.toList tag.toList).bind fun name => tags.lookup (String.ofList name)

/-- The kind of a scalar. Without a tag only a plain one is read by its text. -/
def of? (tag : Option String) (plain : Bool) (s : String) : Option Kind :=
  match tag with
  | some tag => if tag = Scanner.openTag then some (ofPlain s) else ofTag? tag
  | none => some (if plain then ofPlain s else text)

end Kind

def takeSign : List Char → Bool × List Char
  | '-' :: rest => (true, rest)
  | '+' :: rest => (false, rest)
  | cs => (false, cs)

/-- The number that digits write in a base; there must be some. -/
def digitsIn? (base : Nat) (cs : List Char) : Option Nat :=
  let value (c : Char) : Option Nat := (hexDigitValue? c).filter (· < base)
  if cs.isEmpty then none
  else cs.foldlM (fun n c => (value c).map (n * base + ·)) 0

/-- The integer that a text writes. Underscores count for nothing, and only a decimal can have too
many digits. -/
def readInt? (s : String) : Option Int :=
  let (negative, digits) := takeSign (s.toList.filter (· != '_'))
  let n? := match digits with
    | '0' :: 'b' :: rest => digitsIn? 2 rest
    | '0' :: 'x' :: rest => digitsIn? 16 rest
    | '0' :: 'o' :: rest => digitsIn? 8 rest
    | rest => if Decimal.maxDigits < rest.length then none else digitsIn? 10 rest
  n?.map fun n => if negative then -(n : Int) else n

def readFloat? (s : String) : Option Float :=
  let (negative, cs) := takeSign (lower (s.toList.filter (· != '_')))
  let x? := match String.ofList cs with
    | ".inf" => some (1.0 / 0.0)
    | ".nan" => some (0.0 / 0.0)
    | s => Decimal.readFloat? s
  x?.map fun x => if negative then -x else x

/-- The parts of a date: year, month, day, hour, minute, second, fraction, and the distance from
universal time. -/
def dateParts : Pattern.Compiled := Pattern.ofString
  ("([0-9]+)-([0-9]+)-([0-9]+)(?:(?:[Tt]|[ \\t]+)([0-9]+):([0-9]+):([0-9]+)(?:\\.([0-9]*))?" ++
    "(?:[ \\t]*(?:Z|([-+])([0-9]+)(?::([0-9]+))?))?)?$")

def micros (digits : List Char) : Nat :=
  digitsValue ((digits ++ List.replicate 6 '0').take 6)

/-- A date as it is printed: in universal time if it tells its distance from it. -/
def readDate? (s : String) : Option String := do
  let subject : Pattern.Subject := ⟨s.toList.toArray⟩
  let found ← Pattern.matchAt? dateParts subject 0 false
  let part (i : Nat) : Nat := digitsValue (found.text subject i)
  let day ← Day.of? (part 1) (part 2) (part 3)
  let dayText (d : Day) : String :=
    Decimal.padLeft 4 (Value.Json.intText d.year) ++ "-" ++ Zone.twoDigits d.month ++ "-" ++
      Zone.twoDigits d.day
  if (found.text? subject 4).isNone then return dayText day
  else
    let clock ← Clock.of? (part 4) (part 5) (part 6) (micros (found.text subject 7))
    let distance : Int := part 9 * 3600 + part 10 * 60
    let shift := if found.text subject 8 = ['-'] then distance else -distance
    let m ← Moment.addSeconds? { day, clock } shift
    let fraction :=
      if m.clock.micro = 0 then "" else "." ++ Decimal.padLeft 6 (Nat.repr m.clock.micro)
    return dayText m.day ++ " " ++ Zone.twoDigits m.clock.hour ++ ":" ++
      Zone.twoDigits m.clock.minute ++ ":" ++ Zone.twoDigits m.clock.second ++ fraction

def scalarValue? (tag : Option String) (plain : Bool) (s : String) : Option Value := do
  match ← Kind.of? tag plain s with
  | .null => return .null
  | .bool =>
    let word := toLower s
    if ["true", "yes", "on"].contains word then return .bool true
    else if ["false", "no", "off"].contains word then return .bool false
    else none
  | .int => (readInt? s).map .int
  | .float => (readFloat? s).map .float
  | .date => (readDate? s).map .str
  | .text => return .str s
  | .merge | .equals => none

/-- The entries of a mapping in order, and whether others were added to them. -/
structure Entries where
  own : List (Value × Value) := []
  added : List (Value × Value) := []
  hasAdded : Bool := false

/-- Sets an entry; the key keeps its first place. -/
def setEntry (entries : List (Value × Value)) (key v : Value) : List (Value × Value) :=
  match entries with
  | [] => [(key, v)]
  | (k, w) :: rest => if k.same key then (k, v) :: rest else (k, w) :: setEntry rest key v

/-- All entries of a mapping; added ones stand first and give way to its own. Without added ones no
key may stand twice. -/
def Entries.all? (e : Entries) : Option (List (Value × Value)) :=
  let all := (e.added ++ e.own).foldl (fun found (key, v) => setEntry found key v) []
  if !e.hasAdded && all.length ≠ e.own.length then none else some all

def fieldName (key : Value) : String :=
  match key with
  | .str s => s
  | .null => "null"
  | key => key.text

def objectOf (entries : List (Value × Value)) : Value :=
  .obj (entries.map fun (key, v) => (fieldName key, v))

def allows (kind : String) (tag : Option String) : Bool :=
  tag.all fun tag => tag = Scanner.openTag || tag = Scanner.coreTag ++ kind

/-- Whether a key adds other mappings. -/
def isMerge : Node → Bool
  | .scalar tag plain s => Kind.of? tag plain s = some .merge
  | _ => false

/-- The value of a key. Keys of several values are possible, keys of entries are not. -/
def keyValue? (node : Node) (v : Option Value) : Option Value :=
  match node with
  | .scalar tag plain s => if Kind.of? tag plain s = some .equals then some (.str s) else v
  | .sequence _ _ => v
  | .mapping _ _ => none

mutual

def nodeValue? : Node → Option Value
  | .scalar tag plain s => scalarValue? tag plain s
  | .sequence tag items => if allows "seq" tag then (nodeValues? items).map .arr else none
  | .mapping tag entries =>
    if allows "map" tag then (nodeEntries? entries).bind fun e => e.all?.map objectOf else none

def nodeValues? : List Node → Option (List Value)
  | [] => some []
  | node :: rest => do
    let v ← nodeValue? node
    let rest ← nodeValues? rest
    return v :: rest

def nodeEntries? : List (Node × Node) → Option Entries
  | [] => some {}
  | (key, node) :: rest => do
    let found ← nodeEntries? rest
    if isMerge key then
      if found.hasAdded then none
      else
        let added ← addedEntries? node
        return { found with added, hasAdded := true }
    else
      let k ← keyValue? key (nodeValue? key)
      let v ← nodeValue? node
      return { found with own := (k, v) :: found.own }

/-- The entries that a mapping, or several of which the first counts most, add to another. -/
def addedEntries? : Node → Option (List (Value × Value))
  | .mapping _ entries => (nodeEntries? entries).map fun e => e.added ++ e.own
  | .sequence _ items => addedItems? items
  | .scalar _ _ _ => none

/-- The entries that several mappings add to another, those of the last one first. -/
def addedItems? : List Node → Option (List (Value × Value))
  | [] => some []
  | .mapping _ entries :: rest => do
    let later ← addedItems? rest
    let e ← nodeEntries? entries
    return later ++ e.added ++ e.own
  | _ => none

end

/-- A document: a mapping with keys of any kind, or another value. -/
inductive Document where
  | mapping (entries : List (Value × Value))
  | value (v : Value)

/-- The document of a text; none for a faulty one. -/
def read? (cs : List Char) : Option Document := do
  match ← Node.ofChars? cs with
  | .mapping tag entries =>
    if allows "map" tag then
      let e ← nodeEntries? entries
      return .mapping (← e.all?)
    else none
  | node => return .value (← nodeValue? node)

/-- The entries of a document. Nothing, nought and what is empty stand for no entries at all. -/
def Document.entries? : Document → Option (List (Value × Value))
  | mapping entries => some entries
  | value v => if v.truthy then none else some []

def fields (entries : List (Value × Value)) : Assoc String Value :=
  entries.map fun (key, v) => (fieldName key, v)

def variableKey (key : Value) : Key :=
  match key with
  | .str s => .text s
  | .null => .other "NoneType"
  | .arr _ => .other "tuple"
  | key => .other key.kind

def asVariables (entries : List (Value × Value)) : Variables :=
  entries.map fun (key, v) => (variableKey key, .plain v)

end NoteTemplate.Yaml
