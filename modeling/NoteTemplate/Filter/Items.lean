import NoteTemplate.Decimal.Reader
import NoteTemplate.Filter.Registry
import NoteTemplate.Value.Json.Reader

/-!
Filters for arrays and objects: picking items, joining them, and changing their order.
-/

namespace NoteTemplate.Filter

open NoteTemplate.Text

def itemsOf? (s : String) : Option (List Value) :=
  match Value.ofJson? s with
  | some (.arr items) => some items
  | _ => none

def first (s : String) : String := (((itemsOf? s).bind List.head?).map Value.text).getD s

def last (s : String) : String := (((itemsOf? s).bind List.getLast?).map Value.text).getD s

/-- The text between joined items: a parameter, read like text inside quotes if that is possible. -/
def joinSeparator (param : Option String) : String :=
  match param with
  | none => ","
  | some _ =>
    let raw := (Param.single param).toList
    let quoted := '"' :: (replaceAll ['"'] ['\\', '"'] raw ++ ['"'])
    match Value.ofJson? (String.ofList quoted) with
    | some (.str s) => s
    | _ => String.ofList raw

/-- The texts of the items with a separator between neighbours. -/
def join (s : String) (param : Option String) : String :=
  match itemsOf? s with
  | some items => joinWith (joinSeparator param) (items.map Value.text)
  | none => s

/-- The integer at the front of a text: `some none` if there is none, and `none` for one that cannot
be read. -/
def leadingIndex? (s : String) : Option (Option Int) :=
  let (sign, digits) := match trimStart s.toList with
    | '-' :: rest => (['-'], rest.takeWhile isDecimalDigit)
    | rest => ([], rest.takeWhile isDecimalDigit)
  if digits = [] then some none
  else (Decimal.readInt? (String.ofList (sign ++ digits))).map some

/-- A place in a list of some length. Negative places count from the end; places outside of the
list mean its ends. -/
def placeIn (length : Nat) (index : Int) : Nat :=
  if index < 0 then ((length : Int) + index).toNat else min index.toNat length

/-- The items from one place up to another; a missing place means the end on its side. -/
def sublist {α : Type} (start stop : Option Int) (items : List α) : List α :=
  let start := (start.map (placeIn items.length)).getD 0
  let stop := (stop.map (placeIn items.length)).getD items.length
  (items.take stop).drop start

/-- A part of an array or of a text. An array of one item becomes that item. -/
def slice? (s : String) (param : Option String) : Option String :=
  if param = none || s = "" then some s
  else do
    let parts := Param.split ',' (Param.single param)
    let start ← leadingIndex? ((parts[0]?).getD "")
    let stop ← leadingIndex? ((parts[1]?).getD "")
    match itemsOf? s with
    | some items =>
      match sublist start stop items with
      | [v] => return v.text
      | items => return (Value.arr items).toJson
    | none => return String.ofList (sublist start stop s.toList)

def isMissing (s : String) : Bool := s == "" || s == "undefined" || s == "null"

/-- Which items an expression of positions means. Positions count from one. -/
inductive Positions where
  | only (n : Nat)
  | multiples (n : Nat)
  | starting (n : Nat)
  /-- The listed positions in each group of some size. -/
  | inGroups (listed : List Nat) (size : Int)
deriving Repr, DecidableEq

/-- Whether a text consists of decimal digits. -/
def isNumeral (cs : List Char) : Bool := cs ≠ [] && cs.all isDecimalDigit

/-- The positions listed in a text; entries that are no digits or zero are left out. There are none
at all if a digit has no decimal value. -/
def listedPositions? (cs : List Char) : Option (List Nat) :=
  (((splitOnChar ',' cs).map trim).filter fun part => part ≠ [] && part.all isDigit).foldrM
    (fun part listed => (Decimal.readInt? (String.ofList part)).map fun n =>
      if 0 < n then n.toNat :: listed else listed) []

/-- The positions that an expression means: `some none` for an expression that means none, and
`none` for one that is at fault. -/
def readPositions? (cs : List Char) : Option (Option Positions) :=
  match cutAtChar? ':' cs with
  | some (listed, size) => do
    let listed ← listedPositions? listed
    let size ← Decimal.readInt? (String.ofList (trim size))
    return some (.inGroups listed size)
  | none =>
    let number? (digits : List Char) : Option Nat :=
      (Decimal.readInt? (String.ofList digits)).map Int.toNat
    if isNumeral cs then (number? cs).map fun n => some (.only n)
    else if cs.getLast? = some 'n' && isNumeral cs.dropLast then
      (number? cs.dropLast).map fun n => some (.multiples n)
    else match cs with
      | 'n' :: '+' :: digits =>
        if isNumeral digits then (number? digits).map fun n => some (.starting n) else some none
      | _ => some none

/-- Whether an item is meant, given its place from zero on. Groups and multiples of zero have no
answer. -/
def Positions.holds? (p : Positions) (place : Nat) : Option Bool :=
  match p with
  | only n => some (place + 1 == n)
  | multiples n => if n = 0 then none else some ((place + 1) % n == 0)
  | starting n => some (n ≤ place + 1)
  | inGroups listed size =>
    if size = 0 then none
    else
      let position := Int.fmod place size + 1
      some (0 < position && listed.contains position.toNat)

def Positions.select? (p : Positions) (items : List Value) : Option (List Value) :=
  (items.zipIdx.filterMapM fun (v, place) =>
    (p.holds? place).map fun meant => if meant then some v else none)

/-- The items of an array at positions that a parameter gives. -/
def nth? (s : String) (param : Option String) : Option String :=
  if isMissing s then some s
  else
    match itemsOf? s with
    | none => some s
    | some items =>
      match param with
      | none => some (Value.arr items).toJson
      | some _ => do
        match ← readPositions? (trim (Param.single param).toList) with
        | some p => return (Value.arr (← p.select? items)).toJson
        | none => return s

/-- An array with texts behind its items. Another value counts as an array of its text. -/
def merge (s : String) (param : Option String) : String :=
  if isMissing s then "[]"
  else
    let more := (Param.list param).map Value.str
    match Value.ofJson? s with
    | none | some .null => s
    | some (.arr items) => (Value.arr (items ++ more)).toJson
    | some _ => (Value.arr (.str s :: more)).toJson

/-- The items whose mark no earlier item has. -/
def dedupBy {α : Type} (mark : α → String) (seen : List String) : List α → List α
  | [] => []
  | a :: rest =>
    if seen.contains (mark a) then dedupBy mark seen rest
    else a :: dedupBy mark (mark a :: seen) rest

/-- Drops duplicates: of equal items of an array the first stays, of fields of an object with equal
values the last. -/
def unique (s : String) : String :=
  match Value.ofJson? s with
  | some (.arr items) => (Value.arr (dedupBy Value.toJson [] items)).toJson
  | some (.obj fields) =>
    let kept := dedupBy (fun (_, v) => v.toJson) [] fields.reverse
    (Value.obj kept.reverse).toJson
  | _ => s

/-- An object as an array of pairs, of keys or of values. -/
def objectParts (s : String) (param : Option String) : String :=
  match Value.ofJson? s with
  | some (.obj fields) =>
    let mode := Param.single param
    if mode = "array" then
      (Value.arr (fields.map fun (name, v) => .arr [.str name, v])).toJson
    else if mode = "keys" then (Value.arr (fields.map fun (name, _) => .str name)).toJson
    else if mode = "values" then (Value.arr (fields.map fun (_, v) => v)).toJson
    else s
  | _ => s

/-- The number of items, fields or characters. -/
def length (s : String) : String :=
  match Value.ofJson? s with
  | some (.arr items) => Nat.repr items.length
  | some (.obj fields) => Nat.repr fields.length
  | _ => Nat.repr s.length

/-- An array, object or text from its end to its front. -/
def reverse (s : String) : String :=
  if isMissing s then ""
  else
    match Value.ofJson? s with
    | some (.arr items) => (Value.arr items.reverse).toJson
    | some (.obj fields) => (Value.obj fields.reverse).toJson
    | some _ => s
    | none => String.ofList s.toList.reverse

def collections : List Filter := [
  ofText "first" first "First element of an array",
  ofText "last" last "Last element of an array",
  ofParam "join" join "Join array items: join:\", \"",
  ofFallible "slice" slice? "Slice an array or string: slice:0,5",
  ofFallible "nth" nth? "Pick items by position: nth:3, nth:5n, nth:n+7, nth:1,2:7",
  ofParam "merge" merge "Append items to an array: merge:(\"a\",\"b\")",
  ofText "unique" unique "Remove duplicate items",
  ofParam "object" objectParts "Object to array|keys|values",
  ofText "length" length "Number of items, keys or characters",
  ofText "reverse" reverse "Reverse an array, object or string"]

end NoteTemplate.Filter
