import NoteTemplate.Value.Json.Reader
import NoteTemplate.Variables

/-!
Names that ask for the structured data of a page, such as `schema:@Article:author`. The type may be
left out, and items of an array are asked for with `[0]` or, all of them, with `[*]`.
-/

namespace NoteTemplate.Schema

open NoteTemplate.Text

/-- The beginning of a name that asks for structured data. -/
def mark : String := "schema:"

def isName (name : String) : Bool := startsWith mark.toList name.toList

/-- What precedes the key in the name of a variable that holds structured data. -/
def wrappedMark : String := "\x7b\x7b" ++ mark

/-- Whether the name of a variable with a type ends in a key. -/
def matchesShort (key name : String) : Bool :=
  let cs := name.toList
  startsWith wrappedMark.toList cs && cs.contains '@' &&
    endsWith (':' :: key.toList ++ ['\x7d', '\x7d']) cs

/-- The first variable with a type whose name ends in a key. -/
def findShort? (key : String) : Variables → Except Fault (Option String)
  | [] => .ok none
  | (.other kind, _) :: _ => .error (.keyNotText kind)
  | (.text name, _) :: rest => if matchesShort key name then .ok (some name) else findShort? key rest

/-- The name of the variable that holds the data of a key: the exact one, or if the key has no type,
the first one with a type. -/
def find? (key : String) (vars : Variables) : Except Fault (Option String) :=
  let exact := Value.wrapped (mark ++ key)
  if vars.has exact then .ok (some exact)
  else if key.toList.contains '@' then .ok none
  else findShort? key vars

/-- Which items of an array are asked for. -/
inductive Pick where
  | all
  | one (digits : List Char)
deriving Repr, DecidableEq

def readPick? (cs : List Char) : Option (Pick × List Char) :=
  match cs with
  | '*' :: ']' :: rest => some (.all, rest)
  | _ =>
    let digits := cs.takeWhile isDecimalDigit
    match cs.dropWhile isDecimalDigit with
    | ']' :: rest => if digits = [] then none else some (.one digits, rest)
    | _ => none

/-- The key before the first brackets with an item in them, the item, and the path behind. -/
def cutPick? : List Char → Option (List Char × Pick × List Char)
  | [] => none
  | c :: rest =>
    match (if c = '[' then readPick? rest else none) with
    | some (pick, after) => some ([], pick, after)
    | none => (cutPick? rest).map fun (key, pick, after) => (c :: key, pick, after)

/-- What the names of a path lead to through objects. -/
def property (v : Value) : List String → Value
  | [] => v
  | name :: rest =>
    match v with
    | .obj fields => property ((Assoc.get? fields name).getD .null) rest
    | _ => .null

/-- Whether there is anything in a value: neither nothing, nor zero, nor an empty collection. -/
def isFilled : Value → Bool
  | .obj fields => !fields.isEmpty
  | v => v.truthy

/-- The structure of what a variable holds; text is read as JSON. -/
def structureOf : Datum → Value
  | .plain (.str s) => (Value.ofJson? s).getD .null
  | .plain v => v
  | .deferred _ => .null

/-- The items that are asked for, or their properties. -/
def pick (items : List Value) (which : Pick) (path : List String) : Except Fault Value :=
  match which with
  | .all => .ok (.arr ((items.map fun item => property item path).filter isFilled))
  | .one digits => do
    let position ← Value.indexOfDigits (String.ofList digits)
    match items[position]? with
    | some item => return property item path
    | none => return .null

/-- The data that a name asks for; null if there is none. -/
def lookup (name : String) (vars : Variables) : Except Fault Datum := do
  let body := (dropPrefix? mark.toList name.toList).getD name.toList
  let key := trim body
  if key = [] then return Datum.null
  let cut := if key.contains '\n' then none else cutPick? key
  match cut with
  | none =>
    match ← find? (String.ofList key) vars with
    | some found => return vars.get found
    | none => return Datum.null
  | some (base, which, rest) =>
    match ← find? (String.ofList base) vars with
    | none => return Datum.null
    | some found =>
      match structureOf (vars.get found) with
      | .arr items =>
        let path := match rest with
          | '.' :: path => path
          | path => path
        let names := ((splitOnChar '.' path).filter (· ≠ [])).map String.ofList
        return .plain (← pick items which names)
      | _ => return Datum.null

end NoteTemplate.Schema
