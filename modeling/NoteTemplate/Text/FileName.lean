import NoteTemplate.Text.Blank
import NoteTemplate.Text.Case
import NoteTemplate.Text.Search
import NoteTemplate.Text.Word

/-!
Names of files. Each platform refuses some characters and names; what it refuses is taken out or
marked.
-/

namespace NoteTemplate.Text

/-- The platforms whose rules for names are known. `strict` follows the rules of all of them. -/
inductive Platform where
  | windows
  | mac
  | linux
  | strict
deriving Repr, DecidableEq

/-- The platform of a name, in any letter case; the strict rules for a name that is unknown. -/
def Platform.ofName (name : String) : Platform :=
  let name := strip (toLower name)
  if name = "windows" then .windows
  else if name = "mac" then .mac
  else if name = "linux" then .linux
  else .strict

/-- Characters that mark links between notes and are refused on every platform. -/
def isLinkMark (c : Char) : Bool := c == '#' || c == '|' || c == '^' || c == '[' || c == ']'

def isControl (c : Char) : Bool := c.toNat < 32

def Platform.refuses (platform : Platform) (c : Char) : Bool :=
  isControl c || c == '/' ||
    match platform with
    | linux => false
    | mac => c == ':'
    | windows | strict =>
      c == '<' || c == '>' || c == ':' || c == '"' || c == '\\' || c == '|' || c == '?' || c == '*'

/-- The names of devices, which may be followed by a digit or not. -/
def deviceNames : List (List Char × Bool) := [
  ("con".toList, false), ("prn".toList, false), ("aux".toList, false), ("nul".toList, false),
  ("com".toList, true), ("lpt".toList, true)]

/-- What follows the name of a device at the front of a text, in any letter case. -/
def dropDevice? (cs : List Char) : Option (List Char) :=
  deviceNames.findSome? fun (name, numbered) =>
    match dropPrefix? name (cs.map Char.toLower) with
    | none => none
    | some _ =>
      match numbered, cs.drop name.length with
      | false, rest => some rest
      | true, c :: rest => if isAsciiDigit c then some rest else none
      | true, [] => none

/-- Whether a name means a device: the name of one, alone or with an extension. -/
def isDeviceName (cs : List Char) : Bool :=
  match dropDevice? cs with
  | some [] => true
  | some (c :: _) => c == '.'
  | none => false

/-- The name behind a mark, if it means a device. -/
def markDevice (cs : List Char) : List Char := if isDeviceName cs then '_' :: cs else cs

/-- The name without blanks and points at its end. -/
def cutNameEnd (cs : List Char) : List Char := trimEndBy (fun c => isBlank c || c == '.') cs

/-- A mark in place of a point at the front, which hides a file. -/
def markHidden : List Char → List Char
  | '.' :: rest => '_' :: rest
  | cs => cs

def maxNameLength : Nat := 245

/-- A text as the name of a file, following the rules of a platform. -/
def fileName (platform : Platform) (cs : List Char) : List Char :=
  let kept := (cs.filter fun c => !isLinkMark c).filter fun c => !platform.refuses c
  let fitted := match platform with
    | .windows => cutNameEnd (markDevice kept)
    | .mac | .linux => markHidden kept
    | .strict => markHidden (cutNameEnd (markDevice kept))
  let name := (trimStartBy (· == '.') fitted).take maxNameLength
  if name = [] then "Untitled".toList else name

end NoteTemplate.Text
