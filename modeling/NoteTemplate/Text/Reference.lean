import Std.Data.HashMap
import NoteTemplate.Text.Digit
import NoteTemplate.Text.ReferenceTable
import NoteTemplate.Text.Search
import NoteTemplate.Text.Word

/-!
Character references of HTML, such as `&amp;` and `&#38;`.
-/

namespace NoteTemplate.Text

def pairs : List (List Char) → List (List Char × List Char)
  | name :: form :: rest => (name, form) :: pairs rest
  | _ => []

def namedReferences : Std.HashMap String (List Char) :=
  Std.HashMap.ofList <| (pairs (splitOnChar ' ' namedReferenceText.toList)).map
    fun (name, form) =>
      (String.ofList name, (splitOnChar '+' form).map fun digits => Char.ofNat (hexValue digits))

/-- The characters of each name that needs no semicolon. -/
def shortReferences : Std.HashMap String (List Char) :=
  Std.HashMap.ofList <| (splitOnChar ' ' shortReferenceText.toList).filterMap fun name =>
    (namedReferences.get? (String.ofList name)).map fun form => (String.ofList name, form)

/-- The characters from 128 to 159 of the western code page that web pages mean by these numbers;
the gaps stand for themselves. -/
def westernChars : List Nat := [
  0x20AC, 0x81, 0x201A, 0x192, 0x201E, 0x2026, 0x2020, 0x2021, 0x2C6, 0x2030, 0x160, 0x2039, 0x152,
  0x8D, 0x17D, 0x8F, 0x90, 0x2018, 0x2019, 0x201C, 0x201D, 0x2022, 0x2013, 0x2014, 0x2DC, 0x2122,
  0x161, 0x203A, 0x153, 0x9D, 0x17E, 0x178]

/-- Stands for a character that cannot be shown. -/
def replacementChar : Char := Char.ofNat 0xFFFD

/-- Whether a code point is a control character or one that is never assigned. -/
def isUnusedCode (n : Nat) : Bool :=
  (1 ≤ n && n ≤ 8) || n == 11 || (14 ≤ n && n ≤ 31) || (127 ≤ n && n ≤ 159) ||
    (0xFDD0 ≤ n && n ≤ 0xFDEF) || n % 0x10000 == 0xFFFE || n % 0x10000 == 0xFFFF

/-- What the reference to a code point stands for. -/
def numberedChars (n : Nat) : List Char :=
  if n = 0 then [replacementChar]
  else if n = 13 then ['\r']
  else if 128 ≤ n && n ≤ 159 then [Char.ofNat (westernChars.getD (n - 128) 0xFFFD)]
  else if (0xD800 ≤ n && n ≤ 0xDFFF) || 0x10FFFF < n then [replacementChar]
  else if isUnusedCode n then []
  else [Char.ofNat n]

def dropSemicolon : List Char → List Char
  | ';' :: rest => rest
  | cs => cs

def isReferenceChar (c : Char) : Bool :=
  !(c == '\t' || c == '\n' || c.toNat == 12 || c == ' ' || c == '<' || c == '&' || c == '#' ||
    c == ';')

/-- The longest beginning of a name, not shorter than two characters, that is a name without a
semicolon, with its characters and what is left of the name. -/
def longestShort? (name : List Char) : Nat → Option (List Char × List Char)
  | 0 | 1 => none
  | n + 1 =>
    match shortReferences.get? (String.ofList (name.take (n + 1))) with
    | some form => some (form, name.drop (n + 1))
    | none => longestShort? name n

/-- What the reference behind an ampersand stands for, and the text behind it. -/
def readReference? (cs : List Char) : Option (List Char × List Char) :=
  match cs with
  | '#' :: rest =>
    let digits := rest.takeWhile isAsciiDigit
    if digits ≠ [] then
      some (numberedChars (digitsValue digits), dropSemicolon (rest.drop digits.length))
    else
      match rest with
      | x :: rest =>
        let digits := rest.takeWhile isHexDigit
        if (x = 'x' || x = 'X') && digits ≠ [] then
          some (numberedChars (hexValue digits), dropSemicolon (rest.drop digits.length))
        else none
      | [] => none
  | cs =>
    let name := (cs.take 32).takeWhile isReferenceChar
    let rest := cs.drop name.length
    if name = [] then none
    else
      match rest with
      | ';' :: after =>
        match namedReferences.get? (String.ofList name) with
        | some form => some (form, after)
        | none => (longestShort? name name.length).map fun (form, tail) => (form ++ tail, rest)
      | rest => (longestShort? name name.length).map fun (form, tail) => (form ++ tail, rest)

/-- A text with its references resolved, where a number bounds the steps. -/
def resolveFrom : Nat → List Char → List Char
  | 0, cs => cs
  | _ + 1, [] => []
  | fuel + 1, c :: rest =>
    if c = '&' then
      match readReference? rest with
      | some (form, after) => form ++ resolveFrom fuel after
      | none => c :: resolveFrom fuel rest
    else c :: resolveFrom fuel rest

/-- A text with its character references resolved; what is no reference stays as it is. -/
def resolveReferences (cs : List Char) : List Char := resolveFrom cs.length cs

end NoteTemplate.Text
