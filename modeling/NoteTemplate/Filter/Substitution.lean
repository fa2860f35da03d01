import NoteTemplate.Filter.Registry
import NoteTemplate.Pattern.Reader
import NoteTemplate.Schema
import NoteTemplate.Slot
import NoteTemplate.Text.FileName
import NoteTemplate.Text.Percent
import NoteTemplate.Value.Path

/-!
Filters that replace parts of a text: listed substitutions, splitting, escapes, names of files, the
tags of a page, and patterns with slots.
-/

namespace NoteTemplate.Filter

open NoteTemplate.Text

/-- The text to look for and its replacement in one part of a parameter; nothing replaces it when
the replacement is missing. -/
def replacementPair? (part : String) : Option (String × String) :=
  match Param.split ':' part with
  | [] => none
  | search :: more => some (Param.decode search, ((more.head?).map Param.decode).getD "")

/-- Replaces every occurrence of a text. An empty text occurs nowhere. -/
def replaceText (s : String) (pair : String × String) : String :=
  if pair.1 = "" then s
  else String.ofList (replaceAll pair.1.toList pair.2.toList s.toList)

def replace (s : String) (param : Option String) : String :=
  match param with
  | none => s
  | some text =>
    (Param.split ',' (Param.stripParens text)).foldl
      (fun s part => match replacementPair? part with
        | some pair => replaceText s pair
        | none => s) s

/-- The parts of a text as values; a group of a pattern that took no part is null. -/
def partsValue (parts : List (Option (List Char))) : Value :=
  .arr (parts.map fun part => match part with
    | some cs => .str (String.ofList cs)
    | none => .null)

/-- The parts of a text between separators. A separator of one character stands for itself, a
longer one is a pattern, and without one each character is a part. -/
def splitParts? (separator : List Char) (cs : List Char) : Option (List (Option (List Char))) :=
  match separator with
  | [] => some (cs.map fun c => some [c])
  | [c] => some ((splitOnChar c cs).map some)
  | pattern => (Pattern.ofChars? pattern).map fun p => Pattern.split p cs

def split? (s : String) (param : Option String) : Option String :=
  match param with
  | none => some (Value.arr [.str s]).toSpacedJson
  | some _ =>
    (splitParts? (Param.single param).toList s.toList).map fun parts =>
      (partsValue parts).toSpacedJson

/-- Takes the backslash off quotation marks, and turns escaped line breaks into real ones. -/
def unescapeText (s : String) : String :=
  String.ofList (replaceAll ['\\', 'n'] ['\n'] (replaceAll ['\\', '"'] ['"'] s.toList))

/-- Resolves percent signs; text in another encoding stays as it is. -/
def decodeUri (s : String) : String := ((percentDecode? s.toList).map String.ofList).getD s

def safeName (s : String) (param : Option String) : String :=
  String.ofList (fileName (Platform.ofName (Param.single param)) s.toList)

/-- Drops everything between angle brackets. A tag that is never closed goes up to the end. -/
def dropTags (cs : List Char) : List Char :=
  match cs with
  | [] => []
  | c :: rest =>
    if c = '<' then
      match rest with
      | d :: more =>
        if d = '>' then c :: dropTags (d :: more)
        else
          have : (more.dropWhile (· ≠ '>')).length ≤ more.length :=
            (List.dropWhile_suffix _).length_le
          dropTags ((more.dropWhile (· ≠ '>')).drop 1)
      | [] => [c]
    else c :: dropTags rest
termination_by cs.length
decreasing_by
  all_goals simp only [List.length_cons, List.length_drop]
  all_goals omega

/-- A pattern that matches one of given texts in any letter case. -/
def anyOf (texts : List (List Char)) : Pattern :=
  texts.foldr (fun text p =>
    .alt (text.foldr (fun c p => .seq (Pattern.literal { anyCase := true } c) p) .empty) p) .never

def otherTag (names : List (List Char)) : Pattern.Compiled :=
  let slash : Pattern := .repeated (Pattern.literal {} '/') 0 (some 1) .greedy
  let listed : Pattern := .seq slash (.seq (anyOf names) (.anchor (.wordEdge false)))
  let body : Pattern := .repeated (.one ⟨[.range '>' '>'], true, false⟩) 1 none .greedy
  ⟨.seq (Pattern.literal {} '<') (.seq (.ahead listed true) (.seq body (Pattern.literal {} '>'))), 0⟩

/-- At most one empty line in a row: more than two line breaks become two. -/
def squeezeBreaks (cs : List Char) : List Char := go 0 cs
where
  /-- Counts the line breaks in front of a text, up to two. -/
  go (breaks : Nat) : List Char → List Char
    | [] => []
    | c :: rest =>
      if c = '\n' then
        if breaks < 2 then c :: go (breaks + 1) rest else go breaks rest
      else c :: go 0 rest

/-- Drops the tags of a page, except those that a parameter names, and resolves character
references. -/
def stripTags (s : String) (param : Option String) : String :=
  let keep := ((splitOnChar ',' (Param.single param).toList).map trim).filter (· ≠ [])
  let dropped :=
    if keep = [] then dropTags s.toList
    else Pattern.replace (otherTag keep) (fun _ _ => []) s.toList
  let plain := (resolveReferences dropped).map fun c => if c.toNat = 0xA0 then ' ' else c
  String.ofList (trim (squeezeBreaks plain))

/-- The index in front of a closing bracket, and what follows the bracket. -/
def index? (cs : List Char) : Option (List Char × List Char) :=
  match cs with
  | [] => none
  | c :: rest =>
    if isWord c then
      match rest with
      | ']' :: after => some ([c], after)
      | _ => (index? rest).map fun (index, after) => (c :: index, after)
    else none

/-- What follows an index is shorter than the text with it. -/
theorem length_of_index? {cs index after : List Char} (h : index? cs = some (index, after)) :
    after.length < cs.length := by
  induction cs generalizing index with
  | nil => simp [index?] at h
  | cons c rest ih =>
    simp only [index?] at h
    split at h
    · split at h
      · simp only [Option.some.injEq, Prod.mk.injEq] at h
        simp only [← h.2, List.length_cons]
        omega
      · simp only [Option.map_eq_some_iff, Prod.exists, Prod.mk.injEq] at h
        obtain ⟨inner, outer, hindex, _, rfl⟩ := h
        have := ih hindex
        simp only [List.length_cons]
        omega
    · simp at h

def dottedPath (cs : List Char) : List Char :=
  match cs with
  | [] => []
  | c :: rest =>
    if c = '[' then
      match h : index? rest with
      | some (index, after) =>
        have : after.length < rest.length := length_of_index? h
        '.' :: index ++ dottedPath after
      | none => c :: dottedPath rest
    else c :: dottedPath rest
termination_by cs.length

/-- The text that fills a slot: what its path leads to in the data, unless nothing is there. -/
def fieldText (data : Value) (path : List Char) : Except Fault (List Char) := do
  let found ← data.walk (String.ofList (dottedPath path))
  return if Schema.isFilled found then found.text.toList else []

/-- A pattern filled with the fields of a value. Text that is no JSON is the field `value`. -/
def fillPattern? (s : String) (param : Option String) : Option String :=
  match param with
  | none => some s
  | some _ =>
    let data := (Value.ofJson? s).getD (.obj [("value", .str s)])
    match Piece.fill (fieldText data) (Piece.ofChars (Param.single param).toList) with
    | .ok filled => some (String.ofList filled)
    | .error _ => none

/-- The filters that replace parts of a text. -/
def substitution : List Filter := [
  ofParam "replace" replace "Replace text: replace:\"old\":\"new\"",
  ofFallible "split" split? "Split into an array: split:\",\"",
  ofText "unescape" unescapeText "Unescape \\\" and \\n",
  ofText "decode_uri" decodeUri "Decode percent-encoding",
  ofParam "safe_name" safeName "Make a safe file name: safe_name:windows",
  ofParam "strip_tags" stripTags "Remove HTML tags: strip_tags:(\"p,b\")",
  ofFallible "template" fillPattern? "Fill a pattern: template:\"$\x7btitle\x7d\""]

end NoteTemplate.Filter
