import NoteTemplate.Text.Blank
import NoteTemplate.Text.Case
import NoteTemplate.Text.Digit
import NoteTemplate.Text.Word

/-!
Ways of writing a name that consists of several words: in title case, in camel case, or with marks
between the words.
-/

namespace NoteTemplate.Text

/-- Whether a word can begin with a character: a letter in the wide sense, no digit. -/
def startsWord (c : Char) : Bool := isWord c && !isDecimalDigit c && c != '_'

/-- Each word, from its first letter to the next blank, with a capital at its front. -/
def titleCase (cs : List Char) : List Char :=
  match cs with
  | [] => []
  | c :: rest =>
    if startsWord c then
      have : (rest.dropWhile fun d => !isBlank d).length ≤ rest.length :=
        (List.dropWhile_suffix _).length_le
      capitalize (c :: rest.takeWhile fun d => !isBlank d) ++
        titleCase (rest.dropWhile fun d => !isBlank d)
    else c :: titleCase rest
termination_by cs.length
decreasing_by
  all_goals simp only [List.length_cons]
  all_goals omega

def isNameGap (c : Char) : Bool := isBlank c || c == '_' || c == '-'

def isCapital (c : Char) : Bool := 'A' ≤ c && c ≤ 'Z'

def isSmall (c : Char) : Bool := 'a' ≤ c && c ≤ 'z'

/-- Puts a capital at the front of each word behind the first one. The flag says whether the
character before belongs to a word. -/
def raiseWords (inWord : Bool) : List Char → List Char
  | [] => []
  | c :: rest =>
    (if isCapital c || (isWord c && !inWord) then upper [c] else [c]) ++
      raiseWords (isWord c) rest

/-- The words run together, each but the first with a capital at its front. -/
def camelCase (cs : List Char) : List Char :=
  let raised := match cs with
    | [] => []
    | c :: rest => (if isWord c then lower [c] else [c]) ++ raiseWords (isWord c) rest
  raised.filter fun c => !isNameGap c

/-- What stays of a gap at the end of a text, which is given backwards: its last character that is
no line break, with the line breaks behind it. -/
def lastGap (gap : List Char) : List Char :=
  let breaks := gap.takeWhile (· == '\n')
  match gap.drop breaks.length with
  | last :: _ => last :: breaks
  | [] => gap

/-- Drops the gaps between words and puts a capital behind each. `gap` is the gap in front of the
text, backwards. -/
def closeGapsFrom (gap : List Char) : List Char → List Char
  | [] => lastGap gap
  | c :: rest =>
    if isNameGap c then closeGapsFrom (c :: gap) rest
    else (if gap = [] then [c] else upper [c]) ++ closeGapsFrom [] rest

/-- Drops the gaps between words and puts a capital behind each. Of a gap at the end of the text a
part stays. -/
def closeGaps (cs : List Char) : List Char := closeGapsFrom [] cs

/-- The words run together, each with a capital at its front. -/
def pascalCase (cs : List Char) : List Char :=
  let closed := closeGaps cs
  upper (closed.take 1) ++ closed.drop 1

/-- Puts a mark where a small letter, as a predicate has it, meets a capital. -/
def markCapitals (small : Char → Bool) (mark : Char) : List Char → List Char
  | c :: d :: rest =>
    if small c && isCapital d then c :: mark :: markCapitals small mark (d :: rest)
    else c :: markCapitals small mark (d :: rest)
  | cs => cs

/-- Puts a mark in place of each run of gaps. The flag says whether the character before belongs to
such a run. -/
def markGaps (isGap : Char → Bool) (mark : Char) (inGap : Bool) : List Char → List Char
  | [] => []
  | c :: rest =>
    if isGap c then
      if inGap then markGaps isGap mark true rest else mark :: markGaps isGap mark true rest
    else c :: markGaps isGap mark false rest

/-- Small words with hyphens between them. -/
def kebabCase (cs : List Char) : List Char :=
  lower (markGaps (fun c => isBlank c || c == '_') '-' false (markCapitals isSmall '-' cs))

/-- Small words with underscores between them. -/
def snakeCase (cs : List Char) : List Char :=
  lower (markGaps (fun c => isBlank c || c == '-') '_' false (markCapitals isSmall '_' cs))

/-- Puts a space in front of a capital that begins a word behind another capital. -/
def splitCapitals : List Char → List Char
  | c :: d :: e :: rest =>
    if isCapital c && isCapital d && isSmall e then c :: ' ' :: splitCapitals (d :: e :: rest)
    else c :: splitCapitals (d :: e :: rest)
  | cs => cs

/-- The words of a name in camel case, small and with spaces between them. -/
def spacedWords (cs : List Char) : List Char :=
  lower (splitCapitals (markCapitals (fun c => isSmall c || isAsciiDigit c) ' ' cs))

end NoteTemplate.Text
