import NoteTemplate.Decimal.Reader
import NoteTemplate.Filter.Registry
import NoteTemplate.Pattern.Reader
import NoteTemplate.Text.Digit
import NoteTemplate.Value.Leaves

/-!
The filter that writes numbers with a fixed count of decimals and a mark between groups of three
digits.
-/

namespace NoteTemplate.Filter

open NoteTemplate.Text

/-- A piece of a mark: a character, or a copy of the last group of digits. -/
inductive MarkPiece where
  | char (c : Char)
  | lastGroup
  | nothing
deriving Repr, DecidableEq

/-- The piece for the group of a number: the whole match is empty, and there is one group. -/
def groupPiece? (n : Int) : Option MarkPiece :=
  if n = 0 then some .nothing else if n = 1 then some .lastGroup else none

/-- The control characters that a letter behind a backslash stands for. -/
def markEscape? (c : Char) : Option Char :=
  if c = 'a' then some (Char.ofNat 7)
  else if c = 'b' then some (Char.ofNat 8)
  else if c = 'f' then some (Char.ofNat 12)
  else if c = 'n' then some '\n'
  else if c = 'r' then some '\r'
  else if c = 't' then some '\t'
  else if c = 'v' then some (Char.ofNat 11)
  else if c = '\\' then some '\\'
  else none

/-- The character of three or fewer octal digits, within one byte. -/
def octalChar (digits : List Char) : Char :=
  Char.ofNat (octalValue digits % 256)

/-- The pieces that the characters behind a backslash write, and how many characters those are. -/
def readMarkEscape? (cs : List Char) : Option (List MarkPiece × Nat) :=
  match cs with
  | [] => none
  | 'g' :: '<' :: rest =>
    match cutAtChar? '>' rest with
    | some (name, _) =>
      ((Decimal.readInt? (String.ofList name)).bind groupPiece?).map fun piece =>
        ([piece], name.length + 3)
    | none => none
  | '0' :: rest =>
    let more := (rest.take 2).takeWhile isOctalDigit
    some ([.char (octalChar more)], more.length + 1)
  | c :: rest =>
    if isAsciiDigit c then
      let more := (rest.take 1).takeWhile isAsciiDigit
      let octal := (c :: rest).take 3
      if octal.length = 3 && octal.all isOctalDigit then
        if '3' < c then none else some ([.char (octalChar octal)], 3)
      else (groupPiece? (digitsValue (c :: more))).map fun piece => ([piece], more.length + 1)
    else
      match markEscape? c with
      | some d => some ([.char d], 1)
      | none => if isAsciiLetter c then none else some ([.char '\\', .char c], 1)

/-- The pieces of a mark. A backslash introduces an escape or the number of a group; a mark with a
backslash that does neither is at fault. -/
def readMark? (cs : List Char) : Option (List MarkPiece) :=
  match cs with
  | [] => some []
  | '\\' :: rest => do
    let (pieces, size) ← readMarkEscape? rest
    return pieces ++ (← readMark? (rest.drop size))
  | c :: rest => (readMark? rest).map (.char c :: ·)
termination_by cs.length
decreasing_by
  all_goals simp only [List.length_cons, List.length_drop]
  all_goals omega

def markText (pieces : List MarkPiece) (lastGroup : List Char) : List Char :=
  pieces.flatMap fun piece => match piece with
    | .char c => [c]
    | .lastGroup => lastGroup
    | .nothing => []

/-- The places between two digits with whole groups of three up to the end of the digits. -/
def groupEdge : Pattern.Compiled := Pattern.ofString "\\B(?=(\\d\x7b3\x7d)+(?!\\d))"

/-- Digits with a mark between groups of three. A mark at fault makes this fail. -/
def groupDigits? (mark digits : List Char) : Option (List Char) :=
  (readMark? mark).map fun pieces =>
    Pattern.replace groupEdge (fun s found => markText pieces (found.text s 1)) digits

/-- How numbers are written. -/
structure NumberStyle where
  decimals : Int := 0
  point : List Char := ['.']
  /-- Stands between groups of three digits. -/
  thousands : List Char := [',']
deriving Repr, DecidableEq

def maxDecimals : Nat := 2147483647

/-- A number in a style. A negative count of decimals and a mark at fault make this fail. -/
def NumberStyle.write? (style : NumberStyle) (x : Float) : Option String := do
  if style.decimals < 0 || (maxDecimals : Int) < style.decimals then none
  let fixed := (Decimal.fixed style.decimals.toNat x.abs).toList
  let whole := fixed.takeWhile (· ≠ '.')
  let fraction := fixed.drop (whole.length + 1)
  let grouped ← groupDigits? style.thousands whole
  let isZero := fixed.all fun c => c == '0' || c == '.'
  let sign := if x < 0.0 && !isZero then ['-'] else []
  return String.ofList (sign ++ grouped ++
    (if 0 < style.decimals then style.point ++ fraction else []))

/-- The number at the front of a text: digits, with a fraction or without. -/
def leadingNumber? (s : String) : Option Float :=
  let (sign, rest) := match trimStart s.toList with
    | '-' :: rest => (['-'], rest)
    | rest => ([], rest)
  let whole := rest.takeWhile isDecimalDigit
  let fraction := match rest.drop whole.length with
    | '.' :: rest =>
      let digits := rest.takeWhile isDecimalDigit
      if digits = [] then [] else '.' :: digits
    | _ => []
  if whole = [] then none else Decimal.readFloat? (String.ofList (sign ++ whole ++ fraction))

/-- A number, or the number at the front of a text, in a style. Anything else stays as it is. -/
def NumberStyle.writeLeaf? (style : NumberStyle) (v : Value) : Option Value :=
  match v with
  | .int n => do return .str (← style.write? (← Decimal.ofInt? n))
  | .float x => (style.write? x).map .str
  | .str s =>
    match leadingNumber? s with
    | some x => (style.write? x).map .str
    | none => some v
  | v => some v

/-- The style that parameters ask for: decimals, the mark before them, and the mark between
groups. -/
def NumberStyle.ofParam (param : Option String) : NumberStyle :=
  let args := Param.list param
  { decimals := ((args[0]?).bind Decimal.readInt?).getD 0
    point := ((args[1]?).map String.toList).getD ['.']
    thousands := ((args[2]?).map String.toList).getD [','] }

/-- Numbers in the style that parameters ask for, also inside arrays and objects. -/
def formatNumber? (s : String) (param : Option String) : Option String :=
  let style := NumberStyle.ofParam param
  match Value.ofJson? s with
  | none => (style.writeLeaf? (.str s)).map Value.text
  | some (.int n) => (style.writeLeaf? (.int n)).map Value.text
  | some (.float x) => (style.writeLeaf? (.float x)).map Value.text
  | some (.arr items) => ((Value.arr items).mapLeaves? id style.writeLeaf?).map Value.toJson
  | some (.obj fields) => ((Value.obj fields).mapLeaves? id style.writeLeaf?).map Value.toJson
  | some _ => some s

def grouping : List Filter := [
  ofFallible "number_format" formatNumber? "Format a number: number_format:2,\".\",\",\""]

end NoteTemplate.Filter
