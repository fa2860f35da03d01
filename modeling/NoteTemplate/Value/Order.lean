import NoteTemplate.Fault
import NoteTemplate.Value.Text
import NoteTemplate.Decimal.Reader
import NoteTemplate.Text.Case
import NoteTemplate.Text.Search

/-!
Truth, equality and order of values. Comparisons are loose: a number equals a text that writes it,
and truth values count as one and zero.
-/

namespace NoteTemplate.Value

/-- Whether a condition holds: null, the empty text, zero, false and the empty array do not. -/
def truthy : Value → Bool
  | null => false
  | bool b => b
  | int n => n != 0
  | float x => x != 0.0
  | str s => s != ""
  | arr items => !items.isEmpty
  | obj _ => true

/-- Whether a fallback replaces the value. -/
def nullish : Value → Bool
  | null => true
  | str s => s == ""
  | arr items => items.isEmpty
  | _ => false

/-- Whether a floating-point number is equal to an integer. -/
def equalsInt (x : Float) (n : Int) : Bool := Decimal.whole? x == some n

/-- The integer that a truth value counts as. -/
def ofTruth (b : Bool) : Int := if b then 1 else 0

mutual

/-- Equality of content: numbers by their exact value, objects without regard to order. -/
def same : Value → Value → Bool
  | null, w => w.isNull
  | bool a, w => sameInt (ofTruth a) w
  | int a, w => sameInt a w
  | float a, w =>
    match w with
    | bool b => equalsInt a (ofTruth b)
    | int b => equalsInt a b
    | float b => a == b
    | _ => false
  | str a, w =>
    match w with
    | str b => a == b
    | _ => false
  | arr as, w =>
    match w with
    | arr bs => sameItems as bs
    | _ => false
  | obj as, w =>
    match w with
    | obj bs => as.length == bs.length && sameFields as bs
    | _ => false

/-- An integer against a value. -/
def sameInt (a : Int) : Value → Bool
  | bool b => a == ofTruth b
  | int b => a == b
  | float b => equalsInt b a
  | _ => false

def sameItems : List Value → List Value → Bool
  | [], bs => bs.isEmpty
  | a :: as, bs =>
    match bs with
    | b :: bs => same a b && sameItems as bs
    | [] => false

/-- Whether every field has an equal one under its name. -/
def sameFields : List (String × Value) → List (String × Value) → Bool
  | [], _ => true
  | (name, a) :: as, bs =>
    (match Assoc.get? bs name with
      | some b => same a b
      | none => false) && sameFields as bs

end

/-- The floating-point number that a value counts as in a comparison, if any. Blank text is zero. -/
def number? : Value → Except Fault (Option Float)
  | bool b => .ok (some (if b then 1.0 else 0.0))
  | int n =>
    match Decimal.ofInt? n with
    | some x => .ok (some x)
    | none => .error .integerTooLarge
  | float x => .ok (some x)
  | str s =>
    let text := Text.strip s
    .ok (if text = "" then some 0.0 else Decimal.readFloat? text)
  | _ => .ok none

/-- Loose equality. Null equals only null, two texts are equal as texts, arrays and objects by
content, and everything else as numbers. Values have no identity: an array with a NaN in it is not
even equal to itself. -/
def looseEq (left right : Value) : Except Fault Bool :=
  match left, right with
  | null, w => .ok w.isNull
  | _, null => .ok false
  | str a, str b => .ok (a == b)
  | arr as, w => .ok (same (arr as) w)
  | obj as, w => .ok (same (obj as) w)
  | _, arr _ => .ok false
  | _, obj _ => .ok false
  | v, w => do
    match ← number? v, ← number? w with
    | some a, some b => return a == b
    | _, _ => return false

/-- The order relations of conditions. -/
inductive Ordering where
  | greater
  | less
  | atLeast
  | atMost
deriving Repr, DecidableEq

/-- An order relation on texts, which are compared character by character. -/
def Ordering.holdsText (o : Ordering) (a b : String) : Bool :=
  match o with
  | greater => b < a
  | less => a < b
  | atLeast => b ≤ a
  | atMost => a ≤ b

/-- An order relation on floating-point numbers. -/
def Ordering.holdsNumber (o : Ordering) (a b : Float) : Bool :=
  match o with
  | greater => b < a
  | less => a < b
  | atLeast => b ≤ a
  | atMost => a ≤ b

/-- Order of two values: texts as texts, anything else as numbers; what has no number is in no
relation. -/
def ordered (o : Ordering) (left right : Value) : Except Fault Bool :=
  match left, right with
  | null, _ => .ok false
  | _, null => .ok false
  | str a, str b => .ok (o.holdsText a b)
  | v, w => do
    match ← number? v, ← number? w with
    | some a, some b => return o.holdsNumber a b
    | _, _ => return false

/-- Whether an item of an array matches: texts without regard to case, anything else loosely. -/
def matchesItem (wanted item : Value) : Except Fault Bool :=
  match item, wanted with
  | str a, str b => .ok (Text.toLower a == Text.toLower b)
  | v, w => looseEq v w

/-- Whether some item of an array matches. -/
def anyItem (wanted : Value) : List Value → Except Fault Bool
  | [] => .ok false
  | item :: rest => do
    if ← matchesItem wanted item then return true else anyItem wanted rest

/-- Whether an array holds a value, or a text holds another without regard to case. -/
def contains (left right : Value) : Except Fault Bool :=
  match left, right with
  | null, _ => .ok false
  | _, null => .ok false
  | arr items, w => anyItem w items
  | str s, w => do
    let text ← w.written
    return Text.occursIn (Text.lower text.toList) (Text.lower s.toList)
  | _, _ => .ok false

end NoteTemplate.Value
