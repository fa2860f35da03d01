import NoteTemplate.Text.Case

/-!
The edit distance of two texts, and the nearest of several names.
-/

namespace NoteTemplate

/-- The next row of the table of distances behind its first entry. `corner` and the first entry of
`previous` stand above and left above the entry; `left` stands before it. -/
def distanceRow (a : Char) : Nat → Nat → List Char → List Nat → List Nat
  | corner, left, b :: bs, above :: previous =>
    let cost := if a = b then 0 else 1
    let entry := min (above + 1) (min (left + 1) (corner + cost))
    entry :: distanceRow a above entry bs previous
  | _, _, _, _ => []

/-- The last row of the table of distances of the beginnings of `b`, from a row on. -/
def distanceRows (b : List Char) : Nat → List Nat → List Char → List Nat
  | _, row, [] => row
  | i, row, a :: as =>
    match row with
    | corner :: previous => distanceRows b (i + 1) ((i + 1) :: distanceRow a corner (i + 1) b previous) as
    | [] => []

/-- The least number of insertions, deletions and substitutions of a character that turn one text
into another. -/
def editDistance (a b : List Char) : Nat :=
  (distanceRows b 0 (List.range (b.length + 1)) a).getLastD 0

/-- Whether a name is near enough to another to be meant: their distance, case aside, is less than
half of the longer length. -/
def isNear (name candidate : String) (distance : Nat) : Bool :=
  2 * distance < max name.length candidate.length

/-- The distance of two names, case aside. -/
def nameDistance (name candidate : String) : Nat :=
  editDistance (Text.lower name.toList) (Text.lower candidate.toList)

/-- The nearer of the best name so far and one more candidate. -/
def nearer (name : String) (best : Option (String × Nat)) (candidate : String) :
    Option (String × Nat) :=
  let distance := nameDistance name candidate
  if isNear name candidate distance then
    match best with
    | none => some (candidate, distance)
    | some (_, least) => if distance < least then some (candidate, distance) else best
  else best

/-- The candidate nearest to a name, if one is near enough; the first in order of several. -/
def nearest (name : String) (candidates : List String) : Option String :=
  (((candidates.mergeSort fun a b => a ≤ b).foldl (nearer name) none)).map (·.1)

end NoteTemplate
