import NoteTemplate.Decimal.Reader
import NoteTemplate.Filter.Registry
import NoteTemplate.Value.Leaves

/-!
Filters that calculate with numbers and round them.
-/

namespace NoteTemplate.Filter

open NoteTemplate.Text

/-- The operations of the calculating filter. -/
inductive Operation where
  | add
  | subtract
  | multiply
  | divide
  | power
deriving Repr, DecidableEq

/-- The operation at the front of an expression, and its operand. -/
def readOperation? : List Char → Option (Operation × List Char)
  | '*' :: '*' :: rest => some (.power, rest)
  | '+' :: rest => some (.add, rest)
  | '-' :: rest => some (.subtract, rest)
  | '*' :: rest => some (.multiply, rest)
  | '/' :: rest => some (.divide, rest)
  | '^' :: rest => some (.power, rest)
  | _ => none

/-- A power. There is none of zero with a negative exponent, of a negative number with a fraction in
the exponent, and where the result is too large. -/
def power? (x y : Float) : Option Float :=
  let finite (z : Float) : Bool := !z.isNaN && !z.isInf
  if x == 0.0 && y < 0.0 && finite y then none
  else if x < 0.0 && finite x && finite y && (Decimal.whole? y).isNone then none
  else
    let z := Float.pow x y
    if z.isInf && finite x && finite y then none else some z

/-- The result of an operation, if it has one. -/
def Operation.apply? (op : Operation) (x y : Float) : Option Float :=
  match op with
  | add => some (x + y)
  | subtract => some (x - y)
  | multiply => some (x * y)
  | divide => if y == 0.0 then none else some (x / y)
  | power => power? x y

def resultPlaces : Nat := 10

/-- The result of an expression such as `+10` for a number; what cannot be calculated stays as it
is. -/
def calculate (s : String) (param : Option String) : String :=
  match param with
  | none => s
  | some _ =>
    let result : Option Float := do
      let x ← Decimal.readFloat? s
      let (op, operand) ← readOperation? (trim (Param.single param).toList)
      let y ← Decimal.readFloat? (String.ofList operand)
      op.apply? x y
    match result with
    | some z => Value.floatText (Decimal.roundPlaces resultPlaces z)
    | none => s

/-- A number scaled by a power of ten and raised by a half, if it is not too large. -/
def raisedBy? (v : Value) (places : Int) : Option Float :=
  let factor? : Option Float :=
    if 0 ≤ places then Decimal.ofInt? (Decimal.tenTo places.toNat)
    else some (Float.pow 10.0 (Float.ofInt places))
  match v with
  | .int n =>
    if 0 ≤ places then (Decimal.ofInt? (n * Decimal.tenTo places.toNat)).map (· + 0.5)
    else do return (← Decimal.ofInt? n) * (← factor?) + 0.5
  | .float x => factor?.map fun factor => x * factor + 0.5
  | _ => none

/-- An integer divided by a power of ten. -/
def lowered? (n places : Int) : Option Float :=
  if 0 ≤ places then
    let x := Decimal.ofScientific (n < 0) n.natAbs (-places)
    if x.isInf then none else some x
  else
    let factor := Float.pow 10.0 (Float.ofInt places)
    if factor == 0.0 then none else (Decimal.ofInt? n).map (· / factor)

/-- A number rounded to a count of places, a half upwards. Without places the result is an
integer. -/
def roundHalfUp? (v : Value) (places : Int) : Option Value := do
  let floor ← Decimal.floor? (← raisedBy? v places)
  let x ← lowered? floor places
  if places = 0 then (Decimal.truncate? x).map .int else some (.float x)

/-- The outcome of reading a number inside data: texts that are none stay as they are. -/
def roundLeaf? (places : Int) (v : Value) : Option Value :=
  match v with
  | .int _ | .float _ => roundHalfUp? v places
  | .str s =>
    match Decimal.readFloat? s with
    | some x =>
      if x.isNaN then some v else (roundHalfUp? (.float x) places).map fun v => .str v.text
    | none => some v
  | v => some v

/-- Rounds a number, or all numbers in an array or object, to a count of places. -/
def round? (s : String) (param : Option String) : Option String :=
  match param.map (fun _ => Decimal.readInt? (Param.single param)) with
  | some none => some s
  | places =>
    let places : Int := (places.bind id).getD 0
    match Value.ofJson? s with
    | some (.int n) => (roundLeaf? places (.int n)).map Value.text
    | some (.float x) => (roundLeaf? places (.float x)).map Value.text
    | some (.arr items) => ((Value.arr items).mapLeaves? id (roundLeaf? places)).map Value.toJson
    | some (.obj fields) => ((Value.obj fields).mapLeaves? id (roundLeaf? places)).map Value.toJson
    | _ => some s

def arithmetic : List Filter := [
  ofParam "calc" calculate "Arithmetic: calc:\"+10\", calc:\"**2\"",
  ofFallible "round" round? "Round to N decimals: round:2"]

end NoteTemplate.Filter
