import NoteTemplate.Decimal.Binary

/-!
The shortest decimal text of a floating-point number: the fewest digits that read back as the same
number, and of those the nearest to it.
-/

namespace NoteTemplate.Decimal

/-- The decimal number `digits · 10 ^ exponent`. -/
structure Digits where
  digits : Nat
  exponent : Int
deriving Repr, DecidableEq

/-- How many decimal digits a positive number has before the point: the least `k` with
`num / den < 10 ^ k`, looked for upwards from a start below it. -/
def decimalPoint (num den : Nat) : Nat → Int → Int
  | 0, k => k
  | fuel + 1, k =>
    if num * tenTo (-k).toNat < den * tenTo k.toNat then k else decimalPoint num den fuel (k + 1)

/-- The decimals of one length that read back as a number: its two neighbours on the grid of
multiples of `10 ^ unit` that lie inside the interval of reals rounding to it, the nearer first. -/
def neighbours (b : Binary) (unit : Int) : List Nat :=
  -- All quantities are scaled by 4 · 10 ^ (-unit) · 2 ^ (-exponent), so that they are integers.
  let up := twoTo b.exponent.toNat * tenTo (-unit).toNat
  let down := twoTo (-b.exponent).toNat * tenTo unit.toNat
  let value := 4 * b.mantissa * up
  let low := (4 * b.mantissa - (if b.lowest then 1 else 2)) * up
  let high := (4 * b.mantissa + 2) * up
  let inside (d : Nat) : Bool :=
    let scaled := 4 * d * down
    if b.mantissa % 2 == 0 then low ≤ scaled && scaled ≤ high else low < scaled && scaled < high
  let below := value / (4 * down)
  let above := below + 1
  let belowGap := value - 4 * below * down
  let aboveGap := 4 * above * down - value
  let order :=
    if belowGap < aboveGap || (belowGap == aboveGap && below % 2 == 0) then [below, above]
    else [above, below]
  order.filter fun d => d != 0 && inside d

/-- The first hit among the grids with `n, n + 1, …` digits. -/
def shortestFrom (b : Binary) (point : Int) : Nat → Nat → Digits
  | 0, n => ⟨b.mantissa, n⟩
  | fuel + 1, n =>
    match neighbours b (point - n) with
    | d :: _ => ⟨d, point - n⟩
    | [] => shortestFrom b point fuel (n + 1)

def shortest (b : Binary) : Digits :=
  let (num, den) := b.ratio
  let start := ((Nat.log2 num : Int) - (Nat.log2 den : Int)) * 3 / 10 - 3
  shortestFrom b (decimalPoint num den 400 start) 17 1

/-- How a decimal is written. -/
structure Layout where
  /-- The lowest place of the leading digit, counted from the point, that is written in full. -/
  positionalFrom : Int
  /-- The highest such place. -/
  positionalTo : Int
  /-- The least number of digits of an exponent. -/
  exponentWidth : Nat
  /-- Written behind a whole number. -/
  wholeMark : String

/-- Zeros in front of a text until it has the width. -/
def padLeft (width : Nat) (s : String) : String :=
  String.ofList (List.replicate (width - s.length) '0') ++ s

def Layout.render (layout : Layout) (d : Digits) : String :=
  let text := (Nat.repr d.digits).toList
  -- Trailing zeros carry no information.
  let kept := (text.reverse.dropWhile (· == '0')).reverse
  let point : Int := (text.length : Int) + d.exponent
  if layout.positionalFrom ≤ point && point ≤ layout.positionalTo then
    if point ≤ 0 then
      "0." ++ String.ofList (List.replicate (-point).toNat '0') ++ String.ofList kept
    else if kept.length ≤ point.toNat then
      String.ofList (kept ++ List.replicate (point.toNat - kept.length) '0') ++ layout.wholeMark
    else
      String.ofList (kept.take point.toNat) ++ "." ++ String.ofList (kept.drop point.toNat)
  else
    let exponent := point - 1
    let sign := if exponent < 0 then "-" else "+"
    let head := String.ofList (kept.take 1)
    let tail := if kept.length ≤ 1 then "" else "." ++ String.ofList (kept.drop 1)
    head ++ tail ++ "e" ++ sign ++ padLeft layout.exponentWidth (Nat.repr exponent.natAbs)

/-- Numbers from `0.0001` up to `10 ^ 16` are written in full, others with an exponent of at least
two digits; a whole number ends in `.0`. -/
def plainLayout : Layout := ⟨-3, 16, 2, ".0"⟩

/-- The texts of the numbers that have no digits. -/
structure Specials where
  notANumber : String
  infinity : String

/-- A floating-point number in a layout. -/
def render (layout : Layout) (specials : Specials) (x : Float) : String :=
  match Binary.ofFloat? x with
  | none =>
    if x.isNaN then specials.notANumber
    else if signBit x then "-" ++ specials.infinity else specials.infinity
  | some b =>
    let sign := if b.negative then "-" else ""
    if b.mantissa == 0 then sign ++ "0" ++ layout.wholeMark
    else sign ++ layout.render (shortest b)

/-- A number with a fixed count of places, the exact value rounded with a half to the even
neighbour. The sign of a negative zero is kept. -/
def fixed (places : Nat) (x : Float) : String :=
  match Binary.ofFloat? x with
  | none => if x.isNaN then "nan" else if signBit x then "-inf" else "inf"
  | some b =>
    let (num, den) := b.ratio
    let scaled := roundHalfEven (num * tenTo places) den
    let text := padLeft (places + 1) (Nat.repr scaled)
    let whole := text.length - places
    let digits := text.toList
    (if b.negative then "-" else "") ++ String.ofList (digits.take whole) ++
      (if places == 0 then "" else "." ++ String.ofList (digits.drop whole))

/-- The floating-point number nearest to a number rounded to a count of decimal places. -/
def roundPlaces (places : Nat) (x : Float) : Float :=
  match Binary.ofFloat? x with
  | none => x
  | some b =>
    let (num, den) := b.ratio
    ofScientific b.negative (roundHalfEven (num * tenTo places) den) (-(places : Int))

end NoteTemplate.Decimal
