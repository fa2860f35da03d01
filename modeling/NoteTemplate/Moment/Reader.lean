import NoteTemplate.Moment.Interval
import NoteTemplate.Moment.Loose
import NoteTemplate.Pattern.Reader

/-!
Reading a moment without knowing its notation: the notation of ISO 8601 first, then dates with
slashes or colons, and at last whatever people write.
-/

namespace NoteTemplate.Moment

open NoteTemplate.Text

/-- Dates with slashes, colons or nothing between their numbers, and times. Groups are year, month,
day, hour, minute, second and the digits behind the second. -/
def plainNotation : Pattern.Compiled := Pattern.ofString <|
  "(?:(\\d\x7b4\x7d)(?:[/:]?(\\d\x7b2\x7d)[/:]?(\\d\x7b2\x7d))?)?" ++
    "(?: ?(\\d\x7b1,2\x7d):(\\d\x7b1,2\x7d)?(?::(\\d\x7b1,2\x7d))?(?:[.|,](\\d\x7b1,9\x7d))?)?\\Z"

def ofPlain? (number : Nat → Option Nat) (fraction : List Char) : Option Moment := do
  let day ← match number 1 with
    | some year => Day.of? year ((number 2).getD 1) ((number 3).getD 1)
    | none => some Loose.defaultDay
  match number 4 with
  | none => return ⟨day, {}, Zone.utc⟩
  | some hour =>
    let kept := fraction.take 6
    let micro := digitsValue kept * Decimal.tenTo (6 - kept.length)
    return ⟨day, ← Clock.of? hour (← number 5) ((number 6).getD 0) micro, Zone.utc⟩

/-- The moment that a text writes. Durations and intervals are no moments. -/
def ofText? (cs : List Char) : Option Moment :=
  match WrittenMoment.ofIso? cs with
  | some w => some ⟨w.day.getD Loose.defaultDay, w.clock.getD {}, w.zone.getD Zone.utc⟩
  | none =>
    if (Duration.ofIso? cs).isSome || WrittenMoment.isInterval cs then none
    else
      let subject : Pattern.Subject := ⟨cs.toArray⟩
      match Pattern.matchAt? plainNotation subject 0 false with
      | some found =>
        ofPlain? (fun i => (found.text? subject i).map digitsValue) (found.text subject 7)
      | none => Loose.moment? cs

end NoteTemplate.Moment
