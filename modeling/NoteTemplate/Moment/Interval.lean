import NoteTemplate.Moment.Iso

/-!
Intervals of time, written as two moments or as a moment and a duration with a slash in between.
-/

namespace NoteTemplate

open NoteTemplate.Text

namespace Moment

/-- The moment some duration later, or earlier for the sign `-1`. -/
def shift? (m : Moment) (sign : Int) (d : Duration) : Option Moment := do
  let day ← m.day.addMonths? (sign * (d.years * 12 + d.months : Nat))
  let seconds := d.weeks * 604800 + d.days * 86400 + d.hours * 3600 + d.minutes * 60 + d.seconds +
    d.micros / 1000000
  { m with day }.addSeconds? (sign * seconds)

def secondsTo (start stop : Moment) : Int :=
  let micros := (stop.timestamp - start.timestamp) * 1000000 + stop.clock.micro - start.clock.micro
  Int.tdiv micros 1000000

end Moment

namespace WrittenMoment

/-- The moment that is meant, in universal time where no zone is written; none without a day. -/
def moment? (w : WrittenMoment) : Option Moment :=
  w.day.map fun day => ⟨day, w.clock.getD {}, w.zone.getD Zone.utc⟩

/-- The whole seconds from one written moment to another. Either both have a time of day or none. -/
def secondsBetween? (start stop : WrittenMoment) : Option Int := do
  let first ← start.moment?
  let last ← stop.moment?
  if start.clock.isSome = stop.clock.isSome then return first.secondsTo last else none

/-- Whether a text is an interval: two moments, or a moment and a duration. -/
def isInterval (cs : List Char) : Bool :=
  match splitOnChar '/' cs with
  | [left, right] =>
    if startsWith ['P'] left then (Duration.ofIso? left).isSome && (ofIso? right).isSome
    else if startsWith ['P'] right then (ofIso? left).isSome && (Duration.ofIso? right).isSome
    else (ofIso? left).isSome && (ofIso? right).isSome
  | _ => false

/-- The whole seconds of a written interval. A duration needs a moment with a time of day. -/
def intervalSeconds? (cs : List Char) : Option Int :=
  match splitOnChar '/' cs with
  | [left, right] =>
    let dated (cs : List Char) : Option Moment := do
      let w ← ofIso? cs
      if w.clock.isSome then w.moment? else none
    if startsWith ['P'] left then do
      let d ← Duration.ofIso? left
      let stop ← dated right
      return (← stop.shift? (-1) d).secondsTo stop
    else if startsWith ['P'] right then do
      let d ← Duration.ofIso? right
      let start ← dated left
      return start.secondsTo (← start.shift? 1 d)
    else do secondsBetween? (← ofIso? left) (← ofIso? right)
  | _ => none

end WrittenMoment

end NoteTemplate
