import NoteTemplate.Pattern

/-!
Matching patterns by trying choices in order and going back on failure, and what is built on it:
all matches of a text, replacing them, and splitting at them.
-/

namespace NoteTemplate.Pattern

abbrev Groups := Array (Option (Nat × Nat))

/-- The text that is matched. -/
structure Subject where
  chars : Array Char

namespace Subject

variable (s : Subject)

def size : Nat := s.chars.size

def at? (i : Nat) : Option Char := s.chars[i]?

def before? (i : Nat) : Option Char := if i = 0 then none else s.chars[i - 1]?

/-- The text between two places. -/
def slice (start stop : Nat) : List Char := (s.chars.extract start stop).toList

def isWordEdge (ascii : Bool) (i : Nat) : Bool :=
  ((s.before? i).map (Class.word.holds ascii)).getD false !=
    ((s.at? i).map (Class.word.holds ascii)).getD false

def meets (i : Nat) : Anchor → Bool
  | .textStart => i == 0
  | .lineStart => i == 0 || s.before? i == some '\n'
  | .textEnd => i == s.size
  | .lastLineEnd => i == s.size || (i + 1 == s.size && s.at? i == some '\n')
  | .lineEnd => i == s.size || s.at? i == some '\n'
  | .wordEdge ascii => s.isWordEdge ascii i
  | .noWordEdge ascii => s.size ≠ 0 && !s.isWordEdge ascii i

end Subject

/-- Where a match has come to. -/
structure Spot where
  place : Nat
  groups : Groups

/-- What is to be matched behind a spot; it yields the spot at the end of the whole match. -/
abbrev Rest := Spot → Option Spot

/-- A matcher: it matches something at a spot and what is to follow behind it. -/
abbrev Matcher := Spot → Rest → Option Spot

/-- Repeats a matcher as often as needed first, and then as often as possible; a turn that matches
nothing is the last one. The fuel bounds the turns. -/
def greedyTurns (turn : Matcher) (most : Option Nat) : Nat → Nat → Option Nat → Nat → Matcher
  | 0, _, _, _, spot, rest => rest spot
  | fuel + 1, least, last, count, spot, rest =>
    if count < least then
      turn spot fun spot => greedyTurns turn most fuel least last (count + 1) spot rest
    else
      let allowed := (match most with | some m => decide (count < m) | none => true) &&
        last ≠ some spot.place
      match (if allowed then
          turn spot fun next =>
            greedyTurns turn most fuel least (some spot.place) (count + 1) next rest
        else none) with
      | some found => some found
      | none => rest spot

/-- Repeats a matcher as often as needed, and then only as often as the rest asks for. -/
def lazyTurns (turn : Matcher) (most : Option Nat) : Nat → Nat → Option Nat → Nat → Matcher
  | 0, _, _, _, spot, rest => rest spot
  | fuel + 1, least, last, count, spot, rest =>
    if count < least then
      turn spot fun spot => lazyTurns turn most fuel least last (count + 1) spot rest
    else
      match rest spot with
      | some found => some found
      | none =>
        let allowed := (match most with | some m => decide (count < m) | none => true) &&
          last ≠ some spot.place
        if allowed then
          turn spot fun next =>
            lazyTurns turn most fuel least (some spot.place) (count + 1) next rest
        else none

/-- Whether the text at a place goes on with given characters. -/
def continues (s : Subject) (anyCase : Bool) (i : Nat) : List Char → Bool
  | [] => true
  | c :: rest =>
    match s.at? i with
    | some d =>
      (if anyCase then fold c == fold d else c == d) && continues s anyCase (i + 1) rest
    | none => false

/-- Turns that suffice at a spot: those that are needed, and two for each character left. -/
def turnBound (s : Subject) (least : Nat) (spot : Spot) : Nat :=
  least + 2 * (s.size - spot.place) + 3

def run (s : Subject) : Pattern → Matcher
  | .empty, spot, rest => rest spot
  | .never, _, _ => none
  | .one set, spot, rest =>
    match s.at? spot.place with
    | some c => if set.holds c then rest { spot with place := spot.place + 1 } else none
    | none => none
  | .any lineBreaks, spot, rest =>
    match s.at? spot.place with
    | some c => if lineBreaks || c ≠ '\n' then rest { spot with place := spot.place + 1 } else none
    | none => none
  | .seq a b, spot, rest => run s a spot fun spot => run s b spot rest
  | .alt a b, spot, rest =>
    match run s a spot rest with
    | some found => some found
    | none => run s b spot rest
  | .group index p, spot, rest =>
    let start := spot.place
    run s p spot fun next =>
      rest { next with groups := next.groups.setIfInBounds index (some (start, next.place)) }
  | .repeated p least most greed, spot, rest =>
    let fuel := turnBound s least spot
    match greed with
    | .greedy => greedyTurns (run s p) most fuel least none 0 spot rest
    | .lazy => lazyTurns (run s p) most fuel least none 0 spot rest
    | .possessive =>
      match greedyTurns (run s p) most fuel least none 0 spot some with
      | some next => rest next
      | none => none
  | .reference index anyCase, spot, rest =>
    match spot.groups[index]? with
    | some (some (start, stop)) =>
      let cs := s.slice start stop
      if continues s anyCase spot.place cs then
        rest { spot with place := spot.place + cs.length }
      else none
    | _ => none
  | .anchor a, spot, rest => if s.meets spot.place a then rest spot else none
  | .ahead p negated, spot, rest =>
    match run s p spot some with
    | some next => if negated then none else rest { next with place := spot.place }
    | none => if negated then rest spot else none
  | .behind p width negated, spot, rest =>
    let found :=
      if width ≤ spot.place then run s p { spot with place := spot.place - width } some else none
    match found with
    | some next => if negated then none else rest { next with place := spot.place }
    | none => if negated then rest spot else none
  | .atomic p, spot, rest =>
    match run s p spot some with
    | some next => rest next
    | none => none
  | .ifGroup index found missing, spot, rest =>
    match spot.groups[index]? with
    | some (some _) => run s found spot rest
    | _ => run s missing spot rest

/-- A match: where it begins and ends, and its groups. -/
structure Found where
  start : Nat
  stop : Nat
  groups : Groups

/-- A pattern with the number of its groups. -/
structure Compiled where
  pattern : Pattern
  groups : Nat := 0

/-- A match at a place. On request it must not be empty. -/
def matchAt? (p : Compiled) (s : Subject) (start : Nat) (notEmpty : Bool) : Option Found :=
  let spot : Spot := ⟨start, Array.replicate (p.groups + 1) none⟩
  (run s p.pattern spot fun spot =>
      if notEmpty && spot.place == start then none else some spot).map fun spot =>
    ⟨start, spot.place, spot.groups⟩

/-- The first match from a place on, looked for at a number of places. Only at the first of them can
an empty match be refused. -/
def searchFrom (p : Compiled) (s : Subject) : Nat → Nat → Bool → Option Found
  | 0, _, _ => none
  | fuel + 1, start, notEmpty =>
    match matchAt? p s start notEmpty with
    | some found => some found
    | none => searchFrom p s fuel (start + 1) false

/-- The matches from a place on. They do not overlap, and no empty match follows an empty one at the
same place. -/
def matchesFrom (p : Compiled) (s : Subject) : Nat → Nat → Bool → List Found
  | 0, _, _ => []
  | fuel + 1, start, notEmpty =>
    match searchFrom p s (s.size + 1 - start) start notEmpty with
    | some found => found :: matchesFrom p s fuel found.stop (found.start == found.stop)
    | none => []

def matchesOf (p : Compiled) (s : Subject) : List Found :=
  matchesFrom p s (2 * s.size + 2) 0 false

/-- The text of a group of a match, if the group took part in it; group zero is the whole match. -/
def Found.text? (found : Found) (s : Subject) (index : Nat) : Option (List Char) :=
  if index = 0 then some (s.slice found.start found.stop)
  else match found.groups[index]? with
    | some (some (start, stop)) => some (s.slice start stop)
    | _ => none

/-- The text of a group, empty if the group took no part. -/
def Found.text (found : Found) (s : Subject) (index : Nat) : List Char :=
  (found.text? s index).getD []

def replaceFrom (s : Subject) (replacement : Found → List Char) : Nat → List Found → List Char
  | last, [] => s.slice last s.size
  | last, found :: rest =>
    s.slice last found.start ++ replacement found ++ replaceFrom s replacement found.stop rest

def replace (p : Compiled) (replacement : Subject → Found → List Char) (cs : List Char) :
    List Char :=
  let s : Subject := ⟨cs.toArray⟩
  replaceFrom s (replacement s) 0 (matchesOf p s)

/-- The pieces of a text between matches, with the texts of the groups of each match. -/
def splitFrom (s : Subject) (groups : Nat) : Nat → List Found → List (Option (List Char))
  | last, [] => [some (s.slice last s.size)]
  | last, found :: rest =>
    some (s.slice last found.start) ::
      ((List.range groups).map fun i => found.text? s (i + 1)) ++
        splitFrom s groups found.stop rest

/-- The pieces of a text between the matches of a pattern, with the texts of the groups of each
match, if they took part in it. -/
def split (p : Compiled) (cs : List Char) : List (Option (List Char)) :=
  let s : Subject := ⟨cs.toArray⟩
  splitFrom s p.groups 0 (matchesOf p s)

end NoteTemplate.Pattern
