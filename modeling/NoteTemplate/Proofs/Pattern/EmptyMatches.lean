import NoteTemplate.Pattern.Match

/-! Patterns that match places and no characters. Replacing their matches takes
nothing out of a text: it stands there with a replacement at every place that the
pattern matches, found by itself whatever was matched before it. -/
namespace NoteTemplate.Pattern

variable {p : Compiled} {s : Subject}

/-- All matches of the pattern in the text are empty, also when that is not allowed. -/
structure MatchesEmpty (p : Compiled) (s : Subject) : Prop where
  stop : ∀ {start : Nat} {found : Found}, matchAt? p s start false = some found → found.stop = start
  refused : ∀ start, matchAt? p s start true = none

theorem start_of_matchAt? {start : Nat} {notEmpty : Bool} {found : Found}
    (h : matchAt? p s start notEmpty = some found) : found.start = start := by
  obtain ⟨spot, -, rfl⟩ := Option.map_eq_some_iff.mp h
  rfl

/-! One step of the search for all matches. -/

theorem matchesFrom_behind {start : Nat} (h : s.size < start) (fuel : Nat) (notEmpty : Bool) :
    matchesFrom p s fuel start notEmpty = [] := by
  cases fuel with
  | zero => rfl
  | succ fuel =>
      rw [matchesFrom, Nat.sub_eq_zero_of_le h]
      rfl

/-- Where a pattern does not match, it is looked for one place further on. -/
theorem matchesFrom_of_none {start : Nat} {notEmpty : Bool} (h : matchAt? p s start notEmpty = none)
    (hPlace : start ≤ s.size) (fuel : Nat) :
    matchesFrom p s fuel start notEmpty = matchesFrom p s fuel (start + 1) false := by
  cases fuel with
  | zero => rfl
  | succ fuel =>
      have hPlaces : s.size + 1 - start = s.size - start + 1 := by omega
      rw [matchesFrom, matchesFrom, hPlaces, searchFrom, h, Nat.add_sub_add_right]

theorem matchesFrom_of_some {start : Nat} {notEmpty : Bool} {found : Found}
    (h : matchAt? p s start notEmpty = some found) (hPlace : start ≤ s.size) (fuel : Nat) :
    matchesFrom p s (fuel + 1) start notEmpty =
      found :: matchesFrom p s fuel found.stop (found.start == found.stop) := by
  have hPlaces : s.size + 1 - start = s.size - start + 1 := by omega
  rw [matchesFrom, hPlaces, searchFrom, h]

/-- Behind an empty match the search goes on at the next place. -/
theorem MatchesEmpty.matchesFrom_of_some (h : MatchesEmpty p s) {start : Nat} {found : Found}
    (hFound : matchAt? p s start false = some found) (hPlace : start ≤ s.size) (fuel : Nat) :
    matchesFrom p s (fuel + 1) start false = found :: matchesFrom p s fuel (start + 1) false := by
  rw [Pattern.matchesFrom_of_some hFound hPlace, start_of_matchAt? hFound, h.stop hFound,
    beq_self_eq_true, matchesFrom_of_none (h.refused start) hPlace]

/-! The text with its replacements. -/

/-- A text with something put in at each place, beginning with the place of a number. -/
def interleaved (mark : Nat → List Char) : Nat → List Char → List Char
  | place, [] => mark place
  | place, c :: rest => mark place ++ c :: interleaved mark (place + 1) rest

/-- Where nothing is put in, the characters stay together. -/
theorem interleaved_append {mark : Nat → List Char} {front : List Char} {place : Nat}
    (h : ∀ index < front.length, mark (place + index) = []) (rest : List Char) :
    interleaved mark place (front ++ rest) =
      front ++ interleaved mark (place + front.length) rest := by
  induction front generalizing place with
  | nil => rfl
  | cons c front ih =>
      have hHere : mark place = [] := h 0 (Nat.zero_lt_succ _)
      have hLater : ∀ index < front.length, mark (place + 1 + index) = [] := by
        intro index hIndex
        rw [Nat.add_assoc, Nat.add_comm 1]
        exact h (index + 1) (Nat.succ_lt_succ hIndex)
      rw [List.cons_append, interleaved, hHere, ih hLater, List.length_cons, Nat.add_assoc,
        Nat.add_comm 1]
      rfl

theorem slice_self (s : Subject) (place : Nat) : s.slice place place = [] := by
  simp [Subject.slice]

/-- A slice that is one character longer. -/
theorem slice_succ {start stop : Nat} {c : Char} {rest : List Char} (h : start ≤ stop)
    (hRest : s.chars.toList.drop stop = c :: rest) :
    s.slice start (stop + 1) = s.slice start stop ++ [c] := by
  have hChar : (s.chars.toList.drop start)[stop - start]? = some c := by
    rw [List.getElem?_drop, Nat.add_sub_cancel' h, ← List.head?_drop, hRest, List.head?_cons]
  have hCount : stop + 1 - start = stop - start + 1 := by omega
  rw [Subject.slice, Subject.slice, Array.toList_extract, Array.toList_extract, List.extract_eq_take_drop,
    List.extract_eq_take_drop, hCount, List.take_add_one, hChar, Option.toList_some]

/-- What is put in at a place: the replacement of a match, if there is one. -/
def markAt (p : Compiled) (s : Subject) (replacement : Found → List Char) (place : Nat) : List Char :=
  ((matchAt? p s place false).map replacement).getD []

/-- By induction on the rest of the text: replacing the matches puts something at each
place where the pattern matches, and leaves the text between. -/
theorem MatchesEmpty.replaceFrom_eq (h : MatchesEmpty p s) (replacement : Found → List Char)
    {last start fuel : Nat} {rest : List Char} (hRest : s.chars.toList.drop start = rest)
    (hPlace : start + rest.length = s.size) (hLast : last ≤ start) (hFuel : rest.length < fuel) :
    replaceFrom s replacement last (matchesFrom p s fuel start false) =
      s.slice last start ++ interleaved (markAt p s replacement) start rest := by
  have hHere : start ≤ s.size := by omega
  induction rest generalizing last start fuel with
  | nil =>
      have hEnd : start = s.size := by simpa using hPlace
      have hBehind := matchesFrom_behind (p := p) (show s.size < start + 1 by omega)
      cases hMatch : matchAt? p s start false with
      | none =>
          rw [matchesFrom_of_none hMatch hHere, hBehind, replaceFrom, interleaved, markAt, hMatch, hEnd]
          simp
      | some found =>
          obtain ⟨fuel, rfl⟩ := Nat.exists_eq_succ_of_ne_zero (Nat.ne_zero_of_lt hFuel)
          rw [h.matchesFrom_of_some hMatch hHere, hBehind, replaceFrom, replaceFrom,
            start_of_matchAt? hMatch, h.stop hMatch, interleaved, markAt, hMatch, ← hEnd, slice_self]
          simp
  | cons c rest ih =>
      rw [List.length_cons] at hPlace hFuel
      have hNext : s.chars.toList.drop (start + 1) = rest := by
        rw [← List.tail_drop, hRest, List.tail_cons]
      have hLater : start + 1 + rest.length = s.size := by omega
      have hThere : start + 1 ≤ s.size := by omega
      cases hMatch : matchAt? p s start false with
      | none =>
          have hFuelLater : rest.length < fuel := by omega
          rw [matchesFrom_of_none hMatch hHere, ih hNext hLater (by omega) hFuelLater hThere,
            slice_succ hLast hRest, interleaved, markAt, hMatch]
          simp
      | some found =>
          obtain ⟨fuel, rfl⟩ := Nat.exists_eq_succ_of_ne_zero (Nat.ne_zero_of_lt hFuel)
          have hFuelLater : rest.length < fuel := by omega
          rw [h.matchesFrom_of_some hMatch hHere, replaceFrom, start_of_matchAt? hMatch,
            h.stop hMatch, ih hNext hLater (Nat.le_succ start) hFuelLater hThere,
            slice_succ (Nat.le_refl start) hRest, slice_self, interleaved, markAt, hMatch]
          simp

/-- Empty matches leave the whole text, with their replacements between its characters. -/
theorem MatchesEmpty.replace_eq {cs : List Char} (h : MatchesEmpty p ⟨cs.toArray⟩)
    (replacement : Subject → Found → List Char) :
    replace p replacement cs =
      interleaved (markAt p ⟨cs.toArray⟩ (replacement ⟨cs.toArray⟩)) 0 cs := by
  have hSize : 0 + cs.length = Subject.size ⟨cs.toArray⟩ := by simp [Subject.size]
  have hFuel : cs.length < 2 * Subject.size ⟨cs.toArray⟩ + 2 := by omega
  rw [replace, matchesOf, h.replaceFrom_eq (replacement ⟨cs.toArray⟩) rfl hSize (Nat.le_refl 0) hFuel,
    slice_self, List.nil_append]
  rfl

end NoteTemplate.Pattern
