import Mathlib.Data.List.Basic
import Mathlib.Data.List.Induction
import Mathlib.Logic.ExistsUnique
import NoteTemplate.Filter.Grouping
import NoteTemplate.Proofs.Pattern.EmptyMatches
import NoteTemplate.Proofs.RoundTrip.Lexemes

/-! Digits in groups of three. The pattern of the filter for numbers matches between two digits
and looks ahead for whole groups up to the end of the digits. What it finds at one place is derived
from the turns of its repetition; a whole text then is a text of empty matches, and its grouping is
compared with the only way to cut the digits from the end. -/
namespace NoteTemplate.Pattern

open Text
open Token (isDecimalDigit_of_isDigit)
open Value (isDigit_toNat)
open NoteTemplate.Filter (groupEdge)

/-- Behind the turns that are needed there is one more or the rest. -/
theorem isSome_greedyTurns_succ {turn : Matcher} {fuel least count : Nat} {last : Option Nat}
    {spot : Spot} {rest : Rest} (hCount : least ≤ count) (hLast : last ≠ some spot.place) :
    (greedyTurns turn none (fuel + 1) least last count spot rest).isSome =
      ((turn spot fun next =>
          greedyTurns turn none fuel least (some spot.place) (count + 1) next rest).isSome ||
        (rest spot).isSome) := by
  rw [greedyTurns, if_neg (Nat.not_lt.mpr hCount)]
  simp only [hLast, ne_eq, not_false_eq_true, decide_true, Bool.and_self, if_true]
  split
  · next found hFound => simp [hFound]
  · next hNone => simp [hNone]

/-- One decimal digit. -/
def digit : Pattern := .one ⟨[.ofClass .digit false false], false, false⟩

/-- Three digits as a group. -/
def three : Pattern := .group 1 (.repeated digit 3 (some 3) .greedy)

/-- A text of digits. -/
def Digits (s : Subject) : Prop := ∀ c ∈ s.chars, isAsciiDigit c = true

theorem isDigit_of_isAsciiDigit {c : Char} (h : isAsciiDigit c = true) : c.isDigit = true := by
  rw [isAsciiDigit, Bool.and_eq_true, decide_eq_true_eq, decide_eq_true_eq] at h
  simp only [Char.isDigit, Bool.and_eq_true, decide_eq_true_eq]
  exact h

theorem isWord_of_isAsciiDigit {c : Char} (h : isAsciiDigit c = true) : isWord c = true := by
  have hRange := isDigit_toNat (isDigit_of_isAsciiDigit h)
  have hLow : c.toNat < 0x80 := by omega
  simp [isWord, hLow, h]

section
variable {s : Subject} (hDigits : Digits s)
include hDigits

theorem at?_of_digits {place : Nat} (h : place < s.size) :
    ∃ c, s.at? place = some c ∧ isAsciiDigit c = true := by
  have hPlace : place < s.chars.size := h
  exact ⟨s.chars[place], Array.getElem?_eq_getElem hPlace, hDigits _ (Array.getElem_mem hPlace)⟩

/-- A digit of the pattern goes one place on, as long as there is a digit. -/
theorem run_digit (spot : Spot) (rest : Rest) : run s digit spot rest =
    if spot.place < s.size then rest { spot with place := spot.place + 1 } else none := by
  by_cases hPlace : spot.place < s.size
  · obtain ⟨c, hChar, hDigit⟩ := at?_of_digits hDigits hPlace
    have hHolds : CharSet.holds ⟨[.ofClass .digit false false], false, false⟩ c = true := by
      simp [CharSet.holds, Item.holds, Class.holds,
        isDecimalDigit_of_isDigit (isDigit_of_isAsciiDigit hDigit)]
    rw [digit, run, hChar, if_pos hPlace]
    exact if_pos hHolds
  · have hNone : s.at? spot.place = none := Array.getElem?_eq_none (Nat.le_of_not_lt hPlace)
    rw [digit, run, hNone, if_neg hPlace]

/-- As many digits as are still needed, one in each turn. -/
theorem greedyTurns_digit {count fuel : Nat} (spot : Spot) (hCount : count ≤ 3)
    (hFuel : 3 - count < fuel) (hPlace : count < 3 ∨ spot.place ≤ s.size) (rest : Rest) :
    greedyTurns (run s digit) (some 3) fuel 3 none count spot rest =
      if spot.place + (3 - count) ≤ s.size then
        rest { spot with place := spot.place + (3 - count) } else none := by
  induction fuel generalizing count spot with
  | zero => omega
  | succ fuel ih =>
      by_cases hMore : count < 3
      · rw [greedyTurns, if_pos hMore, run_digit hDigits]
        by_cases hHere : spot.place < s.size
        · have hNext : spot.place + 1 + (3 - (count + 1)) = spot.place + (3 - count) := by omega
          rw [if_pos hHere, ih { spot with place := spot.place + 1 } hMore (by omega) (.inr hHere),
            hNext]
        · rw [if_neg hHere, if_neg (by omega)]
      · obtain rfl : count = 3 := by omega
        have hHere : spot.place ≤ s.size := hPlace.resolve_left hMore
        rw [greedyTurns]
        simp [hHere]

/-- Three digits of the pattern go three places on. -/
theorem run_three (spot : Spot) (rest : Rest) : run s three spot rest =
    if spot.place + 3 ≤ s.size then
      rest ⟨spot.place + 3,
        spot.groups.setIfInBounds 1 (some (spot.place, spot.place + 3))⟩ else none := by
  have hFuel : 3 - 0 < turnBound s 3 spot := by
    rw [turnBound]
    omega
  rw [three, run, run]
  exact greedyTurns_digit hDigits spot (Nat.zero_le 3) hFuel (.inl (by omega)) _

/-- Behind the groups the digits end. -/
theorem isSome_run_noDigit (spot : Spot) :
    (run s (.ahead digit true) spot some).isSome = true ↔ s.size ≤ spot.place := by
  rw [run, run_digit hDigits]
  by_cases hHere : spot.place < s.size
  · simp [hHere]
  · simp [hHere, Nat.le_of_not_lt hHere]

/-- Going back from the greatest number of groups, the end of the digits is found just if
their number is a multiple of three. -/
theorem isSome_greedyTurns_three {count fuel : Nat} {last : Option Nat} (spot : Spot)
    (hFuel : s.size - spot.place < fuel) (hLast : ∀ place ∈ last, place < spot.place) :
    (greedyTurns (run s three) none fuel 1 last count spot fun spot =>
      run s (.ahead digit true) spot some).isSome = true ↔
      (0 < count ∨ spot.place < s.size) ∧ 3 ∣ s.size - spot.place := by
  induction fuel generalizing count last spot with
  | zero => omega
  | succ fuel ih =>
      -- One more group, if there are three more digits.
      have hTurn {before : Option Nat} (hBefore : ∀ place ∈ before, place ≤ spot.place) :
          (run s three spot fun next => greedyTurns (run s three) none fuel 1 before (count + 1)
            next fun spot => run s (.ahead digit true) spot some).isSome = true ↔
            spot.place + 3 ≤ s.size ∧ 3 ∣ s.size - (spot.place + 3) := by
        rw [run_three hDigits]
        by_cases hThree : spot.place + 3 ≤ s.size
        · rw [if_pos hThree, ih]
          · simp [hThree]
          · exact show s.size - (spot.place + 3) < fuel by omega
          · exact fun place hMem => Nat.lt_add_right 2 (Nat.lt_succ_of_le (hBefore place hMem))
        · simp [hThree]
      by_cases hFirst : count < 1
      · rw [greedyTurns, if_pos hFirst, hTurn fun place hMem => Nat.le_of_lt (hLast place hMem)]
        omega
      · have hOther : last ≠ some spot.place := fun hSame =>
          absurd (hLast spot.place hSame) (Nat.lt_irrefl _)
        rw [isSome_greedyTurns_succ (Nat.le_of_not_lt hFirst) hOther, Bool.or_eq_true,
          hTurn (by rintro place ⟨⟩; exact Nat.le_refl _), isSome_run_noDigit hDigits]
        omega

/-- Among digits only the two ends are edges of a word. -/
theorem meets_noWordEdge {place : Nat} (h : place < s.size) :
    s.meets place (.noWordEdge false) = true ↔ 0 < place := by
  have hWord {other : Nat} (hOther : other < s.size) :
      ((s.at? other).map (Class.word.holds false)).getD false = true := by
    obtain ⟨c, hChar, hDigit⟩ := at?_of_digits hDigits hOther
    simp [hChar, Class.holds, isWord_of_isAsciiDigit hDigit]
  have hSome : s.size ≠ 0 := Nat.ne_zero_of_lt h
  rw [Subject.meets, Subject.isWordEdge, hWord h, Subject.before?]
  by_cases hStart : place = 0
  · simp [hStart]
  · have hBefore : ((s.chars[place - 1]?).map (Class.word.holds false)).getD false = true :=
      hWord (show place - 1 < s.size by omega)
    rw [if_neg hStart, hBefore]
    simp [hSome, Nat.pos_of_ne_zero hStart]

end

/-- The places between groups of three, counted from the end. -/
def IsGroupEdge (size place : Nat) : Prop := 0 < place ∧ place < size ∧ 3 ∣ size - place

instance (size place : Nat) : Decidable (IsGroupEdge size place) :=
  inferInstanceAs (Decidable (_ ∧ _))

/-- Groups of three up to the end of the digits. -/
def threes : Pattern := .seq (.repeated three 1 none .greedy) (.ahead digit true)

theorem groupEdge_eq : groupEdge = ⟨.seq (.anchor (.noWordEdge false)) (.ahead threes false), 1⟩ := by
  cbv

/-- A match is empty, so it is none if it must not be empty. -/
theorem matchAt?_groupEdge (s : Subject) (start : Nat) (notEmpty : Bool) :
    matchAt? groupEdge s start notEmpty =
      if s.meets start (.noWordEdge false) then
        (run s threes ⟨start, Array.replicate 2 none⟩ some).bind fun next =>
          if notEmpty then none else some ⟨start, start, next.groups⟩
      else none := by
  rw [groupEdge_eq, matchAt?]
  simp only [run]
  split
  · cases run s threes ⟨start, Array.replicate 2 none⟩ some with
    | none => rfl
    | some next => cases notEmpty <;> simp
  · rfl

/-- The pattern takes no characters, wherever it matches. -/
theorem matchesEmpty_groupEdge (s : Subject) : MatchesEmpty groupEdge s := by
  constructor
  · intro start found hFound
    rw [matchAt?_groupEdge] at hFound
    split at hFound
    · obtain ⟨next, -, hNext⟩ := Option.bind_eq_some_iff.mp hFound
      cases hNext
      rfl
    · cases hFound
  · intro start
    rw [matchAt?_groupEdge]
    simp

section
variable {s : Subject} (hDigits : Digits s)
include hDigits

/-- The pattern matches exactly at the edges of groups. -/
theorem isSome_matchAt?_groupEdge (start : Nat) :
    (matchAt? groupEdge s start false).isSome = true ↔ IsGroupEdge s.size start := by
  have hThrees : (run s threes ⟨start, Array.replicate 2 none⟩ some).isSome = true ↔
      start < s.size ∧ 3 ∣ s.size - start := by
    have hFuel : s.size - start < turnBound s 1 ⟨start, Array.replicate 2 none⟩ := by
      show s.size - start < 1 + 2 * (s.size - start) + 3
      omega
    have hTurns := @isSome_greedyTurns_three s hDigits 0 _ none ⟨start, Array.replicate 2 none⟩ hFuel
      (by simp)
    simpa only [threes, run, Nat.lt_irrefl, false_or] using hTurns
  rw [matchAt?_groupEdge, IsGroupEdge]
  by_cases hEdge : s.meets start (.noWordEdge false) = true
  · generalize run s threes ⟨start, Array.replicate 2 none⟩ some = found at hThrees
    have hSame : (found.bind fun next => if false = true then none else
        some (⟨start, start, next.groups⟩ : Found)).isSome = found.isSome := by
      cases found <;> rfl
    rw [if_pos hEdge, hSame, hThrees]
    exact ⟨fun h => ⟨(meets_noWordEdge hDigits h.1).mp hEdge, h⟩, And.right⟩
  · rw [if_neg hEdge]
    simp only [Option.isSome_none, Bool.false_eq_true, false_iff]
    rintro ⟨hStart, hPlace, -⟩
    exact hEdge ((meets_noWordEdge hDigits hPlace).mpr hStart)

end

end NoteTemplate.Pattern

namespace NoteTemplate.Filter

open Text Pattern

/-- Digits cut from the end into groups of three. The first group has what is left over,
and at least one digit. -/
structure Thousands (digits : List Char) (groups : List (List Char)) : Prop where
  whole : groups.flatten = digits
  first : ∀ group ∈ groups.head?, 1 ≤ group.length ∧ group.length ≤ 3
  others : ∀ group ∈ groups.tail, group.length = 3

/-- Groups of three have three times as many digits as there are groups. -/
theorem length_flatten_threes {groups : List (List Char)} (h : ∀ group ∈ groups, group.length = 3) :
    groups.flatten.length = 3 * groups.length := by
  induction groups with
  | nil => rfl
  | cons group groups ih =>
      rw [List.flatten_cons, List.length_append, h group List.mem_cons_self,
        ih fun other hMem => h other (List.mem_cons_of_mem group hMem), List.length_cons]
      omega

theorem Thousands.concat {digits back : List Char} {groups : List (List Char)}
    (h : Thousands digits groups) (hSome : groups ≠ []) (hBack : back.length = 3) :
    Thousands (digits ++ back) (groups ++ [back]) := by
  obtain ⟨first, others, rfl⟩ := List.exists_cons_of_ne_nil hSome
  refine ⟨by rw [List.flatten_concat, h.whole], h.first, ?_⟩
  rw [List.cons_append, List.tail_cons]
  exact List.forall_mem_append.mpr ⟨h.others, List.forall_mem_singleton.mpr hBack⟩

/-- Every run of digits falls into groups. -/
theorem exists_thousands {digits : List Char} (hSome : digits ≠ []) :
    ∃ groups, groups ≠ [] ∧ Thousands digits groups := by
  by_cases hFew : digits.length ≤ 3
  · have hLeast : 1 ≤ digits.length := List.length_pos_iff.mpr hSome
    exact ⟨[digits], List.cons_ne_nil _ _, by simp, by simpa using ⟨hLeast, hFew⟩, by simp⟩
  · have hFront : digits.take (digits.length - 3) ≠ [] := by
      rw [← List.length_pos_iff, List.length_take]
      omega
    have hBack : (digits.drop (digits.length - 3)).length = 3 := by
      rw [List.length_drop]
      omega
    obtain ⟨groups, hGroups, hThousands⟩ := exists_thousands hFront
    have hConcat := hThousands.concat hGroups hBack
    rw [List.take_append_drop] at hConcat
    exact ⟨_, List.append_ne_nil_of_left_ne_nil hGroups _, hConcat⟩
termination_by digits.length
decreasing_by
  rw [List.length_take]
  omega

/-- The lengths of the groups follow from the number of digits. -/
theorem Thousands.map_length {digits : List Char} {groups : List (List Char)}
    (h : Thousands digits groups) (hSome : digits ≠ []) : groups.map List.length =
      ((digits.length - 1) % 3 + 1) :: List.replicate ((digits.length - 1) / 3) 3 := by
  obtain ⟨rfl, hFirst, hOthers⟩ := h
  cases groups with
  | nil => exact absurd rfl hSome
  | cons first others =>
      obtain ⟨hLeast, hMost⟩ := hFirst first rfl
      rw [List.tail_cons] at hOthers
      have hSize := length_flatten_threes hOthers
      have hCount : (first.length + 3 * others.length - 1) / 3 = others.length := by omega
      have hLeft : (first.length + 3 * others.length - 1) % 3 + 1 = first.length := by omega
      rw [List.flatten_cons, List.length_append, hSize, hCount, hLeft, List.map_cons,
        List.map_eq_replicate_iff.mpr hOthers]

theorem Thousands.unique {digits : List Char} {groups found : List (List Char)}
    (hGroups : Thousands digits groups) (hFound : Thousands digits found) (hSome : digits ≠ []) :
    found = groups := by
  rw [List.eq_iff_flatten_eq, hGroups.whole, hFound.whole, hGroups.map_length hSome,
    hFound.map_length hSome]
  exact ⟨rfl, rfl⟩

/-- A mark at the places between groups, and nothing at the others. -/
def edgeMark (mark : List Char) (size place : Nat) : List Char :=
  if IsGroupEdge size place then mark else []

variable (mark : List Char)

theorem intercalate_cons (first : List Char) (others : List (List Char)) :
    List.intercalate mark (first :: others) = first ++ (others.map (mark ++ ·)).flatten := by
  induction others generalizing first with
  | nil => simp
  | cons second others ih =>
      rw [List.intercalate_cons_cons, ih, List.map_cons, List.flatten_cons, List.append_assoc,
        List.append_assoc]

/-- Whole groups behind other digits each have a mark in front of them. -/
theorem interleaved_threes {groups : List (List Char)} (h : ∀ group ∈ groups, group.length = 3)
    {place size : Nat} (hPlace : 0 < place) (hSize : place + 3 * groups.length = size) :
    interleaved (edgeMark mark size) place groups.flatten = (groups.map (mark ++ ·)).flatten := by
  induction groups generalizing place with
  | nil =>
      have hEnd : ¬ IsGroupEdge size place := fun hEdge =>
        Nat.ne_of_lt hEdge.2.1 (by simpa using hSize)
      exact if_neg hEnd
  | cons group groups ih =>
      obtain ⟨hGroup, hOthers⟩ := List.forall_mem_cons.mp h
      obtain ⟨c, group, rfl⟩ := List.exists_cons_of_length_eq_add_one hGroup
      rw [List.length_cons] at hGroup hSize
      have hEdge : edgeMark mark size place = mark := if_pos ⟨hPlace, by omega, by omega⟩
      have hInside : ∀ index < group.length, edgeMark mark size (place + 1 + index) = [] :=
        fun index hIndex => if_neg fun hInner => by
          have hDvd := hInner.2.2
          omega
      rw [List.flatten_cons, List.cons_append, interleaved, hEdge, interleaved_append hInside,
        ih hOthers (by omega) (by omega), List.map_cons, List.flatten_cons, List.append_assoc]
      rfl

/-- Marks at the edges of groups are marks between the groups. -/
theorem Thousands.interleaved_eq {digits : List Char} {groups : List (List Char)}
    (h : Thousands digits groups) (hSome : digits ≠ []) :
    interleaved (edgeMark mark digits.length) 0 digits = List.intercalate mark groups := by
  obtain ⟨rfl, hFirst, hOthers⟩ := h
  cases groups with
  | nil => exact absurd rfl hSome
  | cons first others =>
      obtain ⟨hLeast, hMost⟩ := hFirst first rfl
      rw [List.tail_cons] at hOthers
      have hSize := length_flatten_threes hOthers
      rw [List.flatten_cons, List.length_append]
      generalize hTotal : first.length + others.flatten.length = size
      -- Up to the end of the first group fewer than three digits are missing to whole groups.
      have hInside : ∀ index < first.length, edgeMark mark size (0 + index) = [] :=
        fun index hIndex => if_neg fun hInner => by
          obtain ⟨hStart, -, hDvd⟩ := hInner
          omega
      rw [interleaved_append hInside, interleaved_threes mark hOthers (by omega) (by omega),
        intercalate_cons]

/-! Marks without escapes. -/

/-- A mark without a backslash stands for itself. -/
theorem readMark?_of_plain (h : '\\' ∉ mark) : readMark? mark = some (mark.map .char) := by
  induction mark with
  | nil => rw [readMark?, List.map_nil]
  | cons c rest ih =>
      rw [List.mem_cons, not_or] at h
      obtain ⟨hHere, hLater⟩ := h
      rw [readMark?, ih hLater, Option.map_some, List.map_cons]
      exact fun hEscape => hHere hEscape.symm

theorem markText_chars (lastGroup : List Char) : markText (mark.map .char) lastGroup = mark := by
  simp [markText, List.flatMap_map]

/-- The places at which the filter puts a mark are the edges of groups. -/
theorem markAt_groupEdge {digits : List Char} (hDigits : ∀ c ∈ digits, isAsciiDigit c = true) :
    markAt groupEdge ⟨digits.toArray⟩ (fun _ => mark) = edgeMark mark digits.length := by
  have hSubject : Digits ⟨digits.toArray⟩ := fun c hMem => hDigits c (List.mem_toArray.mp hMem)
  have hSize : Subject.size ⟨digits.toArray⟩ = digits.length := List.size_toArray
  funext place
  have hEdge := isSome_matchAt?_groupEdge hSubject place
  rw [hSize] at hEdge
  rw [markAt, edgeMark]
  cases hFound : matchAt? groupEdge ⟨digits.toArray⟩ place false with
  | none =>
      rw [hFound, Option.isSome_none] at hEdge
      rw [if_neg (mt hEdge.mpr Bool.false_ne_true), Option.map_none, Option.getD_none]
  | some found =>
      rw [hFound, Option.isSome_some] at hEdge
      rw [if_pos (hEdge.mp rfl), Option.map_some, Option.getD_some]

theorem groupDigits?_eq_interleaved {digits : List Char}
    (hDigits : ∀ c ∈ digits, isAsciiDigit c = true) (hMark : '\\' ∉ mark) :
    groupDigits? mark digits = some (interleaved (edgeMark mark digits.length) 0 digits) := by
  rw [groupDigits?, readMark?_of_plain mark hMark, Option.map_some,
    (matchesEmpty_groupEdge _).replace_eq]
  simp only [markText_chars, markAt_groupEdge mark hDigits]

/-! The two ends of grouped digits. -/

/-- No group is empty. -/
theorem Thousands.ne_nil {digits : List Char} {groups : List (List Char)}
    (h : Thousands digits groups) : ∀ group ∈ groups, group ≠ [] := by
  intro group hMem
  rw [← List.length_pos_iff]
  cases groups with
  | nil => cases hMem
  | cons first others =>
      rcases List.mem_cons.mp hMem with rfl | hOther
      · exact (h.first group rfl).1
      · have hThree := h.others group hOther
        omega

/-- A mark in front of each group leaves the last digit where it is. -/
theorem getLast?_marked {groups : List (List Char)} (h : ∀ group ∈ groups, group ≠ []) :
    (groups.map (mark ++ ·)).flatten.getLast? = groups.flatten.getLast? := by
  induction groups using List.reverseRecOn with
  | nil => rfl
  | append_singleton groups group _ =>
      have hGroup : group ≠ [] := h group (List.mem_append_right _ List.mem_cons_self)
      rw [List.map_append, List.flatten_append, List.flatten_append, List.map_singleton,
        List.flatten_singleton, List.flatten_singleton,
        List.getLast?_append_of_ne_nil _ (List.append_ne_nil_of_right_ne_nil mark hGroup),
        List.getLast?_append_of_ne_nil mark hGroup, List.getLast?_append_of_ne_nil _ hGroup]

/-- Between the ends of the digits and the ends of their grouping there is no mark. -/
theorem Thousands.ends {digits : List Char} {groups : List (List Char)}
    (h : Thousands digits groups) (hSome : digits ≠ []) :
    (List.intercalate mark groups).head? = digits.head? ∧
      (List.intercalate mark groups).getLast? = digits.getLast? := by
  have hGroups := h.ne_nil
  obtain ⟨rfl, -, -⟩ := h
  cases groups with
  | nil => exact absurd rfl hSome
  | cons first others =>
      obtain ⟨hFirst, hOthers⟩ := List.forall_mem_cons.mp hGroups
      rw [intercalate_cons, List.flatten_cons]
      constructor
      · rw [List.head?_append_of_ne_nil _ hFirst, List.head?_append_of_ne_nil _ hFirst]
      · rw [List.getLast?_append, List.getLast?_append, getLast?_marked mark hOthers]

/-- Digits have one cut into groups of three from the end, and with any mark that has no escapes
the filter puts the mark between these groups and nowhere else. The mark may be empty, long, or
made of digits itself. -/
theorem groupDigits?_eq_intercalate {digits mark : List Char} (hSome : digits ≠ [])
    (hDigits : ∀ c ∈ digits, isAsciiDigit c = true) (hMark : '\\' ∉ mark) :
    (∃! groups, Thousands digits groups) ∧
      ∀ groups, Thousands digits groups →
        groupDigits? mark digits = some (List.intercalate mark groups) ∧
        (List.intercalate mark groups).head? = digits.head? ∧
        (List.intercalate mark groups).getLast? = digits.getLast? := by
  refine ⟨?_, fun groups hGroups => ?_⟩
  · obtain ⟨groups, -, hGroups⟩ := exists_thousands hSome
    exact ⟨groups, hGroups, fun found hFound => hGroups.unique hFound hSome⟩
  · rw [groupDigits?_eq_interleaved mark hDigits hMark, hGroups.interleaved_eq mark hSome]
    exact ⟨rfl, hGroups.ends mark hSome⟩

/-- Zeros in front count as digits, and digits in the mark do not move the groups. -/
theorem groupDigits?_leading_zeros :
    "0001234".toList ≠ [] ∧ (∀ c ∈ "0001234".toList, isAsciiDigit c = true) ∧
      '\\' ∉ "1,0".toList ∧
      Thousands "0001234".toList ["0".toList, "001".toList, "234".toList] ∧
      groupDigits? "1,0".toList "0001234".toList = some "01,00011,0234".toList := by
  have hDigits : ∀ c ∈ "0001234".toList, isAsciiDigit c = true := List.all_eq_true.mp (by decide)
  have hThousands : Thousands "0001234".toList ["0".toList, "001".toList, "234".toList] :=
    ⟨by decide, by simp, by simp⟩
  have hGrouped := (groupDigits?_eq_intercalate (by decide) hDigits
    (show '\\' ∉ "1,0".toList by decide)).2 _ hThousands
  exact ⟨by decide, hDigits, by decide, hThousands, hGrouped.1⟩

end NoteTemplate.Filter
