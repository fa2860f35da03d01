import Mathlib.Data.List.Sort
import Mathlib.Data.String.Basic
import Mathlib.Order.Bounds.Basic
import Mathlib.Order.MinMax
import NoteTemplate.EditDistance

/-! The distance of two texts. A table of the distances of their beginnings is filled
row by row, and its last entry is the least number of edits, each of one character,
that turn one text into the other. -/
namespace NoteTemplate.EditDistance

/-- One insertion, deletion or substitution of a character, anywhere in a text. -/
inductive Edit : List Char → List Char → Prop where
  | insert (before after : List Char) (c : Char) : Edit (before ++ after) (before ++ c :: after)
  | delete (before after : List Char) (c : Char) : Edit (before ++ c :: after) (before ++ after)
  | substitute (before after : List Char) (c d : Char) :
      Edit (before ++ c :: after) (before ++ d :: after)

/-- A number of edits one after another that turn one text into another. -/
inductive EditsTo : Nat → List Char → List Char → Prop where
  | done (a : List Char) : EditsTo 0 a a
  | edit {count : Nat} {a b c : List Char} (prior : EditsTo count a b) (last : Edit b c) :
      EditsTo (count + 1) a c

/-- Two texts side by side, read once from the left, with the number of places where
they differ. -/
inductive Aligned : Nat → List Char → List Char → Prop where
  | nil : Aligned 0 [] []
  | keep {count : Nat} {a b : List Char} (c : Char) (rest : Aligned count a b) :
      Aligned count (c :: a) (c :: b)
  | substitute {count : Nat} {a b : List Char} (c d : Char) (rest : Aligned count a b) :
      Aligned (count + 1) (c :: a) (d :: b)
  | delete {count : Nat} {a b : List Char} (c : Char) (rest : Aligned count a b) :
      Aligned (count + 1) (c :: a) b
  | insert {count : Nat} {a b : List Char} (d : Char) (rest : Aligned count a b) :
      Aligned (count + 1) a (d :: b)

/-- The distance by recursion on the texts: something is done to a first character,
or the two first characters are matched. -/
def leastEdits : List Char → List Char → Nat
  | [], b => b.length
  | c :: a, [] => (c :: a).length
  | c :: a, d :: b =>
    min (leastEdits a (d :: b) + 1)
      (min (leastEdits (c :: a) b + 1) (leastEdits a b + if c = d then 0 else 1))
termination_by a b => a.length + b.length

variable {a b c : List Char} {count : Nat}

/-! Edits one after another, and side by side. -/

theorem Edit.cons (x : Char) (h : Edit a b) : Edit (x :: a) (x :: b) := by
  cases h with
  | insert before after c => exact .insert (x :: before) after c
  | delete before after c => exact .delete (x :: before) after c
  | substitute before after c d => exact .substitute (x :: before) after c d

theorem EditsTo.cons (x : Char) (h : EditsTo count a b) : EditsTo count (x :: a) (x :: b) := by
  induction h with
  | done a => exact .done (x :: a)
  | edit _ last ih => exact .edit ih (last.cons x)

theorem EditsTo.trans {more : Nat} (first : EditsTo count a b) (second : EditsTo more b c) :
    EditsTo (count + more) a c := by
  induction second with
  | done => exact first
  | edit _ last ih => exact .edit (ih first) last

theorem editsTo_zero_iff : EditsTo 0 a b ↔ a = b := by
  constructor
  · intro h
    cases h
    rfl
  · rintro rfl
    exact .done a

/-- Texts side by side tell how to edit one into the other, from the right end on. -/
theorem Aligned.editsTo (h : Aligned count a b) : EditsTo count a b := by
  induction h with
  | nil => exact .done []
  | keep c _ ih => exact ih.cons c
  | @substitute _ _ b c d _ ih => exact .edit (ih.cons c) (.substitute [] b c d)
  | @delete _ _ b c _ ih => exact .edit (ih.cons c) (.delete [] b c)
  | @insert _ _ b d _ ih => exact .edit ih (.insert [] b d)

theorem Edit.of_nil (h : Edit [] b) : ∃ d, b = [d] := by
  generalize hText : ([] : List Char) = text at h
  cases h with
  | insert before after d =>
      obtain ⟨rfl, rfl⟩ := List.append_eq_nil_iff.mp hText.symm
      exact ⟨d, rfl⟩
  | delete | substitute => simp at hText

/-- An edit concerns the first character, or what is behind it. -/
theorem Edit.of_cons {x : Char} (h : Edit (x :: a) b) :
    (∃ d, b = d :: x :: a) ∨ b = a ∨ (∃ d, b = d :: a) ∨ ∃ rest, b = x :: rest ∧ Edit a rest := by
  generalize hText : x :: a = text at h
  cases h with
  | insert before after d =>
      cases before with
      | nil => exact .inl ⟨d, rfl⟩
      | cons y before =>
          obtain ⟨rfl, rfl⟩ := List.cons.inj hText
          exact .inr (.inr (.inr ⟨_, rfl, .insert before after d⟩))
  | delete before after c =>
      cases before with
      | nil =>
          obtain ⟨rfl, rfl⟩ := List.cons.inj hText
          exact .inr (.inl rfl)
      | cons y before =>
          obtain ⟨rfl, rfl⟩ := List.cons.inj hText
          exact .inr (.inr (.inr ⟨_, rfl, .delete before after c⟩))
  | substitute before after c d =>
      cases before with
      | nil =>
          obtain ⟨rfl, rfl⟩ := List.cons.inj hText
          exact .inr (.inr (.inl ⟨d, rfl⟩))
      | cons y before =>
          obtain ⟨rfl, rfl⟩ := List.cons.inj hText
          exact .inr (.inr (.inr ⟨_, rfl, .substitute before after c d⟩))

/-- One more edit costs at most one more place. By induction on the places; the edit
concerns the first one, or is made in the rest. -/
theorem Aligned.edited (h : Aligned count a b) (last : Edit b c) :
    ∃ fewer ≤ count + 1, Aligned fewer a c := by
  induction h generalizing c with
  | nil =>
      obtain ⟨d, rfl⟩ := last.of_nil
      exact ⟨1, le_refl 1, .insert d .nil⟩
  | @keep count _ _ x rest ih =>
      obtain ⟨d, rfl⟩ | rfl | ⟨d, rfl⟩ | ⟨behind, rfl, hEdit⟩ := last.of_cons
      · exact ⟨count + 1, le_refl _, .insert d (.keep x rest)⟩
      · exact ⟨count + 1, le_refl _, .delete x rest⟩
      · exact ⟨count + 1, le_refl _, .substitute x d rest⟩
      · obtain ⟨fewer, hFewer, hRest⟩ := ih hEdit
        exact ⟨fewer, hFewer, .keep x hRest⟩
  | @substitute count _ _ x y rest ih =>
      obtain ⟨d, rfl⟩ | rfl | ⟨d, rfl⟩ | ⟨behind, rfl, hEdit⟩ := last.of_cons
      · exact ⟨count + 2, le_refl _, .insert d (.substitute x y rest)⟩
      · exact ⟨count + 1, by omega, .delete x rest⟩
      · exact ⟨count + 1, by omega, .substitute x d rest⟩
      · obtain ⟨fewer, hFewer, hRest⟩ := ih hEdit
        exact ⟨fewer + 1, by omega, .substitute x y hRest⟩
  | delete x _ ih =>
      obtain ⟨fewer, hFewer, hRest⟩ := ih last
      exact ⟨fewer + 1, by omega, .delete x hRest⟩
  | @insert count _ _ y rest ih =>
      obtain ⟨d, rfl⟩ | rfl | ⟨d, rfl⟩ | ⟨behind, rfl, hEdit⟩ := last.of_cons
      · exact ⟨count + 2, le_refl _, .insert d (.insert y rest)⟩
      · exact ⟨count, by omega, rest⟩
      · exact ⟨count + 1, by omega, .insert d rest⟩
      · obtain ⟨fewer, hFewer, hRest⟩ := ih hEdit
        exact ⟨fewer + 1, by omega, .insert y hRest⟩

theorem Aligned.refl (a : List Char) : Aligned 0 a a := by
  induction a with
  | nil => exact .nil
  | cons c _ ih => exact .keep c ih

/-- No number of edits is less than the number of places where the texts need differ. -/
theorem EditsTo.exists_aligned (h : EditsTo count a b) : ∃ fewer ≤ count, Aligned fewer a b := by
  induction h with
  | done a => exact ⟨0, le_refl 0, .refl a⟩
  | edit _ last ih =>
      obtain ⟨places, hPlaces, hAligned⟩ := ih
      obtain ⟨fewer, hFewer, hEdited⟩ := hAligned.edited last
      exact ⟨fewer, by omega, hEdited⟩

theorem Aligned.symm (h : Aligned count a b) : Aligned count b a := by
  induction h with
  | nil => exact .nil
  | keep c _ ih => exact .keep c ih
  | substitute c d _ ih => exact .substitute d c ih
  | delete c _ ih => exact .insert c ih
  | insert d _ ih => exact .delete d ih

/-- Alignments may be put in a row. -/
theorem Aligned.append {more : Nat} {a' b' : List Char} (first : Aligned count a b)
    (second : Aligned more a' b') : Aligned (count + more) (a ++ a') (b ++ b') := by
  induction first with
  | nil =>
      rw [Nat.zero_add]
      exact second
  | keep c _ ih => exact .keep c ih
  | @substitute count _ _ c d _ ih =>
      rw [Nat.add_right_comm]
      exact .substitute c d ih
  | delete c _ ih =>
      rw [Nat.add_right_comm]
      exact .delete c ih
  | insert d _ ih =>
      rw [Nat.add_right_comm]
      exact .insert d ih

/-- Read from the right, texts differ in as many places. -/
theorem Aligned.reverse (h : Aligned count a b) : Aligned count a.reverse b.reverse := by
  induction h with
  | nil => exact .nil
  | keep c _ ih =>
      rw [List.reverse_cons, List.reverse_cons]
      exact ih.append (.keep c .nil)
  | substitute c d _ ih =>
      rw [List.reverse_cons, List.reverse_cons]
      exact ih.append (.substitute c d .nil)
  | @delete _ _ b c _ ih =>
      rw [List.reverse_cons, ← List.append_nil b.reverse]
      exact ih.append (.delete c .nil)
  | @insert _ a _ d _ ih =>
      rw [List.reverse_cons, ← List.append_nil a.reverse]
      exact ih.append (.insert d .nil)

/-! The recursion. -/

theorem leastEdits_nil (b : List Char) : leastEdits [] b = b.length := by rw [leastEdits]

theorem leastEdits_nil_right (a : List Char) : leastEdits a [] = a.length := by
  cases a with
  | nil => rw [leastEdits]
  | cons => rw [leastEdits]

theorem leastEdits_cons_cons (c d : Char) (a b : List Char) : leastEdits (c :: a) (d :: b) =
    min (leastEdits a (d :: b) + 1)
      (min (leastEdits (c :: a) b + 1) (leastEdits a b + if c = d then 0 else 1)) := by
  rw [leastEdits]

/-- The recursion counts the edits of an alignment. -/
theorem aligned_leastEdits (a b : List Char) : Aligned (leastEdits a b) a b := by
  fun_induction leastEdits a b with
  | case1 b =>
      induction b with
      | nil => exact .nil
      | cons d _ ih => exact .insert d ih
  | case2 c a =>
      induction a generalizing c with
      | nil => exact .delete c .nil
      | cons d _ ih => exact .delete c (ih d)
  | case3 c a d b ihDelete ihInsert ihMatch =>
      rcases min_choice (leastEdits a (d :: b) + 1)
        (min (leastEdits (c :: a) b + 1) (leastEdits a b + if c = d then 0 else 1)) with hMin | hMin
      · rw [hMin]
        exact .delete c ihDelete
      · rw [hMin]
        rcases min_choice (leastEdits (c :: a) b + 1)
          (leastEdits a b + if c = d then 0 else 1) with hMin | hMin
        · rw [hMin]
          exact .insert d ihInsert
        · rw [hMin]
          split
          · next hSame =>
            rw [hSame]
            exact .keep d ihMatch
          · exact .substitute c d ihMatch

theorem leastEdits_delete_le (c : Char) (a b : List Char) :
    leastEdits (c :: a) b ≤ leastEdits a b + 1 := by
  cases b with
  | nil => rw [leastEdits_nil_right, leastEdits_nil_right, List.length_cons]
  | cons d b =>
      rw [leastEdits_cons_cons]
      exact min_le_left _ _

theorem leastEdits_insert_le (d : Char) (a b : List Char) :
    leastEdits a (d :: b) ≤ leastEdits a b + 1 := by
  cases a with
  | nil => rw [leastEdits_nil, leastEdits_nil, List.length_cons]
  | cons c a =>
      rw [leastEdits_cons_cons]
      exact (min_le_right _ _).trans (min_le_left _ _)

theorem leastEdits_match_le (c d : Char) (a b : List Char) :
    leastEdits (c :: a) (d :: b) ≤ leastEdits a b + if c = d then 0 else 1 := by
  rw [leastEdits_cons_cons]
  exact (min_le_right _ _).trans (min_le_right _ _)

/-- No alignment has fewer edits than the recursion counts. -/
theorem Aligned.leastEdits_le (h : Aligned count a b) : leastEdits a b ≤ count := by
  induction h with
  | nil => rw [leastEdits_nil, List.length_nil]
  | @keep count a b c _ ih =>
      have hFirst := leastEdits_match_le c c a b
      rw [if_pos rfl] at hFirst
      omega
  | @substitute count a b c d _ ih =>
      have hFirst := leastEdits_match_le c d a b
      split at hFirst <;> omega
  | @delete count a b c _ ih =>
      have hFirst := leastEdits_delete_le c a b
      omega
  | @insert count a b d _ ih =>
      have hFirst := leastEdits_insert_le d a b
      omega

/-- The recursion gives the least number of edits. -/
theorem isLeast_leastEdits (a b : List Char) :
    IsLeast {count | EditsTo count a b} (leastEdits a b) := by
  refine ⟨(aligned_leastEdits a b).editsTo, fun count h => ?_⟩
  obtain ⟨fewer, hFewer, hAligned⟩ := h.exists_aligned
  exact hAligned.leastEdits_le.trans hFewer

theorem leastEdits_symm (a b : List Char) : leastEdits a b = leastEdits b a :=
  le_antisymm (aligned_leastEdits b a).symm.leastEdits_le (aligned_leastEdits a b).symm.leastEdits_le

theorem leastEdits_reverse (a b : List Char) :
    leastEdits a.reverse b.reverse = leastEdits a b := by
  refine le_antisymm (aligned_leastEdits a b).reverse.leastEdits_le ?_
  have hBack := (aligned_leastEdits a.reverse b.reverse).reverse
  rw [List.reverse_reverse, List.reverse_reverse] at hBack
  exact hBack.leastEdits_le

/-- The recursion may also be made at the right end. -/
theorem leastEdits_concat_concat (c d : Char) (a b : List Char) :
    leastEdits (a ++ [c]) (b ++ [d]) =
      min (leastEdits a (b ++ [d]) + 1)
        (min (leastEdits (a ++ [c]) b + 1) (leastEdits a b + if c = d then 0 else 1)) := by
  rw [← leastEdits_reverse, ← leastEdits_reverse a (b ++ [d]), ← leastEdits_reverse (a ++ [c]) b,
    ← leastEdits_reverse a b, List.reverse_concat, List.reverse_concat, leastEdits_cons_cons]

/-! The table. -/

/-- The entries of a row behind one beginning of the other text: the distances of all
longer beginnings. -/
def rowBehind (a before : List Char) : List Char → List Nat
  | [] => []
  | d :: rest => leastEdits a (before ++ [d]) :: rowBehind a (before ++ [d]) rest

/-- The row of a beginning of the text. -/
def row (a b : List Char) : List Nat := leastEdits a [] :: rowBehind a [] b

/-- One more character of the first text leads from its row to the next one. -/
theorem distanceRow_rowBehind (c : Char) (a before rest : List Char) :
    distanceRow c (leastEdits a before) (leastEdits (a ++ [c]) before) rest (rowBehind a before rest) =
      rowBehind (a ++ [c]) before rest := by
  induction rest generalizing before with
  | nil => rfl
  | cons d rest ih =>
      rw [rowBehind, rowBehind, distanceRow, ← ih, leastEdits_concat_concat]

/-- The rows of the table are those of the recursion, for each beginning of the first
text. -/
theorem distanceRows_row (b a rest : List Char) :
    distanceRows b a.length (row a b) rest = row (a ++ rest) b := by
  induction rest generalizing a with
  | nil => rw [distanceRows, List.append_nil]
  | cons c rest ih =>
      have hLength : a.length + 1 = (a ++ [c]).length := by rw [List.length_append, List.length_singleton]
      have hFirst : leastEdits (a ++ [c]) [] = a.length + 1 := by rw [leastEdits_nil_right, hLength]
      rw [row, distanceRows, ← hFirst, distanceRow_rowBehind, ← row, hFirst, hLength, ih,
        List.append_assoc, List.singleton_append]

theorem rowBehind_nil (before rest : List Char) :
    rowBehind [] before rest = List.range' (before.length + 1) rest.length := by
  induction rest generalizing before with
  | nil => rfl
  | cons d rest ih =>
      rw [rowBehind, ih, leastEdits_nil, List.length_append, List.length_singleton, List.length_cons,
        List.range'_succ]

/-- The first row counts the characters of the other text. -/
theorem row_nil (b : List Char) : row [] b = List.range (b.length + 1) := by
  rw [row, rowBehind_nil, leastEdits_nil, List.length_nil, List.range_eq_range', List.range'_succ]

theorem getLastD_rowBehind (a before rest : List Char) :
    (rowBehind a before rest).getLastD (leastEdits a before) = leastEdits a (before ++ rest) := by
  induction rest generalizing before with
  | nil => rw [rowBehind, List.getLastD_nil, List.append_nil]
  | cons d rest ih =>
      rw [rowBehind, List.getLastD_cons, ih, List.append_assoc, List.singleton_append]

/-- The last entry of the last row is the distance of the whole texts. -/
theorem editDistance_eq_leastEdits (a b : List Char) : editDistance a b = leastEdits a b := by
  have hRows : distanceRows b 0 (List.range (b.length + 1)) a = row a b := by
    rw [← row_nil]
    exact distanceRows_row b [] a
  rw [editDistance, hRows, row, List.getLastD_cons, getLastD_rowBehind, List.nil_append]

/-- The distance of two texts is the least number of insertions, deletions and
substitutions of a character that turn one into the other, which is what the recursion
on the texts gives. It is zero only for equal texts, the same in both directions, and
no longer than a way over a third text. -/
theorem editDistance_isLeast (a b c : List Char) :
    IsLeast {count | EditsTo count a b} (editDistance a b) ∧
      editDistance a b = leastEdits a b ∧ (editDistance a b = 0 ↔ a = b) ∧
      editDistance a b = editDistance b a ∧
      editDistance a c ≤ editDistance a b + editDistance b c := by
  simp only [editDistance_eq_leastEdits]
  have hLeast := isLeast_leastEdits a b
  have hBehind := isLeast_leastEdits b c
  refine ⟨hLeast, trivial, ⟨fun hZero => ?_, ?_⟩, leastEdits_symm a b, ?_⟩
  · have hNone : EditsTo (leastEdits a b) a b := hLeast.1
    rw [hZero] at hNone
    exact editsTo_zero_iff.mp hNone
  · rintro rfl
    exact Nat.le_zero.mp (hLeast.2 (EditsTo.done a))
  · exact (isLeast_leastEdits a c).2 (EditsTo.trans hLeast.1 hBehind.1)

example : editDistance "kitten".toList "sitting".toList = 3 := by decide

end NoteTemplate.EditDistance

/-! The name that is suggested for an unknown one. Candidates are looked at in order,
and each is taken if it is near enough and nearer than the best so far. In the end
that is the least of the candidates that are near enough, by distance and then by
order, so it depends on nothing but which candidates there are. -/
namespace NoteTemplate

/-- Whether a candidate is near enough to a name to be meant: with fewer edits, case
aside, than half of the characters of the longer one. -/
def Near (name candidate : String) : Prop :=
  2 * editDistance (Text.lower name.toList) (Text.lower candidate.toList) <
    max name.length candidate.length

/-- A candidate that is near enough, at the least distance of all that are, and the
first of those at this distance. -/
structure IsNearest (name : String) (candidates : List String) (best : String) : Prop where
  mem : best ∈ candidates
  near : Near name best
  least : ∀ c ∈ candidates, Near name c → nameDistance name best ≤ nameDistance name c
  first : ∀ c ∈ candidates, Near name c → nameDistance name c = nameDistance name best → best ≤ c

variable {name best other : String} {candidates others seen rest : List String}

theorem isNear_iff (name candidate : String) :
    isNear name candidate (nameDistance name candidate) = true ↔ Near name candidate :=
  decide_eq_true_iff

theorem IsNearest.unique (h : IsNearest name candidates best) (k : IsNearest name candidates other) :
    best = other := by
  have hDistance : nameDistance name best = nameDistance name other :=
    Nat.le_antisymm (h.least other k.mem k.near) (k.least best h.mem h.near)
  exact le_antisymm (h.first other k.mem k.near hDistance.symm) (k.first best h.mem h.near hDistance)

theorem IsNearest.congr (h : IsNearest name candidates best)
    (hSame : ∀ c, c ∈ others ↔ c ∈ candidates) : IsNearest name others best where
  mem := (hSame best).mpr h.mem
  near := h.near
  least := fun c hMem => h.least c ((hSame c).mp hMem)
  first := fun c hMem => h.first c ((hSame c).mp hMem)

/-- The best candidate so far, with its distance, among those that have been seen. -/
inductive BestOf (name : String) (seen : List String) : Option (String × Nat) → Prop where
  | nothing (hFar : ∀ c ∈ seen, ¬ Near name c) : BestOf name seen none
  | found {best : String} (h : IsNearest name seen best) :
      BestOf name seen (some (best, nameDistance name best))

/-- A candidate that is not near enough changes nothing, and neither does one that is
no nearer than the best so far and stands behind it. -/
theorem IsNearest.concat (h : IsNearest name seen best)
    (hOther : Near name other → nameDistance name best ≤ nameDistance name other ∧ best ≤ other) :
    IsNearest name (seen ++ [other]) best where
  mem := List.mem_append_left _ h.mem
  near := h.near
  least := by
    simp only [List.mem_append, List.mem_singleton]
    rintro c (hSeen | rfl) hNear
    · exact h.least c hSeen hNear
    · exact (hOther hNear).1
  first := by
    simp only [List.mem_append, List.mem_singleton]
    rintro c (hSeen | rfl) hNear hSame
    · exact h.first c hSeen hNear hSame
    · exact (hOther hNear).2

/-- A candidate that is near enough, and nearer than all before, is the nearest. -/
theorem isNearest_concat (hNear : Near name other)
    (hAll : ∀ c ∈ seen, Near name c → nameDistance name other < nameDistance name c) :
    IsNearest name (seen ++ [other]) other where
  mem := List.mem_append_right _ List.mem_cons_self
  near := hNear
  least := by
    simp only [List.mem_append, List.mem_singleton]
    rintro c (hSeen | rfl) hOther
    · exact Nat.le_of_lt (hAll c hSeen hOther)
    · exact Nat.le_refl _
  first := by
    simp only [List.mem_append, List.mem_singleton]
    rintro c (hSeen | rfl) hOther hSame
    · exact absurd hSame (Nat.ne_of_gt (hAll c hSeen hOther))
    · exact le_refl c

/-- One more candidate, which stands behind those that have been seen. -/
theorem BestOf.step {best : Option (String × Nat)} (h : BestOf name seen best)
    (hLater : ∀ c ∈ seen, c ≤ other) : BestOf name (seen ++ [other]) (nearer name best other) := by
  by_cases hNear : Near name other
  · have hChoose := (isNear_iff name other).mpr hNear
    cases h with
    | nothing hFar =>
        have hTaken : nearer name none other = some (other, nameDistance name other) :=
          if_pos hChoose
        rw [hTaken]
        exact .found (isNearest_concat hNear fun c hSeen hOther => absurd hOther (hFar c hSeen))
    | @found best h =>
        have hChoice : nearer name (some (best, nameDistance name best)) other =
            if nameDistance name other < nameDistance name best then
              some (other, nameDistance name other)
            else some (best, nameDistance name best) :=
          if_pos hChoose
        rw [hChoice]
        split
        · next hLess =>
            exact .found (isNearest_concat hNear fun c hSeen hOther =>
              Nat.lt_of_lt_of_le hLess (h.least c hSeen hOther))
        · next hMore =>
            exact .found (h.concat fun _ => ⟨Nat.le_of_not_lt hMore, hLater best h.mem⟩)
  · have hSame : nearer name best other = best := if_neg (mt (isNear_iff name other).mp hNear)
    rw [hSame]
    cases h with
    | nothing hFar =>
        refine .nothing fun c hMem => ?_
        rcases List.mem_append.mp hMem with hSeen | hLast
        · exact hFar c hSeen
        · rwa [List.mem_singleton.mp hLast]
    | found h => exact .found (h.concat fun hOther => absurd hOther hNear)

/-- Candidates one after another, in order. -/
theorem BestOf.run {best : Option (String × Nat)} (h : BestOf name seen best)
    (hSorted : (seen ++ rest).Pairwise (· ≤ ·)) :
    BestOf name (seen ++ rest) (rest.foldl (nearer name) best) := by
  induction rest generalizing seen best with
  | nil => rwa [List.append_nil]
  | cons c rest ih =>
      have hLater : ∀ d ∈ seen, d ≤ c := fun d hSeen =>
        (List.pairwise_append.mp hSorted).2.2 d hSeen c List.mem_cons_self
      rw [List.append_cons] at hSorted ⊢
      exact ih (h.step hLater) hSorted

/-- What is suggested is the nearest candidate, and there is nothing only if no candidate
is near enough. -/
theorem nearest_cases (name : String) (candidates : List String) :
    (nearest name candidates = none ∧ ∀ c ∈ candidates, ¬ Near name c) ∨
      ∃ best, nearest name candidates = some best ∧ IsNearest name candidates best := by
  have hSorted : (candidates.mergeSort fun a b => a ≤ b).Pairwise (· ≤ ·) :=
    List.pairwise_mergeSort' (· ≤ ·) candidates
  have hStart : BestOf name [] none := .nothing (List.forall_mem_nil _)
  have hRun := hStart.run hSorted
  rw [List.nil_append] at hRun
  have hSame (c : String) : c ∈ candidates ↔ c ∈ candidates.mergeSort fun a b => a ≤ b :=
    List.mem_mergeSort.symm
  rw [nearest]
  generalize (candidates.mergeSort fun a b => a ≤ b).foldl (nearer name) none = best at hRun ⊢
  cases hRun with
  | nothing hFar => exact .inl ⟨rfl, fun c hMem => hFar c ((hSame c).mp hMem)⟩
  | @found best h => exact .inr ⟨best, rfl, h.congr hSame⟩

/-- The name that is suggested is the nearest candidate, and there is none exactly if no
candidate is near enough. It does not matter in which order and how often the candidates
are given. -/
theorem nearest_isNearest (name : String) (candidates : List String) :
    (nearest name candidates = none ↔ ∀ c ∈ candidates, ¬ Near name c) ∧
      (∀ best, nearest name candidates = some best ↔ IsNearest name candidates best) ∧
      ∀ others : List String, (∀ c, c ∈ others ↔ c ∈ candidates) →
        nearest name others = nearest name candidates := by
  have hSome (candidates : List String) (best : String) :
      nearest name candidates = some best ↔ IsNearest name candidates best := by
    rcases nearest_cases name candidates with ⟨hNone, hFar⟩ | ⟨found, hFound, h⟩
    · rw [hNone]
      exact iff_of_false nofun fun h => hFar best h.mem h.near
    · rw [hFound, Option.some_inj]
      exact ⟨fun hSame => hSame ▸ h, h.unique⟩
  refine ⟨?_, hSome candidates, fun others hSame => ?_⟩
  · rcases nearest_cases name candidates with ⟨hNone, hFar⟩ | ⟨found, hFound, h⟩
    · exact iff_of_true hNone hFar
    · rw [hFound]
      exact iff_of_false nofun fun hFar => hFar found h.mem h.near
  · refine Option.ext fun best => ?_
    rw [hSome, hSome]
    exact ⟨fun h => h.congr fun c => (hSame c).symm, fun h => h.congr hSame⟩

example : nearest "Titel" ["tile", "title", "time", "tile"] = some "tile" := by cbv

end NoteTemplate
