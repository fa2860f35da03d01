import NoteTemplate.Proofs.RoundTrip.Operators

/-! The reader on filters and their arguments. A list of arguments goes on at
every separator, so it is read to its end only where none follows; arguments in
parentheses are expressions of their own. -/
namespace NoteTemplate.Tokens

open Token NoteTemplate.Expr

/-- A filter without arguments is read behind the expression that it is applied to. -/
theorem reads_filterAlone {value : Expr} {name : String} (p : Place) (hValue : Reads .filtered value) :
    Reads .filtered (.filter value name [] [] false p) := by
  intro fuel ts rest hTokens hFuel hStays
  obtain ⟨-, -, hColon⟩ := ne_of_stays hStays
  rw [shapes] at hTokens
  obtain ⟨front, later, rfl, hFront, hLater⟩ := exists_append_of_map_shape hTokens
  obtain ⟨pipe, later, rfl, hPipe, -, hLater⟩ := exists_cons_of_map_shape hLater
  obtain ⟨word, last, rfl, hWord, hName, hLast⟩ := exists_cons_of_map_shape hLater
  obtain rfl := List.map_eq_nil_iff.mp hLast
  simp only [List.length_cons, List.length_append, List.length_nil] at hFuel ⊢
  have hNext : nextKind (pipe :: word :: rest) = .pipe := hPipe
  obtain ⟨found, left, hSame, hLeft, hRead⟩ := hValue fuel front (pipe :: word :: rest) hFront
    (by omega) (by rw [hNext]; exact stays_of_ends rfl)
  obtain ⟨left, rfl⟩ := Nat.exists_eq_add_of_lt (show 0 < left by omega)
  refine ⟨.filter found name [] [] false word.place, 0 + left, by rw [unplaced, hSame, unplaced],
    by omega, fun room => ?_⟩
  simp only [List.cons_append, List.append_assoc, List.nil_append, depth, depthAll, Bool.false_and,
    Bool.false_eq_true, if_false, Nat.max_zero]
  have hCurrent : current (word :: rest) = word := rfl
  have hBehind : advance (word :: rest) = rest := advance_cons hWord (by decide) rest
  refine (hRead room).trans_eq ?_
  rw [readFilters, at?_iff.mpr hNext, advance_cons hPipe (by decide)]
  simp only [if_true, hCurrent, hWord, hBehind, at?_eq_false hColon, hName]
  rfl

/-- A token that makes no bare word with the next one stands alone. -/
theorem gluedRun_alone {t : Token} {rest : List Token}
    (h : isWordPart t.kind = true → isWordPart (nextKind rest) = false) :
    (gluedRun t rest).1 = [] := by
  cases rest with
  | nil => rfl
  | cons next later =>
      have hApart : glued t next = false := by
        cases hWord : isWordPart t.kind with
        | false => rw [glued, hWord, Bool.false_and, Bool.false_and]
        | true =>
            have hNext : isWordPart next.kind = false := h hWord
            rw [glued, hNext, Bool.and_false, Bool.false_and]
      rw [gluedRun, hApart]
      rfl

/-- An argument of a filter in front of a token that does not go on with it. -/
theorem readArgument_append {e : Expr} (h : Reads .accessed e) (fuel : Nat) (ts rest : List Token)
    (hTokens : ts.map shape = e.shapes) (hFuel : 16 * ts.length + 2 ≤ fuel)
    (hBracket : nextKind rest ≠ .leftBracket) (hDot : nextKind rest ≠ .dot)
    (hWord : isWordPart (nextKind rest) = false) :
    ∃ found, found.unplaced = e.unplaced ∧ ∀ room, Comes (e.depth ≤ room)
      (readArgument fuel room (ts ++ rest)) (.ok (some found, rest)) := by
  obtain ⟨fuel, rfl⟩ := Nat.exists_eq_add_of_lt (show 0 < fuel by omega)
  obtain ⟨found, left, hSame, hLeft, hRead⟩ :=
    h (0 + fuel) false ts rest hTokens (by omega) (by simp)
  have hLength := length_pos hTokens
  refine ⟨found, hSame, fun room => ?_⟩
  have hRead := (hRead room).trans_eq (readAccess_stop (by omega) room found hBracket hDot)
  obtain ⟨value, tail, hShapes, hAlone⟩ := shapes_cons e
  rw [hShapes] at hTokens
  obtain ⟨first, later, rfl, hFirst, -, hLater⟩ := exists_cons_of_map_shape hTokens
  have hRun : (gluedRun first (later ++ rest)).1 = [] := by
    refine gluedRun_alone fun hPart => ?_
    cases later with
    | nil => exact hWord
    | cons second later =>
        rw [hFirst] at hPart
        exact hAlone hPart (shape second) (by rw [← hLater]; rfl)
  rw [List.cons_append] at hRead ⊢
  rw [readArgument]
  generalize gluedRun first (later ++ rest) = run at hRun
  obtain ⟨_, behind⟩ := run
  obtain rfl := hRun
  exact hRead

theorem ne_of_ends {kind : Kind} (h : ends kind = true) :
    kind ≠ .leftBracket ∧ kind ≠ .dot ∧ separator? kind = none ∧ isWordPart kind = false := by
  revert h
  cases kind <;> decide

theorem separator?_separatorKind (separator : Separator) :
    separator? (separatorKind separator) = some separator := by
  cases separator <;> rfl

/-- In front of an argument there is a separator, in front of the end of the
list the token behind it. -/
theorem nextKind_behind {separators : List Separator} {args : List Expr} {ts rest : List Token}
    (hTokens : ts.map shape = shapesBehind separators args) (hRest : ends (nextKind rest) = true) :
    nextKind (ts ++ rest) ≠ .leftBracket ∧ nextKind (ts ++ rest) ≠ .dot ∧
      isWordPart (nextKind (ts ++ rest)) = false := by
  obtain ⟨hBracket, hDot, -, hWord⟩ := ne_of_ends hRest
  cases args with
  | nil =>
      rw [shapesBehind.eq_2 _ _ (by simp)] at hTokens
      obtain rfl := List.map_eq_nil_iff.mp hTokens
      exact ⟨hBracket, hDot, hWord⟩
  | cons arg args =>
      cases separators with
      | nil =>
          rw [shapesBehind.eq_2 _ _ (by simp)] at hTokens
          obtain rfl := List.map_eq_nil_iff.mp hTokens
          exact ⟨hBracket, hDot, hWord⟩
      | cons separator separators =>
          rw [shapesBehind] at hTokens
          obtain ⟨mark, later, rfl, hMark, -, -⟩ := exists_cons_of_map_shape hTokens
          have hNext : nextKind (mark :: later ++ rest) = separatorKind separator := hMark
          rw [hNext]
          cases separator <;> decide

/-- By induction on the arguments: a list of them is read up to what ends it. -/
theorem readMoreArgs_append {args : List Expr} {separators : List Separator}
    (hArgs : ∀ arg ∈ args, Reads .accessed arg) (hLength : separators.length = args.length)
    (fuel : Nat) (ts rest : List Token) (hTokens : ts.map shape = shapesBehind separators args)
    (hFuel : 16 * ts.length + 1 ≤ fuel) (hRest : ends (nextKind rest) = true) :
    ∃ found, unplacedAll found = unplacedAll args ∧ ∀ room, Comes (depthAll args ≤ room)
      (readMoreArgs fuel room (ts ++ rest)) (.ok ((separators, found), rest)) := by
  induction args generalizing separators fuel ts with
  | nil =>
      obtain rfl := List.length_eq_zero_iff.mp hLength
      rw [shapesBehind.eq_2 _ _ (by simp)] at hTokens
      obtain rfl := List.map_eq_nil_iff.mp hTokens
      obtain ⟨fuel, rfl⟩ := Nat.exists_eq_add_of_lt (show 0 < fuel by omega)
      have hNone : separator? (current rest).kind = none := (ne_of_ends hRest).2.2.1
      refine ⟨[], rfl, fun room => .of_eq (Nat.zero_le room) ?_⟩
      rw [List.nil_append, readMoreArgs, hNone]
  | cons arg args ih =>
      cases separators with
      | nil => cases hLength
      | cons separator separators =>
          rw [shapesBehind] at hTokens
          obtain ⟨mark, later, rfl, hMark, -, hLater⟩ := exists_cons_of_map_shape hTokens
          obtain ⟨front, back, rfl, hFront, hBack⟩ := exists_append_of_map_shape hLater
          simp only [List.length_cons, List.length_append] at hFuel
          obtain ⟨fuel, rfl⟩ := Nat.exists_eq_add_of_lt (show 0 < fuel by omega)
          obtain ⟨hBracket, hDot, hWord⟩ := nextKind_behind hBack hRest
          obtain ⟨value, hValue, hRead⟩ := readArgument_append (hArgs arg (by simp)) (0 + fuel)
            front (back ++ rest) hFront (by omega) hBracket hDot hWord
          obtain ⟨found, hFound, hReadMore⟩ := ih (fun other hOther => hArgs other (by simp [hOther]))
            (Nat.succ.inj hLength) (0 + fuel) back hBack (by omega)
          refine ⟨value :: found, by rw [unplacedAll, hValue, hFound, unplacedAll], fun room => ?_⟩
          have hInner : separatorKind separator ≠ .endOfText := by cases separator <;> decide
          have hSeparator : separator? (current (mark :: (front ++ (back ++ rest)))).kind =
              some separator := by
            rw [← separator?_separatorKind separator, ← hMark]
            rfl
          simp only [List.cons_append, List.append_assoc]
          rw [readMoreArgs, hSeparator, advance_cons hMark hInner, depthAll]
          exact ((hRead room).bind _).trans ((hReadMore room).bind _) Nat.max_le

/-- A filter with a list of arguments is read back. The first must not begin with a
parenthesis, which would open the other form. -/
theorem reads_filterList {value first : Expr} {name : String} {args : List Expr}
    {separators : List Separator} (p : Place) (hValue : Reads .filtered value)
    (hFirst : Reads .accessed first) (hParen : firstKind first ≠ .leftParen)
    (hArgs : ∀ arg ∈ args, Reads .accessed arg) (hLength : separators.length = args.length) :
    Reads .filtered (.filter value name (first :: args) separators false p) := by
  intro fuel ts rest hTokens hFuel hStays
  have hRest : ends (nextKind rest) = true := by
    obtain ⟨hBracket, hDot, hColon⟩ := ne_of_stays hStays
    simp only [stays, endsInList, Bool.and_eq_true, Bool.not_eq_true', Bool.true_and,
      Bool.or_eq_false_iff, beq_eq_false_iff_ne] at hStays
    simp [ends, hBracket, hDot, hColon, hStays]
  rw [shapes] at hTokens
  simp only [Bool.false_eq_true, if_false, List.append_assoc] at hTokens
  obtain ⟨front, later, rfl, hFront, hLater⟩ := exists_append_of_map_shape hTokens
  obtain ⟨pipe, later, rfl, hPipe, -, hLater⟩ := exists_cons_of_map_shape hLater
  obtain ⟨word, later, rfl, hWord, hName, hLater⟩ := exists_cons_of_map_shape hLater
  obtain ⟨colon, later, rfl, hColon, -, hLater⟩ := exists_cons_of_map_shape hLater
  obtain ⟨inside, back, rfl, hInside, hBack⟩ := exists_append_of_map_shape hLater
  simp only [List.length_cons, List.length_append] at hFuel ⊢
  have hNext : nextKind (pipe :: word :: colon :: (inside ++ (back ++ rest))) = .pipe := hPipe
  obtain ⟨found, left, hSame, hLeft, hRead⟩ := hValue fuel front
    (pipe :: word :: colon :: (inside ++ (back ++ rest))) hFront (by omega)
    (by rw [hNext]; exact stays_of_ends rfl)
  obtain ⟨left, rfl⟩ := Nat.exists_eq_add_of_lt (show 0 < left by omega)
  obtain ⟨hNoBracket, hNoDot, hNoWord⟩ := nextKind_behind hBack hRest
  obtain ⟨head, hHead, hReadHead⟩ := readArgument_append hFirst (0 + left) inside
    (back ++ rest) hInside (by omega) hNoBracket hNoDot hNoWord
  obtain ⟨more, hMore, hReadMore⟩ := readMoreArgs_append hArgs hLength (0 + left) back rest
    hBack (by omega) hRest
  refine ⟨.filter found name (head :: more) separators false word.place, 0 + left,
    by simp only [unplaced, unplacedAll, hSame, hHead, hMore], by omega, fun room => ?_⟩
  have hCurrent : current (word :: colon :: (inside ++ (back ++ rest))) = word := rfl
  have hAtColon : at? (colon :: (inside ++ (back ++ rest))) .colon = true := at?_iff.mpr hColon
  have hNoParen : at? (inside ++ (back ++ rest)) .leftParen = false :=
    at?_eq_false (by rwa [nextKind_append hInside])
  simp only [List.cons_append, List.append_assoc, depth, depthAll, Bool.false_and]
  refine (hRead room).trans ?_ Nat.max_le
  rw [readFilters, at?_iff.mpr hNext, advance_cons hPipe (by decide)]
  simp only [if_true, hCurrent, hWord, advance_cons hWord (by decide), hAtColon,
    advance_cons hColon (by decide), hNoParen, hName]
  exact ((hReadHead room).bind _).trans ((hReadMore room).bind _) Nat.max_le

/-- An argument in parentheses is read as a chain of any operators but one. -/
theorem readArg_append {e : Expr} (hFirst : firstKind e ≠ .notWord) (hList : endsInList e = false)
    (h : Reads .accessed e) (fuel : Nat) (ts rest : List Token) (hTokens : ts.map shape = e.shapes)
    (hFuel : 16 * ts.length + 8 ≤ fuel)
    (hRest : nextKind rest = .comma ∨ nextKind rest = .rightParen) :
    ∃ found, found.unplaced = e.unplaced ∧ ∀ room, Comes (e.depth ≤ room)
      (readChain fuel room .or (ts ++ rest)) (.ok (some found, rest)) := by
  have hNegation := reads_compared hFirst (reads_filtered (reads_accessed h))
  have hChain := (reads_conjoined (reads_negated hNegation).chain).chain
  have hStays : stays e (nextKind rest) = true := by
    rcases hRest with hKind | hKind <;> rw [hKind, stays, hList] <;> rfl
  have hCloses : closesIn .or (nextKind rest) = true := by
    rcases hRest with hKind | hKind <;> rw [hKind] <;> rfl
  refine Reads.toEnd hChain fuel ts rest hTokens hFuel hStays hCloses ?_
  rcases hRest with hKind | hKind <;> rw [hKind] <;> decide

theorem endsExpression_of_begins {kind : Kind} (h : beginsExpression kind = true) :
    endsExpression kind = false ∧ kind ≠ .rightParen := by
  revert h
  cases kind <;> decide

/-- An argument and what stands between it and the closing parenthesis. -/
theorem readParenArgs_first {e : Expr} (hFirst : firstKind e ≠ .notWord)
    (hList : endsInList e = false) (h : Reads .accessed e) (fuel : Nat) (ts rest : List Token)
    (hTokens : ts.map shape = e.shapes) (hFuel : 16 * ts.length + 8 ≤ fuel)
    (hRest : nextKind rest = .comma ∨ nextKind rest = .rightParen) :
    ∃ found, found.unplaced = e.unplaced ∧ ∀ room, Comes (e.depth + 1 ≤ room)
      (readParenArgs (fuel + 1) room (ts ++ rest))
      (if at? rest .comma then do
        let (args, behind) ← readParenArgs fuel room (advance rest)
        return (found :: args, behind)
      else .ok ([found], rest)) := by
  obtain ⟨found, hSame, hRead⟩ := readArg_append hFirst hList h fuel ts rest hTokens hFuel hRest
  obtain ⟨hGoesOn, hNoParen⟩ := endsExpression_of_begins (firstKind_begins e)
  have hNext := nextKind_append hTokens rest
  have hAt : at? (ts ++ rest) .rightParen = false := at?_eq_false (by rwa [hNext])
  have hGoesOn : endsExpression (current (ts ++ rest)).kind = false := by
    rw [← hGoesOn, ← hNext]
    rfl
  refine ⟨found, hSame, fun room => ?_⟩
  rw [readParenArgs, hAt, hGoesOn, Bool.false_or, if_neg Bool.false_ne_true]
  exact Comes.within (fun inner => (hRead inner).bind _) room _

/-- Arguments up to the closing parenthesis. -/
theorem readParenArgs_append {first : Expr} {args : List Expr}
    (hArgs : ∀ arg ∈ first :: args, firstKind arg ≠ .notWord ∧ endsInList arg = false ∧
      Reads .accessed arg) (fuel : Nat) (ts rest : List Token)
    (hTokens : ts.map shape = first.shapes ++ shapesBehind (args.map fun _ => .comma) args)
    (hFuel : 16 * ts.length + 9 ≤ fuel) (hRest : nextKind rest = .rightParen) :
    ∃ found, unplacedAll found = unplacedAll (first :: args) ∧
      ∀ room, Comes (depthAll (first :: args) + 1 ≤ room) (readParenArgs fuel room (ts ++ rest))
        (.ok (found, rest)) := by
  induction args generalizing first fuel ts with
  | nil =>
      obtain ⟨hNot, hList, hFirst⟩ := hArgs first (by simp)
      rw [List.map_nil, shapesBehind.eq_2 _ _ (by simp), List.append_nil] at hTokens
      obtain ⟨fuel, rfl⟩ := Nat.exists_eq_add_of_lt (show 0 < fuel by omega)
      obtain ⟨found, hSame, hRead⟩ := readParenArgs_first hNot hList hFirst (0 + fuel) ts rest
        hTokens (by omega) (.inr hRest)
      refine ⟨[found], by simp only [unplacedAll, hSame], fun room => ?_⟩
      rw [depthAll, depthAll, Nat.max_zero]
      refine (hRead room).trans_eq ?_
      rw [at?_eq_false (by rw [hRest]; decide)]
      rfl
  | cons second args ih =>
      obtain ⟨hNot, hList, hFirst⟩ := hArgs first (by simp)
      rw [List.map_cons, shapesBehind] at hTokens
      obtain ⟨front, back, rfl, hFront, hBack⟩ := exists_append_of_map_shape hTokens
      obtain ⟨comma, later, rfl, hComma, -, hLater⟩ := exists_cons_of_map_shape hBack
      rw [List.length_append, List.length_cons] at hFuel
      obtain ⟨fuel, rfl⟩ := Nat.exists_eq_add_of_lt (show 0 < fuel by omega)
      obtain ⟨found, hSame, hRead⟩ := readParenArgs_first hNot hList hFirst (0 + fuel) front
        (comma :: (later ++ rest)) hFront (by omega) (.inl hComma)
      obtain ⟨more, hMore, hReadMore⟩ := ih (fun arg hArg => hArgs arg (List.mem_cons_of_mem _ hArg))
        (0 + fuel) later hLater (by omega)
      have hAt : at? (comma :: (later ++ rest)) .comma = true := at?_iff.mpr hComma
      refine ⟨found :: more, by simp only [unplacedAll, hSame] at hMore ⊢; rw [hMore],
        fun room => ?_⟩
      rw [List.append_assoc, List.cons_append, depthAll]
      refine (hRead room).trans ?_ (by rw [← Nat.add_max_add_right, Nat.max_le])
      rw [hAt, advance_cons hComma (by decide)]
      exact (hReadMore room).bind _

/-- A filter with arguments in parentheses is read back. -/
theorem reads_filterParens {value first : Expr} {name : String} {args : List Expr} (p : Place)
    (hValue : Reads .filtered value)
    (hArgs : ∀ arg ∈ first :: args, firstKind arg ≠ .notWord ∧ endsInList arg = false ∧
      Reads .accessed arg) :
    Reads .filtered (.filter value name (first :: args) [] true p) := by
  intro fuel ts rest hTokens hFuel hStays
  rw [shapes] at hTokens
  simp only [if_true, List.append_assoc] at hTokens
  obtain ⟨front, later, rfl, hFront, hLater⟩ := exists_append_of_map_shape hTokens
  obtain ⟨pipe, later, rfl, hPipe, -, hLater⟩ := exists_cons_of_map_shape hLater
  obtain ⟨word, later, rfl, hWord, hName, hLater⟩ := exists_cons_of_map_shape hLater
  obtain ⟨colon, later, rfl, hColon, -, hLater⟩ := exists_cons_of_map_shape hLater
  obtain ⟨opening, later, rfl, hOpening, -, hLater⟩ := exists_cons_of_map_shape hLater
  rw [← List.append_assoc] at hLater
  obtain ⟨inside, back, rfl, hInside, hBack⟩ := exists_append_of_map_shape hLater
  obtain ⟨closing, last, rfl, hClosing, -, hLast⟩ := exists_cons_of_map_shape hBack
  obtain rfl := List.map_eq_nil_iff.mp hLast
  simp only [List.length_cons, List.length_append, List.length_nil] at hFuel ⊢
  have hNext : nextKind (pipe :: word :: colon :: opening :: (inside ++ closing :: rest)) = .pipe :=
    hPipe
  obtain ⟨found, left, hSame, hLeft, hRead⟩ := hValue fuel front
    (pipe :: word :: colon :: opening :: (inside ++ closing :: rest)) hFront (by omega)
    (by rw [hNext]; exact stays_of_ends rfl)
  obtain ⟨left, rfl⟩ := Nat.exists_eq_add_of_lt (show 0 < left by omega)
  obtain ⟨more, hMore, hReadMore⟩ := readParenArgs_append hArgs (0 + left) inside
    (closing :: rest) hInside (by omega) hClosing
  refine ⟨.filter found name more [] true word.place, 0 + left,
    by simp only [unplaced, hSame, hMore], by omega, fun room => ?_⟩
  have hCurrent : current (word :: colon :: opening :: (inside ++ closing :: rest)) = word := rfl
  have hAtColon : at? (colon :: opening :: (inside ++ closing :: rest)) .colon = true :=
    at?_iff.mpr hColon
  have hAtParen : at? (opening :: (inside ++ closing :: rest)) .leftParen = true :=
    at?_iff.mpr hOpening
  simp only [List.cons_append, List.append_assoc, List.nil_append, depth, List.isEmpty_cons,
    Bool.not_false, Bool.and_true, if_true]
  refine (hRead room).trans ?_ Nat.max_le
  rw [readFilters, at?_iff.mpr hNext, advance_cons hPipe (by decide)]
  simp only [if_true, hCurrent, hWord, advance_cons hWord (by decide), hAtColon,
    advance_cons hColon (by decide), hAtParen, advance_cons hOpening (by decide), hName]
  refine ((hReadMore room).bind _).trans_eq ?_
  simp only [expect_cons hClosing (by decide)]
  rfl

end NoteTemplate.Tokens
