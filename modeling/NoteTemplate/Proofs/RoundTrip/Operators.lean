import NoteTemplate.Proofs.RoundTrip.Reading

/-! The reader on operators. Each level of binding hands what it finds on to the
next looser one, unless its own operator follows. -/
namespace NoteTemplate.Tokens

open Token NoteTemplate.Expr

theorem ne_of_stays {e : Expr} {kind : Kind} (h : stays e kind = true) :
    kind ≠ .leftBracket ∧ kind ≠ .dot ∧ kind ≠ .colon := by
  simp only [stays, List.contains_cons, List.contains_nil, Bool.and_eq_true, Bool.not_eq_true',
    Bool.or_eq_false_iff, beq_eq_false_iff_ne] at h
  exact ⟨h.1.1, h.1.2.1, h.1.2.2.1⟩

theorem ne_of_closes {kind : Kind} (h : closes kind = true) :
    kind ≠ .pipe ∧ comparison? kind = none := by
  simpa [closes] using h

/-- Behind brackets and points the reader looks for filters. -/
theorem reads_accessed {e : Expr} (h : Reads .accessed e) : Reads .filtered e := by
  intro fuel ts rest hTokens hFuel hStays
  obtain ⟨hBracket, hDot, hColon⟩ := ne_of_stays hStays
  have hLength := length_pos hTokens
  obtain ⟨fuel, rfl⟩ := Nat.exists_eq_add_of_lt (show 0 < fuel by omega)
  obtain ⟨found, left, hSame, hLeft, hRead⟩ :=
    h (0 + fuel) true ts rest hTokens (by omega) fun _ => hColon
  refine ⟨found, 0 + fuel, hSame, by omega, fun room => ?_⟩
  rw [readFiltered]
  exact ((hRead room).trans_eq (readAccess_stop (by omega) room found hBracket hDot)).bind _

/-- An expression with its filters, in front of no further filter. -/
theorem readFiltered_append {e : Expr} (h : Reads .filtered e) (fuel : Nat) (ts rest : List Token)
    (hTokens : ts.map shape = e.shapes) (hFuel : 16 * ts.length + 2 ≤ fuel)
    (hStays : stays e (nextKind rest) = true) (hPipe : nextKind rest ≠ .pipe) :
    ∃ found, found.unplaced = e.unplaced ∧ ∀ room, Comes (e.depth ≤ room)
      (readFiltered fuel room (ts ++ rest)) (.ok (some found, rest)) := by
  obtain ⟨found, left, hSame, hLeft, hRead⟩ := h fuel ts rest hTokens hFuel hStays
  have hLength := length_pos hTokens
  exact ⟨found, hSame, fun room =>
    (hRead room).trans_eq (readFilters_stop (by omega) room found hPipe)⟩

/-- A filtered expression is a comparison of itself alone. -/
theorem reads_filtered {e : Expr} (h : Reads .filtered e) : Reads .comparison e := by
  intro fuel ts rest hTokens hFuel hStays hCloses
  obtain ⟨hPipe, hNone⟩ := ne_of_closes hCloses
  obtain ⟨fuel, rfl⟩ := Nat.exists_eq_add_of_lt (show 0 < fuel by omega)
  obtain ⟨found, hSame, hRead⟩ :=
    readFiltered_append h (0 + fuel) ts rest hTokens (by omega) hStays hPipe
  have hNone : comparison? (current rest).kind = none := hNone
  refine ⟨found, hSame, fun room => ?_⟩
  rw [readComparison]
  refine ((hRead room).bind _).trans_eq ?_
  simp only [hNone]
  rfl

theorem comparison?_operatorKind {operator : Operator} (h : comparing operator = true) :
    comparison? (operatorKind operator) = some operator := by
  cases operator <;> first | rfl | cases h

/-- One comparison of two filtered expressions is read back. -/
theorem reads_comparison {operator : Operator} {left right : Expr} (p : Place)
    (hOperator : comparing operator = true) (hLeft : Reads .filtered left)
    (hRight : Reads .filtered right) : Reads .comparison (.binary operator left right p) := by
  intro fuel ts rest hTokens hFuel hStays hCloses
  obtain ⟨hPipe, -⟩ := ne_of_closes hCloses
  rw [shapes] at hTokens
  obtain ⟨front, later, rfl, hFront, hLater⟩ := exists_append_of_map_shape hTokens
  obtain ⟨mark, back, rfl, hMark, -, hBack⟩ := exists_cons_of_map_shape hLater
  simp only [List.length_cons, List.length_append] at hFuel
  obtain ⟨fuel, rfl⟩ := Nat.exists_eq_add_of_lt (show 0 < fuel by omega)
  have hNext : nextKind (mark :: (back ++ rest)) = operatorKind operator := hMark
  have hInner : operatorKind operator ≠ .endOfText := by cases operator <;> decide
  obtain ⟨first, hFirst, hReadFirst⟩ := readFiltered_append hLeft (0 + fuel) front
    (mark :: (back ++ rest)) hFront (by omega)
    (by rw [hNext]; exact stays_of_ends (by cases operator <;> rfl))
    (by rw [hNext]; cases operator <;> decide)
  obtain ⟨second, hSecond, hReadSecond⟩ := readFiltered_append hRight (0 + fuel) back rest
    hBack (by omega) hStays hPipe
  refine ⟨.binary operator first second mark.place, by rw [unplaced, hFirst, hSecond, unplaced],
    fun room => ?_⟩
  have hCompares : comparison? (current (mark :: (back ++ rest))).kind = some operator := by
    rw [← comparison?_operatorKind hOperator, ← hMark]
    rfl
  rw [List.append_assoc, List.cons_append, readComparison, depth]
  refine ((hReadFirst room).bind _).trans ?_ Nat.max_le
  simp only [hCompares, advance_cons hMark hInner]
  exact (hReadSecond room).bind _

/-- A comparison that does not begin with a negation is read where one might stand. -/
theorem reads_compared {e : Expr} (hFirst : firstKind e ≠ .notWord) (h : Reads .comparison e) :
    Reads .negation e := by
  intro fuel ts rest hTokens hFuel hStays hCloses
  obtain ⟨fuel, rfl⟩ := Nat.exists_eq_add_of_lt (show 0 < fuel by omega)
  obtain ⟨found, hSame, hRead⟩ := h (0 + fuel) ts rest hTokens (by omega) hStays hCloses
  have hNoNot : at? (ts ++ rest) .notWord = false :=
    at?_eq_false (by rwa [nextKind_append hTokens])
  refine ⟨found, hSame, fun room => ?_⟩
  rw [readNegation, hNoNot]
  exact hRead room

/-- A negation is read back, one level deeper. -/
theorem reads_not {e : Expr} (p : Place) (h : Reads .negation e) : Reads .negation (.not e p) := by
  intro fuel ts rest hTokens hFuel hStays hCloses
  rw [shapes] at hTokens
  obtain ⟨word, later, rfl, hWord, -, hLater⟩ := exists_cons_of_map_shape hTokens
  rw [List.length_cons] at hFuel
  obtain ⟨fuel, rfl⟩ := Nat.exists_eq_add_of_lt (show 0 < fuel by omega)
  obtain ⟨found, hSame, hRead⟩ := h (0 + fuel) later rest hLater (by omega) hStays hCloses
  have hNot : at? (word :: (later ++ rest)) .notWord = true := at?_iff.mpr hWord
  refine ⟨.not found word.place, by rw [unplaced, hSame, unplaced], fun room => ?_⟩
  rw [List.cons_append, readNegation, hNot, advance_cons hWord (by decide), depth]
  exact Comes.within (fun inner => (hRead inner).bind _) room _

/-- What reading an operand of a chain comes to. -/
def ReadsOperand (chain : Chain) (levels : Nat) (e : Expr) : Prop :=
  ∀ fuel ts rest, ts.map shape = e.shapes → 16 * ts.length + levels ≤ fuel →
    stays e (nextKind rest) = true → closesIn chain (nextKind rest) = true →
    ∃ found, found.unplaced = e.unplaced ∧ ∀ room, Comes (e.depth ≤ room)
      (readOperand fuel room chain (ts ++ rest)) (.ok (some found, rest))

/-- An operand alone is a chain. -/
theorem ReadsOperand.chain {chain : Chain} {levels : Nat} {e : Expr}
    (h : ReadsOperand chain levels e) : Reads.ReadsChain chain (levels + 1) e := by
  intro fuel ts rest hTokens hFuel hStays hCloses
  have hLength := length_pos hTokens
  obtain ⟨fuel, rfl⟩ := Nat.exists_eq_add_of_lt (show 0 < fuel by omega)
  obtain ⟨found, hSame, hRead⟩ := h (0 + fuel) ts rest hTokens (by omega) hStays hCloses
  refine ⟨found, 0 + fuel, hSame, by omega, fun room => ?_⟩
  rw [readChain]
  exact (hRead room).bind _

/-- A chain with one more operand. -/
theorem reads_binary {chain : Chain} {levels : Nat} {left right : Expr} (p : Place)
    (hLeft : Reads.ReadsChain chain (levels + 1) left) (hRight : ReadsOperand chain levels right) :
    Reads.ReadsChain chain (levels + 1) (.binary chain.operator left right p) := by
  intro fuel ts rest hTokens hFuel hStays hCloses
  have hToken : operatorKind chain.operator = chain.token := by cases chain <;> rfl
  rw [shapes, hToken] at hTokens
  obtain ⟨front, later, rfl, hFront, hLater⟩ := exists_append_of_map_shape hTokens
  obtain ⟨mark, back, rfl, hMark, -, hBack⟩ := exists_cons_of_map_shape hLater
  simp only [List.length_cons, List.length_append] at hFuel ⊢
  have hNext : nextKind (mark :: (back ++ rest)) = chain.token := hMark
  have hInner : chain.token ≠ .endOfText := by cases chain <;> decide
  obtain ⟨first, more, hFirst, hMore, hReadFirst⟩ := hLeft fuel front (mark :: (back ++ rest)) hFront
    (by omega) (by rw [hNext]; exact stays_of_ends (by cases chain <;> rfl))
    (by rw [hNext]; cases chain <;> rfl)
  obtain ⟨more, rfl⟩ := Nat.exists_eq_add_of_lt (show 0 < more by omega)
  obtain ⟨second, hSecond, hReadSecond⟩ := hRight (0 + more) back rest hBack (by omega) hStays hCloses
  refine ⟨.binary chain.operator first second mark.place, 0 + more,
    by rw [unplaced, hFirst, hSecond, unplaced], by omega, fun room => ?_⟩
  rw [List.append_assoc, List.cons_append, depth]
  refine (hReadFirst room).trans ?_ Nat.max_le
  rw [readChainTail, at?_iff.mpr hNext, advance_cons hMark hInner]
  exact (hReadSecond room).bind _

theorem reads_negated {e : Expr} (h : Reads .negation e) : ReadsOperand .and 5 e := by
  intro fuel ts rest hTokens hFuel hStays hCloses
  obtain ⟨fuel, rfl⟩ := Nat.exists_eq_add_of_lt (show 0 < fuel by omega)
  have hCloses : closes (nextKind rest) = true := by simpa [closesIn] using hCloses
  obtain ⟨found, hSame, hRead⟩ := h (0 + fuel) ts rest hTokens (by omega) hStays hCloses
  exact ⟨found, hSame, fun room => by rw [readOperand]; exact hRead room⟩

/-- A conjunction is an operand of disjunctions. -/
theorem reads_conjoined {e : Expr} (h : Reads .conjunction e) : ReadsOperand .or 7 e := by
  intro fuel ts rest hTokens hFuel hStays hCloses
  obtain ⟨fuel, rfl⟩ := Nat.exists_eq_add_of_lt (show 0 < fuel by omega)
  have hParts : closes (nextKind rest) = true ∧ nextKind rest ≠ .andWord := by
    simpa [closesIn] using hCloses
  obtain ⟨found, hSame, hRead⟩ := Reads.toEnd h (0 + fuel) ts rest hTokens (by omega)
    hStays (by simp [closesIn, hParts.1]) hParts.2
  exact ⟨found, hSame, fun room => by rw [readOperand]; exact hRead room⟩

/-- A disjunction is an operand of fallbacks. -/
theorem reads_disjoined {e : Expr} (h : Reads .disjunction e) : ReadsOperand .fallback 9 e := by
  intro fuel ts rest hTokens hFuel hStays hCloses
  obtain ⟨fuel, rfl⟩ := Nat.exists_eq_add_of_lt (show 0 < fuel by omega)
  have hParts : closes (nextKind rest) = true ∧ nextKind rest ≠ .andWord ∧
      nextKind rest ≠ .orWord := by
    simpa [closesIn] using hCloses
  obtain ⟨found, hSame, hRead⟩ := Reads.toEnd h (0 + fuel) ts rest hTokens (by omega)
    hStays (by simp [closesIn, hParts]) hParts.2.2
  exact ⟨found, hSame, fun room => by rw [readOperand]; exact hRead room⟩

end NoteTemplate.Tokens
