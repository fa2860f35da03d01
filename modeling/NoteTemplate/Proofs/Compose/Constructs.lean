import NoteTemplate.Proofs.Compose.Exprs

/-! Reading the heads and ends of constructs from a part of the tokens, and
skipping what could not be read. The last token of a construct may be the last
one of the part, so a reader may stop right behind the part; but it fails, if it
does, at a token of the part. -/
namespace NoteTemplate

open Tokens Token Node

namespace Excerpt

variable {x : Excerpt} {i : Nat} {α β : Type} {g : α → α} {k : β → β}

/-- Two readings of a construct with the same outcome: a result and a place behind
it, or a mistake or a fault. -/
inductive Ends (x : Excerpt) {α : Type} (g : α → α) (i : Nat) :
    Except Failure (Found α) → Except Failure (Found α) → Prop where
  | ok (a : α) {j : Nat} (hLe : i ≤ j) (hj : j ≤ x.size) :
      Ends x g i (.ok (a, x.part.drop j)) (.ok (g a, x.whole.drop j))
  | error (c : Cause) {j : Nat} (hLe : i ≤ j) (hj : x.Covers j) :
      Ends x g i (.error ⟨c, x.part.drop j⟩) (.error ⟨c.moved x.origin, x.whole.drop j⟩)

theorem Ends.mono {j : Nat} {act act' : Except Failure (Found α)} (h : x.Ends g j act act')
    (hLe : i ≤ j) : x.Ends g i act act' := by
  cases h with
  | ok a hLater hj => exact .ok a (Nat.le_trans hLe hLater) hj
  | error c hLater hj => exact .error c (Nat.le_trans hLe hLater) hj

/-- Readers that end alike may be put one behind the other. -/
theorem Ends.bind {act act' : Except Failure (Found α)}
    {next next' : Found α → Except Failure (Found β)} (h : x.Ends g i act act')
    (hNext : ∀ a j, i ≤ j → j ≤ x.size →
      x.Ends k j (next (a, x.part.drop j)) (next' (g a, x.whole.drop j))) :
    x.Ends k i (act >>= next) (act' >>= next') := by
  cases h with
  | ok a hLe hj => exact (hNext a _ hLe hj).mono hLe
  | error c hLe hj => exact .error c hLe hj

/-- A reading that stays inside the part, and then one of the rest of the
construct. -/
theorem Like.bind_ends {act act' : Except Failure (Found α)}
    {next next' : Found α → Except Failure (Found β)} (h : x.Like g i act act')
    (hNext : ∀ a j, i ≤ j → x.Covers j →
      x.Ends k j (next (a, x.part.drop j)) (next' (g a, x.whole.drop j))) :
    x.Ends k i (act >>= next) (act' >>= next') := by
  cases h with
  | ok a hLe hj => exact (hNext a _ hLe hj).mono hLe
  | error c hLe hj => exact .error c hLe hj

/-- The two outcomes of a reading on both sides. -/
theorem Ends.cases {act act' : Except Failure (Found α)} (h : x.Ends g i act act') :
    (∃ a j, i ≤ j ∧ j ≤ x.size ∧ act = .ok (a, x.part.drop j) ∧ act' = .ok (g a, x.whole.drop j)) ∨
      ∃ c j, i ≤ j ∧ x.Covers j ∧ act = .error ⟨c, x.part.drop j⟩ ∧
        act' = .error ⟨c.moved x.origin, x.whole.drop j⟩ := by
  cases h with
  | ok a hLe hj => exact .inl ⟨a, _, hLe, hj, rfl, rfl⟩
  | error c hLe hj => exact .inr ⟨c, _, hLe, hj, rfl, rfl⟩

theorem ends_fail (mistake : Mistake) (t : Token) (hi : x.Covers i) :
    x.Ends g i (fail mistake t (x.part.drop i)) (fail mistake (t.moved x.origin) (x.whole.drop i)) :=
  .error (.mistake (TemplateError.atToken mistake t)) (Nat.le_refl i) hi

/-- A missing end of a construct is noticed at the same token in the part and in the
whole, even where the part ends. -/
theorem expectEnd_ends (hi : x.Covers i) {kind : Kind} (hKind : kind ≠ .endOfText)
    (mistake : Mistake) :
    x.Ends (Token.moved x.origin) i (expectEnd kind mistake (x.part.drop i))
      (expectEnd kind mistake (x.whole.drop i)) := by
  simp only [expectEnd, current_whole hi, Token.moved_kind]
  rw [← at_]
  split
  · exact ends_fail _ _ hi
  · rw [expect, expect, at?_whole hi, current_whole hi]
    split
    · next hAt =>
      have hHere : (x.at_ i).kind ≠ .endOfText := by rwa [kind_of_at? hAt]
      rw [advance_part hHere, advance_whole hi hHere]
      exact .ok _ (Nat.le_succ i) (lt_size hi hHere)
    · exact ends_fail _ _ hi

/-- Going past the delimiter and the word of a tag. -/
theorem pass_word (hi : x.Covers i) (hStart : (x.at_ i).kind = .tagStart)
    (hWord : passes (x.at_ (i + 1)).kind = true) :
    advance (advance (x.part.drop i)) = x.part.drop (i + 2) ∧
      advance (advance (x.whole.drop i)) = x.whole.drop (i + 2) ∧ x.Covers (i + 2) := by
  obtain ⟨hPart, hWhole, hNext, -⟩ := pass hi (by rw [hStart]; rfl)
  obtain ⟨hPartNext, hWholeNext, hBehind, -⟩ := pass hNext hWord
  rw [hPart, hWhole]
  exact ⟨hPartNext, hWholeNext, hBehind⟩

/-- An expression to print ends alike in the part and in the whole. -/
theorem readVariable_ends (room : Nat) (hi : x.Covers i) (hStart : (x.at_ i).kind = .variableStart) :
    x.Ends (Node.moved x.origin) (i + 1) (readVariable room (x.part.drop i))
      (readVariable room (x.whole.drop i)) := by
  obtain ⟨hPart, hWhole, hNext, -⟩ := pass hi (by rw [hStart]; rfl)
  simp only [readVariable, hPart, hWhole, current_whole hi, at?_whole hNext]
  rw [← at_]
  split
  · exact ends_fail _ _ hNext
  · refine (readExpr_like room hNext).bind_ends fun found j hLe hj => ?_
    cases found with
    | none =>
        simp only [movedFound, Option.map_none, current_whole hj, Token.moved_kind]
        rw [← at_]
        split <;> exact ends_fail _ _ hj
    | some e =>
        simp only [movedFound, Option.map_some, at?_whole hj]
        split
        · exact ends_fail _ _ hj
        · refine (expectEnd_ends hj Kind.noConfusion _).bind fun close k hLater hk => ?_
          have hNode : (Node.print e ⟨(x.at_ i).trimLeft, close.trimRight⟩ (x.at_ i).place).moved
              x.origin = .print (e.moved x.origin) ⟨(x.at_ i).trimLeft, close.trimRight⟩
                ((x.at_ i).place.moved x.origin) := by rw [Node.moved]
          exact hNode ▸ .ok _ (Nat.le_refl k) hk

/-- A token that has to be there, and what is behind it. -/
theorem required_ends (hi : x.Covers i) {kind : Kind} (hPass : passes kind = true)
    (mistake : Mistake) (blame : Token) {next next' : Except Failure (Found α)}
    (hNext : advance (x.part.drop i) = x.part.drop (i + 1) →
      advance (x.whole.drop i) = x.whole.drop (i + 1) → x.Covers (i + 1) →
        x.Ends g (i + 1) next next') :
    x.Ends g i (if !at? (x.part.drop i) kind then fail mistake blame (x.part.drop i) else next)
      (if !at? (x.whole.drop i) kind then fail mistake (blame.moved x.origin) (x.whole.drop i)
        else next') := by
  rw [at?_whole hi]
  cases hAt : at? (x.part.drop i) kind with
  | false => exact ends_fail _ _ hi
  | true =>
      obtain ⟨hPart, hWhole, hBehind, -⟩ := pass_of_at? hi hAt hPass
      exact (hNext hPart hWhole hBehind).mono (Nat.le_succ i)

/-- An expression that has to be there, and the end of its construct. -/
theorem value_ends {room : Nat} (hi : x.Covers i) (missing notClosed : Mistake) (blame : Token)
    {kind : Kind}
    (hKind : kind ≠ .endOfText) (build build' : Expr → Token → α)
    (hBuild : ∀ e close, build' (e.moved x.origin) (close.moved x.origin) = g (build e close)) :
    x.Ends g i
      (do
        match ← readExpr room (x.part.drop i) with
        | (none, rest) => fail missing blame rest
        | (some e, rest) =>
          let close ← expectEnd kind notClosed rest
          return (build e close.1, close.2))
      (do
        match ← readExpr room (x.whole.drop i) with
        | (none, rest) => fail missing (blame.moved x.origin) rest
        | (some e, rest) =>
          let close ← expectEnd kind notClosed rest
          return (build' e close.1, close.2)) := by
  refine (readExpr_like room hi).bind_ends fun found j hLe hj => ?_
  cases found with
  | none => exact ends_fail _ _ hj
  | some e =>
      refine (expectEnd_ends hj hKind notClosed).bind fun close k hLater hk => ?_
      show x.Ends g k _ (.ok (build' (e.moved x.origin) (close.moved x.origin), _))
      rw [hBuild]
      exact .ok _ (Nat.le_refl k) hk

theorem readCondition_ends (room : Nat) (hi : x.Covers i) (word : String) (blame : Token) :
    x.Ends (Prod.map (Expr.moved x.origin) (Token.moved x.origin)) i
      (readCondition room word blame (x.part.drop i))
      (readCondition room word (blame.moved x.origin) (x.whole.drop i)) := by
  simp only [readCondition]
  exact value_ends hi _ _ blame Kind.noConfusion Prod.mk Prod.mk fun _ _ => rfl

/-- An assignment ends alike in the part and in the whole. -/
theorem readAssign_ends (room : Nat) (hi : x.Covers i) (hStart : (x.at_ i).kind = .tagStart)
    (hWord : (x.at_ (i + 1)).kind = .setWord) :
    x.Ends (Node.moved x.origin) (i + 2) (readAssign room (x.part.drop i))
      (readAssign room (x.whole.drop i)) := by
  obtain ⟨hPart, hWhole, hName⟩ := pass_word hi hStart (by rw [hWord]; rfl)
  simp only [readAssign, hPart, hWhole, current_whole hi, current_whole hName, Token.moved_value]
  refine required_ends hName rfl _ _ fun hPart hWhole hSign => ?_
  rw [hPart, hWhole]
  refine required_ends hSign rfl _ _ fun hPart hWhole hValue => ?_
  rw [hPart, hWhole]
  exact value_ends hValue _ _ _ Kind.noConfusion
    (fun e close => Node.assign (x.at_ (i + 2)).value e ⟨(x.at_ i).trimLeft, close.trimRight⟩
      (x.at_ i).place)
    (fun e close => Node.assign (x.at_ (i + 2)).value e ⟨(x.at_ i).trimLeft, close.trimRight⟩
      ((x.at_ i).place.moved x.origin))
    fun e close => by rw [Node.moved, Token.moved_trimRight]

/-- The head of a loop ends alike in the part and in the whole. -/
theorem readLoopHead_ends (room : Nat) (hi : x.Covers i) (hStart : (x.at_ i).kind = .tagStart)
    (hWord : (x.at_ (i + 1)).kind = .forWord) :
    x.Ends (LoopHead.moved x.origin) (i + 2) (readLoopHead room (x.part.drop i))
      (readLoopHead room (x.whole.drop i)) := by
  obtain ⟨hPart, hWhole, hName⟩ := pass_word hi hStart (by rw [hWord]; rfl)
  simp only [readLoopHead, hPart, hWhole, current_whole hi, current_whole hName, Token.moved_value]
  refine required_ends hName rfl _ _ fun hPart hWhole hSign => ?_
  rw [hPart, hWhole]
  refine required_ends hSign rfl _ _ fun hPart hWhole hValue => ?_
  rw [hPart, hWhole]
  exact value_ends hValue _ _ _ Kind.noConfusion (LoopHead.mk (x.at_ (i + 2)).value)
    (LoopHead.mk (x.at_ (i + 2)).value) fun _ _ => rfl

/-! Skipping. At the end of the part it stops on both sides. -/

/-- Kinds of token at which skipping stops. -/
def stopsSkip (kind : Kind) : Bool :=
  kind == .endOfText || kind == .text || kind == .variableStart || kind == .tagStart

/-- The tokens behind a closing delimiter, or from a token on that is not to be
skipped. -/
def Skips (close : Kind) (skip : List Token → List Token) : Prop :=
  ∀ t rest, skip (t :: rest) =
    if stopsSkip t.kind then t :: rest else if t.kind = close then rest else skip rest

theorem skipVariable_skips : Skips .variableEnd skipVariable := fun t rest => by
  rw [skipVariable]
  cases t.kind <;> rfl

theorem skipTagRest_skips : Skips .tagEnd skipTagRest := fun t rest => by
  rw [skipTagRest]
  cases t.kind <;> rfl

/-- Skipping a construct stops at the same token in the part and in the whole. -/
theorem Skips.ends {close : Kind} {skip : List Token → List Token} (h : Skips close skip) {i : Nat}
    (hi : i ≤ x.size) :
    ∃ j, i ≤ j ∧ j ≤ x.size ∧ skip (x.part.drop i) = x.part.drop j ∧
      skip (x.whole.drop i) = x.whole.drop j := by
  rcases Nat.lt_or_eq_of_le hi with hLess | rfl
  · obtain ⟨t, hPart, hWhole⟩ := x.tokens_at (.inl hLess)
    by_cases hStop : stopsSkip t.kind = true
    · refine ⟨i, Nat.le_refl i, hi, ?_, ?_⟩
      · rw [hPart, h, if_pos hStop]
      · rw [hWhole, h, Token.moved_kind, if_pos hStop]
    · by_cases hClose : t.kind = close
      · refine ⟨i + 1, Nat.le_succ i, hLess, ?_, ?_⟩
        · rw [hPart, h, if_neg hStop, if_pos hClose]
        · rw [hWhole, h, Token.moved_kind, if_neg hStop, if_pos hClose]
      · obtain ⟨j, hLe, hj, hPartRest, hWholeRest⟩ := h.ends hLess
        refine ⟨j, Nat.le_of_succ_le hLe, hj, ?_, ?_⟩
        · rw [hPart, h, if_neg hStop, if_neg hClose, hPartRest]
        · rw [hWhole, h, Token.moved_kind, if_neg hStop, if_neg hClose, hWholeRest]
  · obtain ⟨e, t, hPart, hEnd, hWhole, -, hKind⟩ := x.last
    refine ⟨x.size, Nat.le_refl _, Nat.le_refl _, ?_, ?_⟩
    · rw [drop_of_getElem? hPart, h, if_pos (by rw [hEnd]; rfl)]
    · have hStop : stopsSkip t.kind = true := by
        rcases hKind with hKind | hKind | hKind <;> rw [hKind] <;> rfl
      rw [drop_of_getElem? hWhole, h, if_pos hStop]
termination_by x.size - i

/-- Skipping a tag goes past its first token, unless that is the end mark. -/
theorem skipTag_ends (hi : x.Covers i) :
    ∃ j, i ≤ j ∧ (i < x.size → i < j) ∧ j ≤ x.size ∧ skipTag (x.part.drop i) = x.part.drop j ∧
      skipTag (x.whole.drop i) = x.whole.drop j := by
  rw [skipTag, skipTag]
  by_cases hEnd : (x.at_ i).kind = .endOfText
  · obtain ⟨t, hPart, hWhole⟩ := x.tokens_at hi
    have hKind : t.kind = .endOfText := by
      rw [at_, hPart] at hEnd
      exact hEnd
    have hAdvance : advance (x.part.drop i) = x.part.drop i ∧
        advance (x.whole.drop i) = x.whole.drop i := by
      rw [hPart, hWhole, advance, advance, if_pos hKind, if_pos (by exact hKind)]
      exact ⟨rfl, rfl⟩
    obtain ⟨j, hLe, hj, hSkip⟩ := skipTagRest_skips.ends hi.le
    have hLast : ¬ i < x.size := fun hLess => by
      refine x.inner i hLess t ?_ hKind
      rw [← List.head?_drop, hPart]
      rfl
    rw [hAdvance.1, hAdvance.2]
    exact ⟨j, hLe, fun hLess => absurd hLess hLast, hj, hSkip⟩
  · obtain ⟨j, hLe, hj, hSkip⟩ := skipTagRest_skips.ends (lt_size hi hEnd)
    rw [advance_part hEnd, advance_whole hi hEnd]
    exact ⟨j, Nat.le_of_succ_le hLe, fun _ => hLe, hj, hSkip⟩

/-- The first token at a place is at the same place of the template. -/
theorem atToken_current_whole (hi : i ≤ x.size) (mistake : Mistake) :
    TemplateError.atToken mistake (current (x.whole.drop i)) =
      (TemplateError.atToken mistake (x.at_ i)).moved x.origin := by
  rcases Nat.lt_or_eq_of_le hi with hLess | rfl
  · rw [current_whole (.inl hLess)]
    rfl
  · obtain ⟨e, t, hPart, -, hWhole, hPlace, -⟩ := x.last
    rw [at_, drop_of_getElem? hPart, drop_of_getElem? hWhole]
    show (⟨mistake, t.place.line, t.place.column⟩ : TemplateError) = _
    rw [hPlace]
    rfl

end Excerpt

end NoteTemplate
