import NoteTemplate.Proofs.Compose.Scan

/-! Reading expressions from a part of the tokens. A reader on the part and the
same reader on all tokens, from where the part begins, stop at the same place,
with the same result or the same mistake, moved there. The part is all that
there is, or it ends behind a construct; in either case no expression goes past
its end. -/
namespace NoteTemplate

open Tokens Token

/-- Some tokens of a template as a template by themselves, with an end mark, and
all tokens of the template from where they begin. Either the template ends with
the part, or the part is closed and a construct begins behind it. -/
structure Excerpt where
  origin : Position
  part : List Token
  whole : List Token
  size : Nat
  final : Bool
  length : part.length = size + 1
  token : ∀ i, i < size ∨ i = size ∧ final = true →
    ∃ t, part[i]? = some t ∧ whole[i]? = some (t.moved origin)
  inner : ∀ i < size, ∀ t, part[i]? = some t → t.kind ≠ .endOfText
  last : ∃ e t, part[size]? = some e ∧ e.kind = .endOfText ∧ whole[size]? = some t ∧
    t.place = e.place.moved origin ∧
      (t.kind = .endOfText ∨ t.kind = .variableStart ∨ t.kind = .tagStart)
  closed : final = false → ∀ i, i + 1 = size → ∀ t, part[i]? = some t → t.kind.closes = true

namespace Excerpt

variable {x : Excerpt} {i : Nat}

/-- Places at which the part and the template have the same token. -/
def Covers (x : Excerpt) (i : Nat) : Prop := i < x.size ∨ i = x.size ∧ x.final = true

theorem Covers.le (hi : x.Covers i) : i ≤ x.size := by
  rcases hi with hLess | ⟨hSame, -⟩
  · exact Nat.le_of_lt hLess
  · exact Nat.le_of_eq hSame

theorem drop_of_getElem? {ts : List Token} {t : Token} (h : ts[i]? = some t) :
    ts.drop i = t :: ts.drop (i + 1) := by
  obtain ⟨hLess, rfl⟩ := List.getElem?_eq_some_iff.mp h
  exact List.drop_eq_getElem_cons hLess

/-- The two lists of tokens from a place on. -/
theorem tokens_at (hi : x.Covers i) : ∃ t, x.part.drop i = t :: x.part.drop (i + 1) ∧
    x.whole.drop i = t.moved x.origin :: x.whole.drop (i + 1) := by
  obtain ⟨t, hPart, hWhole⟩ := x.token i hi
  exact ⟨t, drop_of_getElem? hPart, drop_of_getElem? hWhole⟩

/-- The token at a place of the part. -/
def at_ (x : Excerpt) (i : Nat) : Token := current (x.part.drop i)

theorem current_whole (hi : x.Covers i) : current (x.whole.drop i) = (x.at_ i).moved x.origin := by
  obtain ⟨t, hPart, hWhole⟩ := x.tokens_at hi
  rw [at_, hPart, hWhole]
  rfl

theorem at?_whole (hi : x.Covers i) (kind : Kind) :
    at? (x.whole.drop i) kind = at? (x.part.drop i) kind := by
  rw [at?, current_whole hi]
  rfl

/-- Kinds of token behind which there is more of a construct. -/
def passes (kind : Kind) : Bool := !kind.closes && kind != .endOfText

theorem at_kind_of_size (x : Excerpt) : (x.at_ x.size).kind = .endOfText := by
  obtain ⟨e, -, hLast, hKind, -⟩ := x.last
  rw [at_, drop_of_getElem? hLast]
  exact hKind

/-- Only the end mark stands at the end of the part. -/
theorem lt_size (hi : x.Covers i) (hKind : (x.at_ i).kind ≠ .endOfText) : i < x.size := by
  rcases hi with hLess | ⟨rfl, -⟩
  · exact hLess
  · exact absurd x.at_kind_of_size hKind

/-- A token that can be passed has another one behind it in the part. -/
theorem covers_succ (hi : x.Covers i) (hPass : passes (x.at_ i).kind = true) : x.Covers (i + 1) := by
  rw [passes, Bool.and_eq_true, bne_iff_ne, Bool.not_eq_true'] at hPass
  have hLess := x.lt_size hi hPass.2
  rcases Nat.lt_or_eq_of_le hLess with hNext | hNext
  · exact .inl hNext
  · cases hFinal : x.final with
    | true => exact .inr ⟨hNext, hFinal⟩
    | false =>
        obtain ⟨t, hPart, -⟩ := x.token i hi
        have hCloses := x.closed hFinal i hNext t hPart
        rw [at_, drop_of_getElem? hPart] at hPass
        rw [show (current (t :: x.part.drop (i + 1))).kind = t.kind from rfl, hCloses] at hPass
        cases hPass.1

/-- Going on by one token, inside of the part. -/
theorem advance_part (hKind : (x.at_ i).kind ≠ .endOfText) :
    advance (x.part.drop i) = x.part.drop (i + 1) := by
  cases hTokens : x.part.drop i with
  | nil =>
      rw [at_, hTokens] at hKind
      exact absurd rfl hKind
  | cons t rest =>
      rw [at_, hTokens] at hKind
      have hTail := congrArg List.tail hTokens
      rw [List.tail_drop] at hTail
      rw [hTail, advance, if_neg (show t.kind ≠ .endOfText from hKind)]
      rfl

theorem advance_whole (hi : x.Covers i) (hKind : (x.at_ i).kind ≠ .endOfText) :
    advance (x.whole.drop i) = x.whole.drop (i + 1) := by
  obtain ⟨t, hPart, hWhole⟩ := x.tokens_at hi
  rw [at_, hPart] at hKind
  rw [hWhole, advance, if_neg (show (t.moved x.origin).kind ≠ .endOfText from hKind)]

theorem kind_of_at? {kind : Kind} (h : at? (x.part.drop i) kind = true) : (x.at_ i).kind = kind :=
  beq_iff_eq.mp h

/-- Going past a token behind which there is more of a construct. -/
theorem pass (hi : x.Covers i) (hPass : passes (x.at_ i).kind = true) :
    advance (x.part.drop i) = x.part.drop (i + 1) ∧ advance (x.whole.drop i) = x.whole.drop (i + 1) ∧
      x.Covers (i + 1) ∧ i < x.size := by
  have hKind : (x.at_ i).kind ≠ .endOfText := by
    rw [passes, Bool.and_eq_true, bne_iff_ne] at hPass
    exact hPass.2
  exact ⟨advance_part hKind, advance_whole hi hKind, covers_succ hi hPass, lt_size hi hKind⟩

theorem pass_of_at? (hi : x.Covers i) {kind : Kind} (hAt : at? (x.part.drop i) kind = true)
    (hPass : passes kind = true) :
    advance (x.part.drop i) = x.part.drop (i + 1) ∧ advance (x.whole.drop i) = x.whole.drop (i + 1) ∧
      x.Covers (i + 1) ∧ i < x.size := by
  refine pass hi ?_
  rwa [kind_of_at? hAt]

/-- Behind a token with more of a construct behind it, the next one is the same
too. -/
theorem second_at (hi : x.Covers i) (hPass : passes (x.at_ i).kind = true) :
    second (x.part.drop i) = x.at_ (i + 1) ∧
      second (x.whole.drop i) = (x.at_ (i + 1)).moved x.origin := by
  obtain ⟨t, hPart, hWhole⟩ := x.tokens_at hi
  obtain ⟨next, hPartNext, hWholeNext⟩ := x.tokens_at (covers_succ hi hPass)
  rw [hPart, hWhole, at_, hPartNext, hWholeNext]
  exact ⟨rfl, rfl⟩

/-- Two readings with the same outcome: a result and a place in front of which
both stop, or a mistake or a fault. -/
inductive Like (x : Excerpt) {α : Type} (g : α → α) (i : Nat) :
    Except Failure (Found α) → Except Failure (Found α) → Prop where
  | ok (a : α) {j : Nat} (hLe : i ≤ j) (hj : x.Covers j) :
      Like x g i (.ok (a, x.part.drop j)) (.ok (g a, x.whole.drop j))
  | error (c : Cause) {j : Nat} (hLe : i ≤ j) (hj : x.Covers j) :
      Like x g i (.error ⟨c, x.part.drop j⟩) (.error ⟨c.moved x.origin, x.whole.drop j⟩)

variable {α β : Type} {g : α → α} {k : β → β}

theorem Like.mono {j : Nat} {act act' : Except Failure (Found α)} (h : x.Like g j act act')
    (hLe : i ≤ j) : x.Like g i act act' := by
  cases h with
  | ok a hLater hj => exact .ok a (Nat.le_trans hLe hLater) hj
  | error c hLater hj => exact .error c (Nat.le_trans hLe hLater) hj

/-- Readers that read alike may be put one behind the other. -/
theorem Like.bind {act act' : Except Failure (Found α)}
    {next next' : Found α → Except Failure (Found β)} (h : x.Like g i act act')
    (hNext : ∀ a j, i ≤ j → x.Covers j →
      x.Like k j (next (a, x.part.drop j)) (next' (g a, x.whole.drop j))) :
    x.Like k i (act >>= next) (act' >>= next') := by
  cases h with
  | ok a hLe hj => exact (hNext a _ hLe hj).mono hLe
  | error c hLe hj => exact .error c hLe hj

/-- Readings that fail at the same token. -/
theorem like_fail (mistake : Mistake) (t : Token) (hi : x.Covers i) :
    x.Like g i (fail mistake t (x.part.drop i)) (fail mistake (t.moved x.origin) (x.whole.drop i)) :=
  .error (.mistake (TemplateError.atToken mistake t)) (Nat.le_refl i) hi

/-- Readers inside of an expression. Both find room there, or neither does. -/
theorem within_like {room : Nat} {next next' : Nat → Except Failure (Found β)} (hi : x.Covers i)
    (hNext : ∀ inner, x.Like k i (next inner) (next' inner)) :
    x.Like k i (deeper room (x.part.drop i) >>= next) (deeper room (x.whole.drop i) >>= next') := by
  cases room with
  | zero => exact .error (.fault .nestedTooDeeply) (Nat.le_refl i) hi
  | succ inner => exact hNext inner

/-- Readers behind the same number. -/
theorem number_like {raw : String} {next next' : Literal → Except Failure (Found β)}
    (hi : x.Covers i) (hNext : ∀ l, x.Like k i (next l) (next' l)) :
    x.Like k i (orFault (numberLiteral raw) (x.part.drop i) >>= next)
      (orFault (numberLiteral raw) (x.whole.drop i) >>= next') := by
  cases numberLiteral raw with
  | ok l => exact hNext l
  | error f => exact .error (.fault f) (Nat.le_refl i) hi

/-- A token of a kind that stands in front is taken from the part and from the whole. -/
theorem expect_like (hi : x.Covers i) {kind : Kind} (hPass : passes kind = true) (mistake : Mistake) :
    x.Like (Token.moved x.origin) i (expect kind mistake (x.part.drop i))
      (expect kind mistake (x.whole.drop i)) := by
  rw [expect, expect, at?_whole hi]
  split
  · next hAt =>
    obtain ⟨hPart, hWhole, hNext, -⟩ := pass_of_at? hi hAt hPass
    rw [hPart, hWhole, current_whole hi]
    exact .ok _ (Nat.le_succ i) hNext
  · rw [current_whole hi]
    exact like_fail mistake _ hi

/-! Bare words and names behind a colon. -/

theorem glued_moved (left t : Token) :
    glued (left.moved x.origin) (t.moved x.origin) = glued left t := by
  rw [glued, adjacent_moved]
  rfl

theorem gluedRun_of_not_word {left : Token} (h : isWordPart left.kind = false) (ts : List Token) :
    gluedRun left ts = ([], ts) := by
  cases ts with
  | nil => rfl
  | cons t rest => rw [gluedRun, glued, h, Bool.false_and, Bool.false_and, if_neg Bool.false_ne_true]

/-- A bare word does not run over the end of the part. -/
theorem gluedRun_like {i : Nat} (hi : x.Covers i) (left : Token) :
    ∃ run j, i ≤ j ∧ x.Covers j ∧ gluedRun left (x.part.drop i) = (run, x.part.drop j) ∧
      gluedRun (left.moved x.origin) (x.whole.drop i) =
        (run.map (Token.moved x.origin), x.whole.drop j) := by
  obtain ⟨t, hPart, hWhole⟩ := x.tokens_at hi
  have hAt : x.at_ i = t := by rw [at_, hPart]; rfl
  by_cases hGlued : glued left t = true
  · have hPass : passes (x.at_ i).kind = true := by
      rw [glued, Bool.and_eq_true, Bool.and_eq_true] at hGlued
      rw [hAt]
      revert hGlued
      cases t.kind <;> simp [isWordPart, passes, Kind.closes]
    have hNext := covers_succ hi hPass
    have hLess := hNext.le
    obtain ⟨run, j, hLe, hj, hRun, hRunWhole⟩ := gluedRun_like hNext t
    refine ⟨t :: run, j, by omega, hj, ?_, ?_⟩
    · rw [hPart, gluedRun, if_pos hGlued, hRun]
    · rw [hWhole, gluedRun, glued_moved, if_pos hGlued, hRunWhole]
      rfl
  · refine ⟨[], i, Nat.le_refl i, hi, ?_, ?_⟩
    · rw [hPart, gluedRun, if_neg hGlued]
    · rw [hWhole, gluedRun, glued_moved, if_neg hGlued]
      rfl
termination_by x.size - i

/-- A name with a prefix does not run over the end of the part. -/
theorem prefixedName_like {i : Nat} (hi : x.Covers i) (name : String) (previous : Token) :
    ∃ found j, i ≤ j ∧ x.Covers j ∧ prefixedName name previous (x.part.drop i) = (found, x.part.drop j) ∧
      prefixedName name (previous.moved x.origin) (x.whole.drop i) = (found, x.whole.drop j) := by
  obtain ⟨t, hPart, hWhole⟩ := x.tokens_at hi
  have hAt : x.at_ i = t := by rw [at_, hPart]; rfl
  have hNamePart : isNamePart (t.moved x.origin) = isNamePart t := rfl
  rw [hPart, hWhole, prefixedName, prefixedName, adjacent_moved, Token.moved_kind, Token.moved_kind,
    Token.moved_value, hNamePart]
  split
  · exact ⟨name, i, Nat.le_refl i, hi, by rw [hPart], by rw [hWhole]⟩
  · split
    · next hString =>
      have hKind : t.kind = .string := by
        rw [Bool.and_eq_true] at hString
        simpa using hString.1
      have hPass : passes (x.at_ i).kind = true := by rw [hAt, hKind]; rfl
      exact ⟨name ++ quote t.value, i + 1, Nat.le_succ i, covers_succ hi hPass, rfl, rfl⟩
    · split
      · next hName =>
        have hPass : passes (x.at_ i).kind = true := by
          rw [hAt]
          revert hName
          rw [isNamePart]
          cases t.kind <;> simp [passes, Kind.closes]
        have hNext := covers_succ hi hPass
        have hLess := hNext.le
        obtain ⟨found, j, hLe, hj, hFound, hFoundWhole⟩ :=
          prefixedName_like hNext (name ++ t.value) t
        exact ⟨found, j, by omega, hj, hFound, hFoundWhole⟩
      · exact ⟨name, i, Nat.le_refl i, hi, by rw [hPart], by rw [hWhole]⟩
termination_by x.size - i

/-! The readers. With steps enough for the tokens in front of them, both stop
at the same place. -/

/-- An expression that may have been found, in the template. -/
def movedFound (x : Excerpt) : Option Expr → Option Expr := Option.map (Expr.moved x.origin)

/-- How many levels of binding a chain is above the tightest one. -/
def height : Chain → Nat
  | .fallback => 4
  | .or => 2
  | .and => 0

/-- Enough steps for a reader on both sides: so many for each token in front of
it, and some more to begin with. -/
def Enough (x : Excerpt) (fuel fuel' i level : Nat) : Prop :=
  16 * (x.size - i) + level ≤ min fuel fuel'

/-- What each reader is to do with the steps given. -/
structure Mirrors (x : Excerpt) (fuel fuel' : Nat) : Prop where
  chain (room : Nat) (chain : Chain) {i : Nat} (hi : x.Covers i)
    (hFuel : x.Enough fuel fuel' i (height chain + 7)) :
    x.Like x.movedFound i (readChain fuel room chain (x.part.drop i))
      (readChain fuel' room chain (x.whole.drop i))
  chainTail (room : Nat) (chain : Chain) (left : Expr) {i : Nat} (hi : x.Covers i)
    (hFuel : x.Enough fuel fuel' i 1) :
    x.Like x.movedFound i (readChainTail fuel room chain left (x.part.drop i))
      (readChainTail fuel' room chain (left.moved x.origin) (x.whole.drop i))
  operand (room : Nat) (chain : Chain) {i : Nat} (hi : x.Covers i)
    (hFuel : x.Enough fuel fuel' i (height chain + 6)) :
    x.Like x.movedFound i (readOperand fuel room chain (x.part.drop i))
      (readOperand fuel' room chain (x.whole.drop i))
  negation (room : Nat) {i : Nat} (hi : x.Covers i) (hFuel : x.Enough fuel fuel' i 5) :
    x.Like x.movedFound i (readNegation fuel room (x.part.drop i))
      (readNegation fuel' room (x.whole.drop i))
  comparison (room : Nat) {i : Nat} (hi : x.Covers i) (hFuel : x.Enough fuel fuel' i 4) :
    x.Like x.movedFound i (readComparison fuel room (x.part.drop i))
      (readComparison fuel' room (x.whole.drop i))
  filtered (room : Nat) {i : Nat} (hi : x.Covers i) (hFuel : x.Enough fuel fuel' i 3) :
    x.Like x.movedFound i (readFiltered fuel room (x.part.drop i))
      (readFiltered fuel' room (x.whole.drop i))
  filters (room : Nat) (value : Expr) {i : Nat} (hi : x.Covers i)
    (hFuel : x.Enough fuel fuel' i 1) :
    x.Like x.movedFound i (readFilters fuel room value (x.part.drop i))
      (readFilters fuel' room (value.moved x.origin) (x.whole.drop i))
  moreArgs (room : Nat) {i : Nat} (hi : x.Covers i) (hFuel : x.Enough fuel fuel' i 1) :
    x.Like (Prod.map id (Expr.movedAll x.origin)) i (readMoreArgs fuel room (x.part.drop i))
      (readMoreArgs fuel' room (x.whole.drop i))
  parenArgs (room : Nat) {i : Nat} (hi : x.Covers i) (hFuel : x.Enough fuel fuel' i 10) :
    x.Like (Expr.movedAll x.origin) i (readParenArgs fuel room (x.part.drop i))
      (readParenArgs fuel' room (x.whole.drop i))
  argument (room : Nat) {i : Nat} (hi : x.Covers i) (hFuel : x.Enough fuel fuel' i 3) :
    x.Like x.movedFound i (readArgument fuel room (x.part.drop i))
      (readArgument fuel' room (x.whole.drop i))
  accessed (room : Nat) (prefixed : Bool) {i : Nat} (hi : x.Covers i)
    (hFuel : x.Enough fuel fuel' i 2) :
    x.Like x.movedFound i (readPostfix fuel room prefixed (x.part.drop i))
      (readPostfix fuel' room prefixed (x.whole.drop i))
  access (room : Nat) (e : Expr) {i : Nat} (hi : x.Covers i) (hFuel : x.Enough fuel fuel' i 1) :
    x.Like x.movedFound i (readAccess fuel room e (x.part.drop i))
      (readAccess fuel' room (e.moved x.origin) (x.whole.drop i))
  primary (room : Nat) (prefixed : Bool) {i : Nat} (hi : x.Covers i)
    (hFuel : x.Enough fuel fuel' i 1) :
    x.Like x.movedFound i (readPrimary fuel room prefixed (x.part.drop i))
      (readPrimary fuel' room prefixed (x.whole.drop i))

section

variable {fuel fuel' room level less j : Nat}

/-- One step less leaves enough for a reader with fewer to begin with. -/
theorem Enough.here (h : x.Enough (fuel + 1) (fuel' + 1) i level) (hLess : less < level)
    (hLe : i ≤ j) : x.Enough fuel fuel' j less := by
  rw [Enough] at h ⊢
  omega

/-- One step less leaves enough for any reader behind a token. -/
theorem Enough.later (h : x.Enough (fuel + 1) (fuel' + 1) i level) (hLess : less < level + 16)
    (hi : i < x.size) (hLater : i < j) : x.Enough fuel fuel' j less := by
  rw [Enough] at h ⊢
  omega

/-- Readings that find an expression. -/
theorem like_found {e e' : Expr} (he : e.moved x.origin = e') (hi : x.Covers i) :
    x.Like x.movedFound i (.ok (some e, x.part.drop i)) (.ok (some e', x.whole.drop i)) :=
  he ▸ .ok (some e) (Nat.le_refl i) hi

theorem like_nothing (hi : x.Covers i) :
    x.Like x.movedFound i (.ok (none, x.part.drop i)) (.ok (none, x.whole.drop i)) :=
  .ok none (Nat.le_refl i) hi

/-- Each reader with one step more reads alike if all do with one step less. The numbers
say how many calls may follow before a token is taken. -/
theorem Mirrors.chain_succ (h : Mirrors x fuel fuel') (chain : Chain) (hi : x.Covers i)
    (hFuel : x.Enough (fuel + 1) (fuel' + 1) i (height chain + 7)) :
    x.Like x.movedFound i (readChain (fuel + 1) room chain (x.part.drop i))
      (readChain (fuel' + 1) room chain (x.whole.drop i)) := by
  rw [readChain, readChain]
  have hOperand := h.operand room chain hi (hFuel.here (by omega) (Nat.le_refl i))
  refine hOperand.bind fun found j hLe hj => ?_
  cases found with
  | none => exact like_nothing hj
  | some left => exact h.chainTail room chain left hj (hFuel.here (by omega) hLe)

theorem Mirrors.chainTail_succ (h : Mirrors x fuel fuel') (chain : Chain) (left : Expr)
    (hi : x.Covers i) (hFuel : x.Enough (fuel + 1) (fuel' + 1) i 1) :
    x.Like x.movedFound i (readChainTail (fuel + 1) room chain left (x.part.drop i))
      (readChainTail (fuel' + 1) room chain (left.moved x.origin) (x.whole.drop i)) := by
  rw [readChainTail, readChainTail, at?_whole hi]
  split
  · next hAt =>
    obtain ⟨hPart, hWhole, hNext, hLess⟩ := pass_of_at? hi hAt (by cases chain <;> rfl)
    rw [hPart, hWhole, current_whole hi]
    have hOperand := h.operand room chain hNext
      (hFuel.later (by cases chain <;> decide) hLess (Nat.lt_succ_self i))
    refine (hOperand.bind fun found j hLe hj => ?_).mono (Nat.le_succ i)
    cases found with
    | none => exact like_fail _ _ hj
    | some right =>
        have hTail := h.chainTail room chain (.binary chain.operator left right (x.at_ i).place) hj
          (hFuel.later (by omega) hLess hLe)
        rwa [Expr.moved] at hTail
  · exact like_found rfl hi

theorem Mirrors.operand_succ (h : Mirrors x fuel fuel') (chain : Chain) (hi : x.Covers i)
    (hFuel : x.Enough (fuel + 1) (fuel' + 1) i (height chain + 6)) :
    x.Like x.movedFound i (readOperand (fuel + 1) room chain (x.part.drop i))
      (readOperand (fuel' + 1) room chain (x.whole.drop i)) := by
  cases chain with
  | fallback => exact h.chain room .or hi (hFuel.here (by decide) (Nat.le_refl i))
  | or => exact h.chain room .and hi (hFuel.here (by decide) (Nat.le_refl i))
  | and => exact h.negation room hi (hFuel.here (by decide) (Nat.le_refl i))

theorem Mirrors.negation_succ (h : Mirrors x fuel fuel') (hi : x.Covers i)
    (hFuel : x.Enough (fuel + 1) (fuel' + 1) i 5) :
    x.Like x.movedFound i (readNegation (fuel + 1) room (x.part.drop i))
      (readNegation (fuel' + 1) room (x.whole.drop i)) := by
  rw [readNegation, readNegation, at?_whole hi]
  split
  · next hAt =>
    obtain ⟨hPart, hWhole, hNext, hLess⟩ := pass_of_at? hi hAt rfl
    rw [hPart, hWhole, current_whole hi]
    refine within_like hi fun inner => ?_
    have hInner := h.negation inner hNext (hFuel.later (by decide) hLess (Nat.lt_succ_self i))
    refine (hInner.bind fun found j hLe hj => ?_).mono (Nat.le_succ i)
    cases found with
    | none => exact like_fail _ _ hj
    | some argument =>
        exact like_found (by rw [Expr.moved]; rfl) hj
  · exact h.comparison room hi (hFuel.here (by decide) (Nat.le_refl i))

theorem Mirrors.comparison_succ (h : Mirrors x fuel fuel') (hi : x.Covers i)
    (hFuel : x.Enough (fuel + 1) (fuel' + 1) i 4) :
    x.Like x.movedFound i (readComparison (fuel + 1) room (x.part.drop i))
      (readComparison (fuel' + 1) room (x.whole.drop i)) := by
  rw [readComparison, readComparison]
  refine (h.filtered room hi (hFuel.here (by decide) (Nat.le_refl i))).bind fun found j hLe hj => ?_
  cases found with
  | none => exact like_nothing hj
  | some left =>
      simp only [movedFound, Option.map_some, current_whole hj, Token.moved_kind]
      rw [← at_]
      cases hOperator : comparison? (x.at_ j).kind with
      | none => exact like_found rfl hj
      | some operator =>
          have hPass : passes (x.at_ j).kind = true := by
            revert hOperator
            cases (x.at_ j).kind <;> simp [comparison?, passes, Kind.closes]
          obtain ⟨hPart, hWhole, hNext, hLess⟩ := pass hj hPass
          simp only [hPart, hWhole]
          have hRight := h.filtered room hNext
            (hFuel.later (by decide) (Nat.lt_of_le_of_lt hLe hLess) (Nat.lt_succ_of_le hLe))
          refine (hRight.bind fun found k hLater hk => ?_).mono (Nat.le_succ j)
          cases found with
          | none => exact like_fail _ _ hk
          | some right => exact like_found (by rw [Expr.moved]; rfl) hk

theorem Mirrors.filtered_succ (h : Mirrors x fuel fuel') (hi : x.Covers i)
    (hFuel : x.Enough (fuel + 1) (fuel' + 1) i 3) :
    x.Like x.movedFound i (readFiltered (fuel + 1) room (x.part.drop i))
      (readFiltered (fuel' + 1) room (x.whole.drop i)) := by
  rw [readFiltered, readFiltered]
  have hPostfix := h.accessed room true hi (hFuel.here (by decide) (Nat.le_refl i))
  refine hPostfix.bind fun found j hLe hj => ?_
  cases found with
  | none => exact like_nothing hj
  | some value => exact h.filters room value hj (hFuel.here (by decide) hLe)

theorem Mirrors.moreArgs_succ (h : Mirrors x fuel fuel') (hi : x.Covers i)
    (hFuel : x.Enough (fuel + 1) (fuel' + 1) i 1) :
    x.Like (Prod.map id (Expr.movedAll x.origin)) i (readMoreArgs (fuel + 1) room (x.part.drop i))
      (readMoreArgs (fuel' + 1) room (x.whole.drop i)) := by
  rw [readMoreArgs, readMoreArgs, current_whole hi, Token.moved_kind, ← at_]
  cases hSeparator : separator? (x.at_ i).kind with
  | none => exact .ok ([], []) (Nat.le_refl i) hi
  | some separator =>
      have hPass : passes (x.at_ i).kind = true := by
        revert hSeparator
        cases (x.at_ i).kind <;> simp [separator?, passes, Kind.closes]
      obtain ⟨hPart, hWhole, hNext, hLess⟩ := pass hi hPass
      simp only [hPart, hWhole]
      have hArgument := h.argument room hNext (hFuel.later (by decide) hLess (Nat.lt_succ_self i))
      refine (hArgument.bind fun found j hLe hj => ?_).mono (Nat.le_succ i)
      cases found with
      | none =>
          simp only [movedFound, Option.map_none, current_whole hj]
          exact like_fail _ _ hj
      | some arg =>
          have hMore := h.moreArgs room hj (hFuel.later (by decide) hLess hLe)
          refine hMore.bind fun more k hLater hk => ?_
          obtain ⟨separators, args⟩ := more
          exact .ok (separator :: separators, arg :: args) (Nat.le_refl k) hk

theorem Mirrors.parenArgs_succ (h : Mirrors x fuel fuel') (hi : x.Covers i)
    (hFuel : x.Enough (fuel + 1) (fuel' + 1) i 10) :
    x.Like (Expr.movedAll x.origin) i (readParenArgs (fuel + 1) room (x.part.drop i))
      (readParenArgs (fuel' + 1) room (x.whole.drop i)) := by
  rw [readParenArgs, readParenArgs, current_whole hi, Token.moved_kind, ← at_, at?_whole hi]
  split
  · exact .ok [] (Nat.le_refl i) hi
  · refine within_like hi fun inner => ?_
    have hFirst := h.chain inner .or hi (hFuel.here (by decide) (Nat.le_refl i))
    refine hFirst.bind fun found j hLe hj => ?_
    cases found with
    | none => exact .ok [] (Nat.le_refl j) hj
    | some arg =>
        simp only [movedFound, Option.map_some, at?_whole hj]
        split
        · next hAt =>
          obtain ⟨hPart, hWhole, hNext, hLess⟩ := pass_of_at? hj hAt rfl
          rw [hPart, hWhole]
          have hMore := h.parenArgs room hNext
            (hFuel.later (by decide) (Nat.lt_of_le_of_lt hLe hLess) (Nat.lt_succ_of_le hLe))
          refine (hMore.bind fun args k hLater hk => ?_).mono (Nat.le_succ j)
          exact .ok (arg :: args) (Nat.le_refl k) hk
        · exact .ok [arg] (Nat.le_refl j) hj

theorem Mirrors.accessed_succ (h : Mirrors x fuel fuel') (prefixed : Bool) (hi : x.Covers i)
    (hFuel : x.Enough (fuel + 1) (fuel' + 1) i 2) :
    x.Like x.movedFound i (readPostfix (fuel + 1) room prefixed (x.part.drop i))
      (readPostfix (fuel' + 1) room prefixed (x.whole.drop i)) := by
  rw [readPostfix, readPostfix]
  have hPrimary := h.primary room prefixed hi (hFuel.here (by decide) (Nat.le_refl i))
  refine hPrimary.bind fun found j hLe hj => ?_
  cases found with
  | none => exact like_nothing hj
  | some e => exact h.access room e hj (hFuel.here (by decide) hLe)

theorem Mirrors.argument_succ (h : Mirrors x fuel fuel') (hi : x.Covers i)
    (hFuel : x.Enough (fuel + 1) (fuel' + 1) i 3) :
    x.Like x.movedFound i (readArgument (fuel + 1) room (x.part.drop i))
      (readArgument (fuel' + 1) room (x.whole.drop i)) := by
  have hAccessed := h.accessed room false hi (hFuel.here (by decide) (Nat.le_refl i))
  obtain ⟨t, hPart, hWhole⟩ := x.tokens_at hi
  have hAt : x.at_ i = t := by rw [at_, hPart]; rfl
  rw [hPart, hWhole] at hAccessed ⊢
  rw [readArgument, readArgument]
  by_cases hWord : isWordPart t.kind = true
  · have hPass : passes (x.at_ i).kind = true := by
      rw [hAt]
      revert hWord
      cases t.kind <;> simp [isWordPart, passes, Kind.closes]
    obtain ⟨run, j, hLe, hj, hRun, hRunWhole⟩ := gluedRun_like (covers_succ hi hPass) t
    rw [hRun, hRunWhole]
    cases run with
    | nil => exact hAccessed
    | cons next run =>
        have hText : ((t.moved x.origin :: (next :: run).map (Token.moved x.origin)).map (·.value)) =
            (t :: next :: run).map (·.value) := by
          simp [List.map_map, Function.comp_def]
        simp only [List.map_cons] at hText ⊢
        rw [hText]
        exact (like_found (by rw [Expr.moved]; rfl) hj).mono (Nat.le_of_succ_le hLe)
  · rw [gluedRun_of_not_word (by simpa using hWord), gluedRun_of_not_word (by simpa using hWord)]
    exact hAccessed

theorem Mirrors.access_succ (h : Mirrors x fuel fuel') (e : Expr) (hi : x.Covers i)
    (hFuel : x.Enough (fuel + 1) (fuel' + 1) i 1) :
    x.Like x.movedFound i (readAccess (fuel + 1) room e (x.part.drop i))
      (readAccess (fuel' + 1) room (e.moved x.origin) (x.whole.drop i)) := by
  rw [readAccess, readAccess, at?_whole hi, at?_whole hi]
  split
  · next hAt =>
    obtain ⟨hPart, hWhole, hNext, hLess⟩ := pass_of_at? hi hAt rfl
    simp only [hPart, hWhole, current_whole hi, at?_whole hNext]
    refine Like.mono ?_ (Nat.le_succ i)
    split
    · exact like_fail _ _ hNext
    · refine within_like hNext fun inner => ?_
      have hKey := h.chain inner .fallback hNext (hFuel.later (by decide) hLess (Nat.lt_succ_self i))
      refine hKey.bind fun found j hLe hj => ?_
      cases found with
      | none => exact like_fail _ _ hj
      | some key =>
          refine (expect_like hj rfl _).bind fun t k hLater hk => ?_
          have hAccess := h.access room (.index e key (x.at_ i).place) hk
            (hFuel.later (by decide) hLess (Nat.le_trans hLe hLater))
          rwa [Expr.moved] at hAccess
  · have hMember : (at? (x.part.drop i) .dot && (second (x.whole.drop i)).kind == .identifier) =
        (at? (x.part.drop i) .dot && (second (x.part.drop i)).kind == .identifier) := by
      cases hDot : at? (x.part.drop i) .dot with
      | false => rfl
      | true =>
          obtain ⟨hPart, hWhole⟩ := second_at hi (by rw [kind_of_at? hDot]; rfl)
          rw [hPart, hWhole]
          rfl
    rw [hMember]
    split
    · next hDot =>
      rw [Bool.and_eq_true, beq_iff_eq] at hDot
      obtain ⟨hPart, hWhole, hName, hLess⟩ := pass_of_at? hi hDot.1 rfl
      have hKind : (x.at_ (i + 1)).kind = .identifier := by
        rw [← (second_at hi (by rw [kind_of_at? hDot.1]; rfl)).1]
        exact hDot.2
      obtain ⟨hPartName, hWholeName, hNext, -⟩ := pass hName (by rw [hKind]; rfl)
      simp only [hPart, hWhole, hPartName, hWholeName, current_whole hi, current_whole hName]
      have hAccess := h.access room (.member e (x.at_ (i + 1)).value (x.at_ i).place) hNext
        (hFuel.later (by decide) hLess (Nat.lt_add_of_pos_right Nat.two_pos))
      rw [Expr.moved] at hAccess
      exact hAccess.mono (Nat.le_add_right i 2)
    · exact like_found rfl hi

/-- A filter in front of the filters behind it. -/
theorem Mirrors.filters_behind (h : Mirrors x fuel fuel') {value : Expr} (name : String)
    (args : List Expr) (separators : List Separator) (parenthesized : Bool) (place : Place)
    (hi : x.Covers i) (hFuel : x.Enough fuel fuel' i 1) :
    x.Like x.movedFound i
      (readFilters fuel room (.filter value name args separators parenthesized place) (x.part.drop i))
      (readFilters fuel' room (.filter (value.moved x.origin) name (Expr.movedAll x.origin args)
        separators parenthesized (place.moved x.origin)) (x.whole.drop i)) := by
  have hFilters := h.filters room (.filter value name args separators parenthesized place) hi hFuel
  rwa [Expr.moved] at hFilters

/-- The arguments of a filter behind its colon, and the filters behind it. -/
theorem Mirrors.filters_args (h : Mirrors x fuel fuel') (value : Expr) (name : Token)
    (hi : x.Covers i) (hFuel : ∀ j, i ≤ j → ∀ level < 17, x.Enough fuel fuel' j level) :
    x.Like x.movedFound i
      (readArgument fuel room (x.part.drop i) >>= fun
        | (none, rest) => readFilters fuel room (.filter value name.value [] [] false name.place) rest
        | (some first, rest) => readMoreArgs fuel room rest >>= fun ((separators, args), rest) =>
          readFilters fuel room
            (.filter value name.value (first :: args) separators false name.place) rest)
      (readArgument fuel' room (x.whole.drop i) >>= fun
        | (none, rest) => readFilters fuel' room (.filter (value.moved x.origin) name.value [] []
            false (name.place.moved x.origin)) rest
        | (some first, rest) => readMoreArgs fuel' room rest >>= fun ((separators, args), rest) =>
          readFilters fuel' room (.filter (value.moved x.origin) name.value (first :: args)
            separators false (name.place.moved x.origin)) rest) := by
  refine (h.argument room hi (hFuel i (Nat.le_refl i) 3 (by decide))).bind fun found j hLe hj => ?_
  cases found with
  | none => exact h.filters_behind _ [] [] false _ hj (hFuel j hLe 1 (by decide))
  | some first =>
      refine (h.moreArgs room hj (hFuel j hLe 1 (by decide))).bind fun more k hLater hk => ?_
      obtain ⟨separators, args⟩ := more
      exact h.filters_behind _ (first :: args) separators false _ hk
        (hFuel k (Nat.le_trans hLe hLater) 1 (by decide))

theorem Mirrors.filters_succ (h : Mirrors x fuel fuel') (value : Expr) (hi : x.Covers i)
    (hFuel : x.Enough (fuel + 1) (fuel' + 1) i 1) :
    x.Like x.movedFound i (readFilters (fuel + 1) room value (x.part.drop i))
      (readFilters (fuel' + 1) room (value.moved x.origin) (x.whole.drop i)) := by
  have hLater (hLess : i < x.size) {m : Nat} (hm : i < m) :
      ∀ j, m ≤ j → ∀ level < 17, x.Enough fuel fuel' j level :=
    fun j hj level hLevel => hFuel.later hLevel hLess (Nat.lt_of_lt_of_le hm hj)
  rw [readFilters, readFilters, at?_whole hi]
  split
  · next hAt =>
    obtain ⟨hPart, hWhole, hName, hLess⟩ := pass_of_at? hi hAt rfl
    simp only [hPart, hWhole, current_whole hName, Token.moved_kind, Token.moved_value,
      Token.moved_place]
    rw [← at_]
    refine Like.mono ?_ (Nat.le_succ i)
    split
    · exact like_fail _ _ hName
    · next hKind =>
      have hIdentifier : (x.at_ (i + 1)).kind = .identifier := not_not.mp hKind
      obtain ⟨hPart, hWhole, hColon, -⟩ := pass hName (by rw [hIdentifier]; rfl)
      simp only [hPart, hWhole, at?_whole hColon]
      refine Like.mono ?_ (Nat.le_succ (i + 1))
      split
      · next hAt =>
        obtain ⟨hPart, hWhole, hArgs, -⟩ := pass_of_at? hColon hAt rfl
        simp only [hPart, hWhole, at?_whole hArgs]
        refine Like.mono ?_ (Nat.le_succ (i + 1 + 1))
        split
        · next hAt =>
          obtain ⟨hPart, hWhole, hInner, -⟩ := pass_of_at? hArgs hAt rfl
          simp only [hPart, hWhole]
          refine Like.mono ?_ (Nat.le_succ (i + 1 + 1 + 1))
          have hEnough := hLater hLess (show i < i + 1 + 1 + 1 + 1 by omega)
          refine (h.parenArgs room hInner (hEnough _ (Nat.le_refl _) 10 (by decide))).bind
            fun args j hLe hj => ?_
          refine (expect_like hj rfl _).bind fun t k hLe' hk => ?_
          exact h.filters_behind _ args [] true _ hk
            (hEnough k (Nat.le_trans hLe hLe') 1 (by decide))
        · exact h.filters_args value (x.at_ (i + 1)) hArgs
            (hLater hLess (show i < i + 1 + 1 + 1 by omega))
      · exact h.filters_behind _ [] [] false _ hColon
          (hLater hLess (show i < i + 1 + 1 by omega) _ (Nat.le_refl _) 1 (by decide))
  · exact like_found rfl hi

/-- A literal in front of the tokens behind it. -/
theorem like_literal (hi : x.Covers i) {kind : Kind} (hKind : (x.at_ i).kind = kind)
    (hPass : passes kind = true) (l : Literal) :
    x.Like x.movedFound i (.ok (some (.literal l (x.at_ i).place), advance (x.part.drop i)))
      (.ok (some (.literal l ((x.at_ i).place.moved x.origin)), advance (x.whole.drop i))) := by
  obtain ⟨hPart, hWhole, hNext, -⟩ := pass hi (by rwa [hKind])
  rw [hPart, hWhole]
  exact (like_found (by rw [Expr.moved]) hNext).mono (Nat.le_succ i)

theorem Mirrors.primary_succ (h : Mirrors x fuel fuel') (prefixed : Bool) (hi : x.Covers i)
    (hFuel : x.Enough (fuel + 1) (fuel' + 1) i 1) :
    x.Like x.movedFound i (readPrimary (fuel + 1) room prefixed (x.part.drop i))
      (readPrimary (fuel' + 1) room prefixed (x.whole.drop i)) := by
  rw [readPrimary, readPrimary]
  simp only [current_whole hi, Token.moved_kind, Token.moved_value, Token.moved_place]
  rw [← at_]
  split
  case h_1 hKind =>
    obtain ⟨hPart, hWhole, hNext, hLess⟩ := pass hi (by rw [hKind]; rfl)
    simp only [hPart, hWhole, at?_whole hNext]
    refine Like.mono ?_ (Nat.le_succ i)
    split
    · exact like_fail _ _ hNext
    · refine within_like hNext fun inner => ?_
      have hInner := h.chain inner .fallback hNext (hFuel.later (by decide) hLess (Nat.lt_succ_self i))
      refine hInner.bind fun found j hLe hj => ?_
      cases found with
      | none => exact like_fail _ _ hj
      | some inner =>
          refine (expect_like hj rfl _).bind fun t k hLater hk => ?_
          exact like_found (by rw [Expr.moved]) hk
  case h_2 hKind => exact like_literal hi hKind rfl _
  case h_3 hKind => exact number_like hi fun l => like_literal hi hKind rfl l
  case h_4 hKind => exact like_literal hi hKind rfl _
  case h_5 hKind => exact like_literal hi hKind rfl _
  case h_6 hKind =>
    obtain ⟨hPart, hWhole, hNext, -⟩ := pass hi (by rw [hKind]; rfl)
    simp only [hPart, hWhole, at?_whole hNext, current_whole hNext, adjacent_moved]
    rw [← at_]
    refine Like.mono ?_ (Nat.le_succ i)
    split
    · next hName =>
      rw [Bool.and_eq_true, Bool.and_eq_true] at hName
      obtain ⟨hPart, hWhole, hBehind, -⟩ := pass_of_at? hNext hName.1.2 rfl
      obtain ⟨name, j, hLe, hj, hFound, hFoundWhole⟩ :=
        prefixedName_like hBehind ((x.at_ i).value ++ ":") (x.at_ (i + 1))
      rw [hPart, hWhole, hFound, hFoundWhole]
      exact (like_found (by rw [Expr.moved]) hj).mono (Nat.le_of_succ_le hLe)
    · exact like_found (by rw [Expr.moved]) hNext
  case h_7 hKind => exact like_fail _ _ hi
  case h_8 hKind => exact like_fail _ _ hi
  case h_9 => exact like_nothing hi

end

/-- Every reader of expressions does the same on both sides. -/
theorem mirrors (x : Excerpt) (fuel fuel' : Nat) : Mirrors x fuel fuel' := by
  induction fuel generalizing fuel' with
  | zero => constructor <;> intros <;> next hFuel => rw [Enough] at hFuel; omega
  | succ fuel ih =>
      cases fuel' with
      | zero => constructor <;> intros <;> next hFuel => rw [Enough] at hFuel; omega
      | succ fuel' =>
          have h := ih fuel'
          exact ⟨fun _ c => h.chain_succ c, fun _ c left => h.chainTail_succ c left,
            fun _ c => h.operand_succ c, fun _ => h.negation_succ, fun _ => h.comparison_succ,
            fun _ => h.filtered_succ, fun _ value => h.filters_succ value,
            fun _ => h.moreArgs_succ, fun _ => h.parenArgs_succ, fun _ => h.argument_succ,
            fun _ prefixed => h.accessed_succ prefixed, fun _ e => h.access_succ e,
            fun _ prefixed => h.primary_succ prefixed⟩

/-- An expression is read the same in the part and in the template. -/
theorem readExpr_like (room : Nat) (hi : x.Covers i) :
    x.Like x.movedFound i (readExpr room (x.part.drop i)) (readExpr room (x.whole.drop i)) := by
  refine (mirrors x _ _).chain room .fallback hi ?_
  obtain ⟨_, _, -, -, hWhole, -⟩ := x.last
  obtain ⟨hLength, -⟩ := List.getElem?_eq_some_iff.mp hWhole
  have hPart := x.length
  rw [Enough, stepBound, stepBound, List.length_drop, List.length_drop, height]
  omega

end Excerpt

end NoteTemplate
