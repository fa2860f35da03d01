import NoteTemplate.Proofs.Progress.Passes
import NoteTemplate.Proofs.Scope.Use

/-! What reading an expression does, said once for all its readers. Between the
tokens a reader is given and those it leaves, no construct begins; each name of
what it has read stands at one of these tokens, no two at the same one; and it is
written with the token, with those behind a colon that go on a name, or with
those that make up a bare word. -/
namespace NoteTemplate

variable {P W : String → Prop}

mutual

/-- What holds of all names in an expression: those of variables, those behind
points and those of filters. A name that is a whole argument of a filter may be a
bare word. -/
def Expr.Spelled (P W : String → Prop) : Expr → Prop
  | .literal _ _ => True
  | .identifier name _ => P name
  | .member object name _ => Spelled P W object ∧ P name
  | .index object key _ => Spelled P W object ∧ Spelled P W key
  | .not e _ => Spelled P W e
  | .binary _ left right _ => Spelled P W left ∧ Spelled P W right
  | .group inner _ => Spelled P W inner
  | .filter value name args _ _ _ => Spelled P W value ∧ P name ∧ SpelledAll P W args

/-- The same for the arguments of a filter. -/
def Expr.SpelledAll (P W : String → Prop) : List Expr → Prop
  | [] => True
  | e :: rest => (Spelled P W e ∨ ∃ name place, e = .identifier name place ∧ W name) ∧
      SpelledAll P W rest

end

namespace Expr

/-- The same for one argument. -/
def SpelledArg (P W : String → Prop) (e : Expr) : Prop :=
  Spelled P W e ∨ ∃ name place, e = .identifier name place ∧ W name

mutual

/-- What holds of all names and all words holds of all variables. -/
theorem forall_occurrences (hWord : ∀ name, W name → P name) :
    ∀ e, Spelled P W e → ∀ o ∈ e.occurrences, P o.1
  | .literal _ _, _ => by simp [occurrences]
  | .identifier _ _, h => by
      rw [occurrences]
      exact List.forall_mem_singleton.mpr h
  | .member object _ _, h => by
      rw [occurrences]
      exact forall_occurrences hWord object h.1
  | .index object key _, h => by
      rw [occurrences]
      exact List.forall_mem_append.mpr
        ⟨forall_occurrences hWord object h.1, forall_occurrences hWord key h.2⟩
  | .not e _, h => by
      rw [occurrences]
      exact forall_occurrences hWord e h
  | .binary _ left right _, h => by
      rw [occurrences]
      exact List.forall_mem_append.mpr
        ⟨forall_occurrences hWord left h.1, forall_occurrences hWord right h.2⟩
  | .group inner _, h => by
      rw [occurrences]
      exact forall_occurrences hWord inner h
  | .filter value _ args _ _ _, h => by
      rw [occurrences]
      exact List.forall_mem_append.mpr
        ⟨forall_occurrences hWord value h.1, forall_occurrencesAll hWord args h.2.2⟩

/-- What holds of all spelled names and words holds wherever they occur in arguments. -/
theorem forall_occurrencesAll (hWord : ∀ name, W name → P name) :
    ∀ es, SpelledAll P W es → ∀ o ∈ occurrencesAll es, P o.1
  | [], _ => by simp [occurrencesAll]
  | e :: rest, h => by
      rw [occurrencesAll]
      refine List.forall_mem_append.mpr ⟨?_, forall_occurrencesAll hWord rest h.2⟩
      rcases h.1 with hNames | ⟨name, place, rfl, hName⟩
      · exact forall_occurrences hWord e hNames
      · rw [occurrences]
        exact List.forall_mem_singleton.mpr (hWord name hName)

end

end Expr

/-- The places of the names of what was read, if anything was. -/
def placesOf : Option Expr → List Place
  | some e => e.places
  | none => []

/-- The places of the names of a list of expressions. -/
def placesOfAll (es : List Expr) : List Place := (Expr.occurrencesAll es).map Prod.snd

theorem places_identifier (name : String) (place : Place) :
    (Expr.identifier name place).places = [place] := by
  simp [Expr.places, Expr.occurrences]

theorem places_binary (operator : Operator) (left right : Expr) (place : Place) :
    (Expr.binary operator left right place).places = left.places ++ right.places := by
  simp [Expr.places, Expr.occurrences]

theorem places_not (argument : Expr) (place : Place) :
    (Expr.not argument place).places = argument.places := by
  simp [Expr.places, Expr.occurrences]

theorem places_member (object : Expr) (name : String) (place : Place) :
    (Expr.member object name place).places = object.places := by
  simp [Expr.places, Expr.occurrences]

theorem places_group (inner : Expr) (place : Place) :
    (Expr.group inner place).places = inner.places := by
  simp [Expr.places, Expr.occurrences]

theorem places_index (object key : Expr) (place : Place) :
    (Expr.index object key place).places = object.places ++ key.places := by
  simp [Expr.places, Expr.occurrences]

theorem places_filter (value : Expr) (name : String) (args : List Expr)
    (separators : List Separator) (parenthesized : Bool) (place : Place) :
    (Expr.filter value name args separators parenthesized place).places =
      value.places ++ placesOfAll args := by
  simp [Expr.places, Expr.occurrences, placesOfAll]

theorem placesOfAll_cons (e : Expr) (rest : List Expr) :
    placesOfAll (e :: rest) = e.places ++ placesOfAll rest := by
  simp [Expr.places, Expr.occurrencesAll, placesOfAll]

namespace Tokens

open Token

variable {T ts middle rest : List Token} {left between places : List Place}

theorem current_mem (h : ts ⊆ T) {kind : Kind} (hKind : (current ts).kind = kind)
    (hInner : kind ≠ .endOfText) : current ts ∈ T := by
  cases ts with
  | nil => exact (hInner hKind.symm).elim
  | cons t rest => exact h List.mem_cons_self

/-- No token is lost where a bare word is cut off. -/
theorem gluedRun_append (t : Token) (ts : List Token) :
    (gluedRun t ts).1 ++ (gluedRun t ts).2 = ts := by
  induction ts generalizing t with
  | nil => rfl
  | cons next rest ih =>
      rw [gluedRun]
      split
      · rw [List.cons_append, ih next]
      · rfl

/-- A name goes on behind a colon with name tokens, and ends at a string. -/
theorem prefixedName_induct {R : String → Prop} (hParts : ∀ t ∈ ts, isNamePart t = true → R t.value)
    (hQuote : ∀ s, R (quote s)) (hAppend : ∀ {a b}, P a → R b → P (a ++ b)) {name : String}
    (hName : P name) (previous : Token) : P (prefixedName name previous ts).1 := by
  induction ts generalizing name previous with
  | nil => exact hName
  | cons t rest ih =>
      obtain ⟨hHead, hRest⟩ := List.forall_mem_cons.mp hParts
      rw [prefixedName]
      split
      · exact hName
      · split
        · exact hAppend hName (hQuote _)
        · split
          · next hPart => exact ih hRest (hAppend hName (hHead hPart)) t
          · exact hName

theorem prefixedName_append (name : String) (previous : Token) (ts : List Token) :
    ∃ more, (prefixedName name previous ts).1 = name ++ more := by
  refine prefixedName_induct (P := fun read => ∃ more, read = name ++ more) (R := fun _ => True)
    (fun _ _ _ => trivial) (fun _ => trivial) ?_ ⟨"", String.append_empty.symm⟩ previous
  rintro a b ⟨more, rfl⟩ -
  exact ⟨more ++ b, String.append_assoc⟩

theorem isWordPart_cases {kind : Kind} (h : isWordPart kind = true) :
    kind = .identifier ∨ kind = .number ∨ kind = .unknown := by
  simpa only [isWordPart, Bool.or_eq_true, beq_iff_eq, or_assoc] using h

/-- Only tokens that words are made of are glued together. -/
theorem gluedRun_isWordPart (first : Token) (ts : List Token) :
    (gluedRun first ts).1 = [] ∨
      ∀ t ∈ first :: (gluedRun first ts).1, isWordPart t.kind = true := by
  induction ts generalizing first with
  | nil => exact .inl rfl
  | cons next rest ih =>
      rw [gluedRun]
      split
      · next hGlued =>
        rw [glued, Bool.and_eq_true, Bool.and_eq_true] at hGlued
        obtain ⟨⟨hFirst, hNext⟩, -⟩ := hGlued
        refine .inr (List.forall_mem_cons.mpr ⟨hFirst, ?_⟩)
        show ∀ t ∈ next :: (gluedRun next rest).1, isWordPart t.kind = true
        rcases ih next with hNone | hRun
        · rw [hNone]
          exact List.forall_mem_singleton.mpr hNext
        · exact hRun
      · exact .inl rfl

/-- What holds of all names, and of all bare words, that can be written with some
tokens. -/
structure Spelling (T : List Token) (P W : String → Prop) : Prop where
  name : ∀ t ∈ T, t.kind = .identifier → P t.value
  prefixed : ∀ t ∈ T, t.kind = .identifier → ∀ previous ts, ts ⊆ T →
    P (prefixedName (t.value ++ ":") previous ts).1
  word : ∀ first words, first :: words ⊆ T → (∀ t ∈ first :: words, isWordPart t.kind = true) →
    W (String.join ((first :: words).map (·.value)))

/-- Going from a list of tokens to a rest of it, past tokens with which nothing begins,
and from some places to more: each place that is added is that of one of these
tokens. -/
def Gathers (left : List Place) (ts rest : List Token) (places : List Place) : Prop :=
  ∃ taken, ts = taken ++ rest ∧ (∀ t ∈ taken, begins t.kind = false) ∧
    places.Sublist (left ++ taken.map Token.place)

theorem Gathers.passes (h : Gathers left ts rest places) : Passes ts rest := by
  obtain ⟨taken, hTokens, hTaken, -⟩ := h
  exact ⟨taken, hTokens, hTaken⟩

theorem gathers_of_passes (left : List Place) (h : Passes ts rest) : Gathers left ts rest left := by
  obtain ⟨taken, hTokens, hTaken⟩ := h
  exact ⟨taken, hTokens, hTaken, List.sublist_append_left left _⟩

theorem Gathers.trans (hFirst : Gathers left ts middle between)
    (hSecond : Gathers between middle rest places) : Gathers left ts rest places := by
  obtain ⟨first, rfl, hTaken, hBetween⟩ := hFirst
  obtain ⟨second, rfl, hMore, hPlaces⟩ := hSecond
  refine ⟨first ++ second, (List.append_assoc ..).symm, List.forall_mem_append.mpr ⟨hTaken, hMore⟩, ?_⟩
  rw [List.map_append, ← List.append_assoc]
  exact hPlaces.trans (hBetween.append_right _)

/-- What was there before stays in front. -/
theorem Gathers.after (before : List Place) (h : Gathers [] ts rest places) :
    Gathers before ts rest (before ++ places) := by
  obtain ⟨taken, hTokens, hTaken, hPlaces⟩ := h
  exact ⟨taken, hTokens, hTaken, hPlaces.append_left before⟩

/-- Taking the first token, whose place is that of a name. -/
theorem gathers_current {kind : Kind} (hKind : (current ts).kind = kind)
    (hInner : begins kind = false) : Gathers [] ts (advance ts) [(current ts).place] := by
  cases ts with
  | nil =>
      obtain rfl : Kind.endOfText = kind := hKind
      cases hInner
  | cons t rest =>
      have hHead : t.kind = kind := hKind
      have hEnd : kind ≠ .endOfText := by
        rintro rfl
        cases hInner
      rw [advance_cons hHead hEnd]
      exact ⟨[t], rfl, List.forall_mem_singleton.mpr (hHead ▸ hInner), List.Sublist.refl _⟩

/-- A reader has come from some tokens to a rest of them, with an expression that goes
on from the places given. -/
structure Read (G : Expr → Prop) (left : List Place) (ts : List Token) (found : Option Expr)
    (rest : List Token) : Prop where
  gathers : Gathers left ts rest (placesOf found)
  names : ∀ e ∈ found, G e

/-- A reader has come from some tokens to a rest of them, with arguments of a filter. -/
structure ReadAll (P W : String → Prop) (ts : List Token) (args : List Expr) (rest : List Token) :
    Prop where
  gathers : Gathers [] ts rest (placesOfAll args)
  names : Expr.SpelledAll P W args

section

variable {G H : Expr → Prop} {found last : Option Expr} {final : List Token}

theorem read_nothing (h : Gathers [] ts rest []) : Read G [] ts none rest :=
  ⟨h, fun _ hNone => by cases hNone⟩

theorem read_found {e : Expr} (hGathers : Gathers left ts rest e.places) (hNames : G e) :
    Read G left ts (some e) rest :=
  ⟨hGathers, fun _ hSome => by cases hSome; exact hNames⟩

theorem Read.passes (h : Read G left ts found rest) : Passes ts rest := h.gathers.passes

theorem Read.subset (h : Read G left ts found rest) (hTokens : ts ⊆ T) : rest ⊆ T :=
  List.Subset.trans h.passes.subset hTokens

theorem Read.of_some {e : Expr} (h : Read G left ts (some e) rest) : G e := h.names e rfl

/-- What was read first may be a part of what is read in the end. -/
theorem Read.trans {e : Expr} (hFirst : Read G left ts (some e) rest)
    (hSecond : Read H e.places rest last final) : Read H left ts last final :=
  ⟨hFirst.gathers.trans hSecond.gathers, hSecond.names⟩

theorem Read.after (hFirst : Gathers left ts middle between)
    (h : Read G between middle found rest) : Read G left ts found rest :=
  ⟨hFirst.trans h.gathers, h.names⟩

theorem ReadAll.passes {args : List Expr} (h : ReadAll P W ts args rest) : Passes ts rest :=
  h.gathers.passes

theorem ReadAll.subset {args : List Expr} (h : ReadAll P W ts args rest) (hTokens : ts ⊆ T) :
    rest ⊆ T :=
  List.Subset.trans h.passes.subset hTokens

/-- One argument and those behind it. -/
theorem ReadAll.cons {e : Expr} {args : List Expr} {behind last : List Token}
    (hFirst : Read (Expr.SpelledArg P W) [] ts (some e) rest) (hBetween : Passes rest behind)
    (hRest : ReadAll P W behind args last) : ReadAll P W ts (e :: args) last := by
  refine ⟨?_, hFirst.of_some, hRest.names⟩
  rw [placesOfAll_cons]
  exact (hFirst.gathers.trans (gathers_of_passes _ hBetween)).trans (hRest.gathers.after e.places)

end

/-- What each reader is to do with the steps given: on tokens with which names may be
written so, it comes to such names, or it is stopped. -/
structure KeepsTrack (T : List Token) (P W : String → Prop) (fuel : Nat) : Prop where
  chain (room : Nat) (chain : Chain) {ts : List Token} (hTokens : ts ⊆ T) :
    Meets (Read (Expr.Spelled P W) [] ts) room ts (readChain fuel room chain ts)
  chainTail (room : Nat) (chain : Chain) {left : Expr} {ts : List Token} (hTokens : ts ⊆ T)
    (hLeft : left.Spelled P W) :
    Meets (Read (Expr.Spelled P W) left.places ts) room ts (readChainTail fuel room chain left ts)
  operand (room : Nat) (chain : Chain) {ts : List Token} (hTokens : ts ⊆ T) :
    Meets (Read (Expr.Spelled P W) [] ts) room ts (readOperand fuel room chain ts)
  negation (room : Nat) {ts : List Token} (hTokens : ts ⊆ T) :
    Meets (Read (Expr.Spelled P W) [] ts) room ts (readNegation fuel room ts)
  comparison (room : Nat) {ts : List Token} (hTokens : ts ⊆ T) :
    Meets (Read (Expr.Spelled P W) [] ts) room ts (readComparison fuel room ts)
  filtered (room : Nat) {ts : List Token} (hTokens : ts ⊆ T) :
    Meets (Read (Expr.Spelled P W) [] ts) room ts (readFiltered fuel room ts)
  filters (room : Nat) {value : Expr} {ts : List Token} (hTokens : ts ⊆ T)
    (hValue : value.Spelled P W) :
    Meets (Read (Expr.Spelled P W) value.places ts) room ts (readFilters fuel room value ts)
  moreArgs (room : Nat) {ts : List Token} (hTokens : ts ⊆ T) :
    Meets (fun found rest => ReadAll P W ts found.2 rest) room ts (readMoreArgs fuel room ts)
  parenArgs (room : Nat) {ts behind : List Token} (hTokens : ts ⊆ T) (hPasses : Passes ts behind)
    (hLess : behind.length < ts.length) :
    Meets (ReadAll P W behind) room ts (readParenArgs fuel room behind)
  argument (room : Nat) {ts : List Token} (hTokens : ts ⊆ T) :
    Meets (Read (Expr.SpelledArg P W) [] ts) room ts (readArgument fuel room ts)
  accessed (room : Nat) (prefixed : Bool) {ts : List Token} (hTokens : ts ⊆ T) :
    Meets (Read (Expr.Spelled P W) [] ts) room ts (readPostfix fuel room prefixed ts)
  access (room : Nat) {e : Expr} {ts : List Token} (hTokens : ts ⊆ T) (hNames : e.Spelled P W) :
    Meets (Read (Expr.Spelled P W) e.places ts) room ts (readAccess fuel room e ts)
  primary (room : Nat) (prefixed : Bool) {ts : List Token} (hTokens : ts ⊆ T) :
    Meets (Read (Expr.Spelled P W) [] ts) room ts (readPrimary fuel room prefixed ts)

namespace KeepsTrack

variable {fuel : Nat} (h : KeepsTrack T P W fuel) (room : Nat)
include h

/-- Each reader with one step more meets its specification if all do with one step less:
here the reader of a chain of operators. -/
theorem chain_succ (chain : Chain) (hTokens : ts ⊆ T) :
    Meets (Read (Expr.Spelled P W) [] ts) room ts (readChain (fuel + 1) room chain ts) := by
  rw [readChain]
  refine (h.operand room chain hTokens).bind (fun _ _ => Read.passes) fun found rest hFound => ?_
  cases found with
  | none => exact hFound
  | some left =>
      exact (h.chainTail room chain (hFound.subset hTokens) hFound.of_some).imp fun _ _ => hFound.trans

/-- The step for the rest of a chain, behind what was read of it. -/
theorem chainTail_succ (chain : Chain) {left : Expr} (hTokens : ts ⊆ T)
    (hLeft : left.Spelled P W) :
    Meets (Read (Expr.Spelled P W) left.places ts) room ts
      (readChainTail (fuel + 1) room chain left ts) := by
  rw [readChainTail]
  split
  · next hOperator =>
    have hToken : begins chain.token = false := by cases chain <;> rfl
    have hPasses : Passes ts (advance ts) := passes_of_at? hOperator hToken
    have hBehind : advance ts ⊆ T := List.Subset.trans hPasses.subset hTokens
    refine Meets.behind hPasses
      ((h.operand room chain hBehind).bind (fun _ _ => Read.passes) fun found rest hFound => ?_)
    cases found with
    | none =>
        have hMissing : chain.missing.aboutBlocks = false := by cases chain <;> rfl
        exact meets_fail hMissing _ rest
    | some right =>
        have hGathers := (gathers_of_passes left.places hPasses).trans (hFound.gathers.after left.places)
        refine Meets.imp (h.chainTail room chain (hFound.subset hBehind) ?_) fun _ _ => Read.after ?_
        · exact ⟨hLeft, hFound.of_some⟩
        · rwa [places_binary]
  · exact read_found (gathers_of_passes _ (.refl ts)) hLeft

/-- The step for an operand, which is a chain of the next operator or a negation. -/
theorem operand_succ (chain : Chain) (hTokens : ts ⊆ T) :
    Meets (Read (Expr.Spelled P W) [] ts) room ts (readOperand (fuel + 1) room chain ts) := by
  cases chain with
  | fallback =>
      rw [readOperand]
      exact h.chain room .or hTokens
  | or =>
      rw [readOperand]
      exact h.chain room .and hTokens
  | and =>
      rw [readOperand]
      exact h.negation room hTokens

/-- The step for a negation. It goes deeper, and there may be no room left for that. -/
theorem negation_succ (hTokens : ts ⊆ T) :
    Meets (Read (Expr.Spelled P W) [] ts) room ts (readNegation (fuel + 1) room ts) := by
  rw [readNegation]
  split
  · next hNot =>
    have hPasses : Passes ts (advance ts) := passes_of_at? hNot rfl
    refine meets_within hPasses (length_advance_lt (eq_of_beq hNot) rfl) (.refl ts)
      (fun inner => h.negation inner (List.Subset.trans hPasses.subset hTokens))
      (fun _ _ => Read.passes) fun found rest hFound => ?_
    cases found with
    | none => exact meets_fail rfl _ rest
    | some argument =>
        refine read_found ?_ hFound.of_some
        rw [places_not]
        exact (gathers_of_passes [] hPasses).trans hFound.gathers
  · exact h.comparison room hTokens

/-- The step for a comparison of two filtered expressions. -/
theorem comparison_succ (hTokens : ts ⊆ T) :
    Meets (Read (Expr.Spelled P W) [] ts) room ts (readComparison (fuel + 1) room ts) := by
  rw [readComparison]
  refine (h.filtered room hTokens).bind (fun _ _ => Read.passes) fun found rest hLeft => ?_
  cases found with
  | none => exact hLeft
  | some left =>
      dsimp only
      split
      · exact hLeft
      · next hOperator =>
        have hPasses : Passes rest (advance rest) := passes_advance (begins_of_comparison? hOperator)
        have hBehind : advance rest ⊆ T :=
          List.Subset.trans hPasses.subset (hLeft.subset hTokens)
        refine Meets.behind hPasses
          ((h.filtered room hBehind).bind (fun _ _ => Read.passes) fun found last hRight => ?_)
        cases found with
        | none => exact meets_fail rfl _ last
        | some right =>
            refine read_found ?_ ⟨hLeft.of_some, hRight.of_some⟩
            rw [places_binary]
            exact (hLeft.gathers.trans (gathers_of_passes _ hPasses)).trans (hRight.gathers.after _)

/-- The step for an expression and its filters. -/
theorem filtered_succ (hTokens : ts ⊆ T) :
    Meets (Read (Expr.Spelled P W) [] ts) room ts (readFiltered (fuel + 1) room ts) := by
  rw [readFiltered]
  refine (h.accessed room true hTokens).bind (fun _ _ => Read.passes) fun found rest hFound => ?_
  cases found with
  | none => exact hFound
  | some value =>
      exact (h.filters room (hFound.subset hTokens) hFound.of_some).imp fun _ _ => hFound.trans

/-- A filter with its arguments, and the filters behind it. -/
theorem filters_behind {value : Expr} {name : String} {args : List Expr}
    {separators : List Separator} {parenthesized : Bool} {place : Place} {middle : List Token}
    (hTokens : middle ⊆ T) (hValue : value.Spelled P W) (hName : P name)
    (hGathers : Gathers [] ts middle (placesOfAll args)) (hArgs : Expr.SpelledAll P W args) :
    Meets (Read (Expr.Spelled P W) value.places ts) room middle
      (readFilters fuel room (.filter value name args separators parenthesized place) middle) := by
  refine Meets.imp (h.filters room hTokens ?_) fun _ _ => Read.after ?_
  · exact ⟨hValue, hName, hArgs⟩
  · rw [places_filter]
    exact hGathers.after value.places

/-- The step for one filter more. -/
theorem filters_succ (hSpelling : Spelling T P W) {value : Expr} (hTokens : ts ⊆ T)
    (hValue : value.Spelled P W) :
    Meets (Read (Expr.Spelled P W) value.places ts) room ts (readFilters (fuel + 1) room value ts) := by
  rw [readFilters]
  split
  · next hPipe =>
    have hBar : Passes ts (advance ts) := passes_of_at? hPipe rfl
    have hBehindBar : advance ts ⊆ T := List.Subset.trans hBar.subset hTokens
    dsimp only
    split
    · exact Meets.behind hBar (meets_fail rfl _ _)
    · next hKind =>
      have hKind := Decidable.not_not.mp hKind
      have hName : P (current (advance ts)).value :=
        hSpelling.name _ (current_mem hBehindBar hKind (by decide)) hKind
      have hWord : Passes ts (advance (advance ts)) := hBar.trans (passes_of_kind hKind rfl)
      split
      · next hColon =>
        have hMark : Passes ts (advance (advance (advance ts))) :=
          hWord.trans (passes_of_at? hColon rfl)
        have hBehind := List.Subset.trans hMark.subset hTokens
        split
        · next hParen =>
          have hOpen := hMark.trans (passes_of_at? hParen rfl)
          have hLess := Nat.lt_of_lt_of_le (length_advance_lt (eq_of_beq hParen) rfl)
            hMark.length_le
          refine Meets.bind (h.parenArgs room hTokens hOpen hLess)
            (fun _ _ hArgs => hOpen.trans hArgs.passes) fun args rest hArgs => ?_
          have hRest := List.Subset.trans hArgs.passes.subset
            (List.Subset.trans hOpen.subset hTokens)
          refine Meets.bind (expect_stays rfl rfl rest) (fun _ _ => id) fun _ last hClose => ?_
          exact h.filters_behind room (List.Subset.trans hClose.subset hRest) hValue hName
            (((gathers_of_passes [] hOpen).trans hArgs.gathers).trans (gathers_of_passes _ hClose))
            hArgs.names
        · refine Meets.behind hMark
            ((h.argument room hBehind).bind (fun _ _ => Read.passes) fun found rest hFirst => ?_)
          cases found with
          | none =>
              exact h.filters_behind room (hFirst.subset hBehind) hValue hName
                ((gathers_of_passes [] hMark).trans hFirst.gathers) trivial
          | some first =>
              refine (h.moreArgs room (hFirst.subset hBehind)).bind (fun _ _ => ReadAll.passes)
                fun more last hMore => ?_
              have hArgs := ReadAll.cons hFirst (.refl rest) hMore
              exact h.filters_behind room (hArgs.subset hBehind) hValue hName
                ((gathers_of_passes [] hMark).trans hArgs.gathers) hArgs.names
      · exact Meets.behind hWord (h.filters_behind room (List.Subset.trans hWord.subset hTokens)
          hValue hName (gathers_of_passes [] hWord) trivial)
  · exact read_found (gathers_of_passes _ (.refl ts)) hValue

/-- The step for one argument more. -/
theorem moreArgs_succ (hTokens : ts ⊆ T) :
    Meets (fun found rest => ReadAll P W ts found.2 rest) room ts (readMoreArgs (fuel + 1) room ts) := by
  rw [readMoreArgs]
  split
  · exact ⟨gathers_of_passes [] (.refl ts), trivial⟩
  · next hSeparator =>
    have hPasses : Passes ts (advance ts) := passes_advance (begins_of_separator? hSeparator)
    have hBehind := List.Subset.trans hPasses.subset hTokens
    refine Meets.behind hPasses
      ((h.argument room hBehind).bind (fun _ _ => Read.passes) fun found rest hFirst => ?_)
    cases found with
    | none => exact meets_fail rfl _ rest
    | some arg =>
        refine (h.moreArgs room (hFirst.subset hBehind)).bind (fun _ _ => ReadAll.passes)
          fun more last hMore => ?_
        exact ReadAll.cons (Read.after (gathers_of_passes [] hPasses) hFirst) (.refl rest) hMore

/-- Each argument is an expression inside of the one whose parenthesis stands in front. -/
theorem parenArgs_succ {behind : List Token} (hTokens : ts ⊆ T) (hPasses : Passes ts behind)
    (hLess : behind.length < ts.length) :
    Meets (ReadAll P W behind) room ts (readParenArgs (fuel + 1) room behind) := by
  have hBehind := List.Subset.trans hPasses.subset hTokens
  rw [readParenArgs]
  split
  · exact ⟨gathers_of_passes [] (.refl behind), trivial⟩
  · refine meets_within hPasses hLess hPasses (fun inner => h.chain inner .or hBehind)
      (fun _ _ => Read.passes) fun found rest hFirst => ?_
    cases found with
    | none => exact ⟨hFirst.gathers, trivial⟩
    | some arg =>
        have hArg : Read (Expr.SpelledArg P W) [] behind (some arg) rest :=
          read_found hFirst.gathers (.inl hFirst.of_some)
        dsimp only
        split
        · next hComma =>
          have hNext : Passes rest (advance rest) := passes_of_at? hComma rfl
          have hShorter := length_advance_lt (eq_of_beq hComma) rfl
          exact Meets.bind (h.parenArgs room (hFirst.subset hBehind) hNext hShorter)
            (fun _ _ hArgs => hNext.trans hArgs.passes) fun args last => ReadAll.cons hArg hNext
        · exact ReadAll.cons hArg (.refl rest) ⟨gathers_of_passes [] (.refl rest), trivial⟩

/-- The step for an argument, which may be a bare word. -/
theorem argument_succ (hSpelling : Spelling T P W) (hTokens : ts ⊆ T) :
    Meets (Read (Expr.SpelledArg P W) [] ts) room ts (readArgument (fuel + 1) room ts) := by
  have hPrimary : Meets (Read (Expr.SpelledArg P W) [] ts) room ts (readPostfix fuel room false ts) :=
    (h.accessed room false hTokens).imp fun _ _ hRead =>
      ⟨hRead.gathers, fun e hFound => .inl (hRead.names e hFound)⟩
  cases ts with
  | nil =>
      rw [readArgument]
      exact hPrimary
  | cons first later =>
      simp only [readArgument]
      split
      · exact hPrimary
      · next run behind hSome hRun =>
        have hAll := gluedRun_append first later
        have hPasses := gluedRun_passes first later
        have hParts := gluedRun_isWordPart first later
        rw [hRun] at hAll hParts hPasses
        obtain hParts := hParts.resolve_left hSome
        have hWords : first :: run ⊆ T := by
          refine List.Subset.trans (List.cons_subset_cons first ?_) hTokens
          exact hAll ▸ List.subset_append_left run behind
        refine read_found ⟨first :: run, by rw [List.cons_append, ← hAll],
          fun t hMem => begins_of_isWordPart (hParts t hMem), ?_⟩
          (.inr ⟨_, _, rfl, hSpelling.word first run hWords hParts⟩)
        rw [places_identifier]
        exact (List.nil_sublist _).cons_cons _

/-- The step for a primary expression and what follows it. -/
theorem accessed_succ (prefixed : Bool) (hTokens : ts ⊆ T) :
    Meets (Read (Expr.Spelled P W) [] ts) room ts (readPostfix (fuel + 1) room prefixed ts) := by
  rw [readPostfix]
  refine (h.primary room prefixed hTokens).bind (fun _ _ => Read.passes) fun found rest hFound => ?_
  cases found with
  | none => exact hFound
  | some e =>
      exact (h.access room (hFound.subset hTokens) hFound.of_some).imp fun _ _ => hFound.trans

/-- The step for one access more. -/
theorem access_succ (hSpelling : Spelling T P W) {e : Expr} (hTokens : ts ⊆ T)
    (hNames : e.Spelled P W) :
    Meets (Read (Expr.Spelled P W) e.places ts) room ts (readAccess (fuel + 1) room e ts) := by
  rw [readAccess]
  split
  · next hBracket =>
    have hPasses : Passes ts (advance ts) := passes_of_at? hBracket rfl
    have hBehind := List.Subset.trans hPasses.subset hTokens
    dsimp only
    split
    · exact Meets.behind hPasses (meets_fail rfl _ _)
    · -- The room inside of the brackets is not that behind them.
      refine meets_within hPasses (length_advance_lt (eq_of_beq hBracket) rfl) hPasses
        (fun inner => h.chain inner .fallback hBehind) (fun _ _ => Read.passes) fun found rest hKey => ?_
      cases found with
      | none => exact meets_fail rfl _ rest
      | some key =>
          refine Meets.bind (expect_stays rfl rfl rest) (fun _ _ => id) fun _ last hClose => ?_
          have hLast := List.Subset.trans hClose.subset (hKey.subset hBehind)
          refine Meets.imp (h.access room hLast ?_) fun _ _ => Read.after ?_
          · exact ⟨hNames, hKey.of_some⟩
          · rw [places_index]
            exact ((gathers_of_passes _ hPasses).trans (hKey.gathers.after _)).trans
              (gathers_of_passes _ hClose)
  · split
    · next hDot =>
      rw [Bool.and_eq_true] at hDot
      have hPasses : Passes ts (advance ts) := passes_of_at? hDot.1 rfl
      have hBehind := List.Subset.trans hPasses.subset hTokens
      have hKind : (current (advance ts)).kind = .identifier :=
        current_advance_of_second (eq_of_beq hDot.1) (eq_of_beq hDot.2) Kind.noConfusion
          Kind.noConfusion
      have hBoth := hPasses.trans (passes_of_kind hKind rfl)
      have hMember := hSpelling.name _ (current_mem hBehind hKind (by decide)) hKind
      have hLast := List.Subset.trans hBoth.subset hTokens
      refine Meets.behind hBoth (Meets.imp (h.access room hLast ?_) fun _ _ => Read.after ?_)
      · exact ⟨hNames, hMember⟩
      · rw [places_member]
        exact gathers_of_passes _ hBoth
    · exact read_found (gathers_of_passes _ (.refl ts)) hNames

/-- The step for a primary expression. Parentheses go deeper. -/
theorem primary_succ (hSpelling : Spelling T P W) (prefixed : Bool) (hTokens : ts ⊆ T) :
    Meets (Read (Expr.Spelled P W) [] ts) room ts (readPrimary (fuel + 1) room prefixed ts) := by
  have hLiteral {kind : Kind} (hKind : (current ts).kind = kind) (hInner : begins kind = false)
      (l : Literal) :
      Read (Expr.Spelled P W) [] ts (some (.literal l (current ts).place)) (advance ts) :=
    read_found (gathers_of_passes [] (passes_of_kind hKind hInner)) trivial
  rw [readPrimary]
  dsimp only
  split
  · next hParen =>
    have hPasses : Passes ts (advance ts) := passes_of_kind hParen rfl
    have hBehind := List.Subset.trans hPasses.subset hTokens
    split
    · exact Meets.behind hPasses (meets_fail rfl _ _)
    · refine meets_within hPasses (length_advance_lt hParen rfl) hPasses
        (fun inner => h.chain inner .fallback hBehind) (fun _ _ => Read.passes) fun found rest hInner => ?_
      cases found with
      | none => exact meets_fail rfl _ rest
      | some inner =>
          refine Meets.bind (expect_stays rfl rfl rest) (fun _ _ => id) fun _ last hClose => ?_
          refine read_found ?_ hInner.of_some
          rw [places_group]
          exact ((gathers_of_passes [] hPasses).trans hInner.gathers).trans
            (gathers_of_passes _ hClose)
  · next hKind => exact hLiteral hKind rfl _
  · next hKind => exact meets_number hKind fun l => hLiteral hKind rfl l
  · next hKind => exact hLiteral hKind rfl _
  · next hKind => exact hLiteral hKind rfl _
  · next hKind =>
    have hMem := current_mem hTokens hKind (by decide)
    have hFirst := gathers_current hKind rfl
    split
    · next hColon =>
      rw [Bool.and_eq_true, Bool.and_eq_true] at hColon
      have hPasses := passes_of_at? hColon.1.2 rfl
      have hName := hPasses.trans (prefixedName_passes ((current ts).value ++ ":")
        (current (advance ts)) (advance (advance ts)))
      have hBehind := List.Subset.trans (hFirst.passes.trans hPasses).subset hTokens
      refine read_found ?_ (hSpelling.prefixed _ hMem hKind _ _ hBehind)
      rw [places_identifier]
      exact hFirst.trans (gathers_of_passes _ hName)
    · refine read_found ?_ (hSpelling.name _ hMem hKind)
      rwa [places_identifier]
  · exact meets_fail (unexpected_aboutBlocks _) _ ts
  · exact meets_fail (unexpected_aboutBlocks _) _ ts
  · exact read_nothing (gathers_of_passes [] (.refl ts))

end KeepsTrack

/-- Every reader keeps track of tokens, places and names, whatever its steps. -/
theorem keepsTrack (hSpelling : Spelling T P W) (fuel : Nat) : KeepsTrack T P W fuel := by
  have hBlameless : Mistake.tooDeep.aboutBlocks = false := rfl
  induction fuel with
  | zero =>
      constructor
      case argument =>
        intro room ts hTokens
        rw [readArgument]
        exact meets_fail hBlameless _ ts
      case parenArgs =>
        intro room ts behind hTokens hPasses hLess
        exact Meets.behind hPasses (meets_fail hBlameless _ behind)
      all_goals
        intros
        exact meets_fail hBlameless _ _
  | succ fuel ih =>
      exact {
        chain := fun room chain _ => ih.chain_succ room chain
        chainTail := fun room chain _ _ => ih.chainTail_succ room chain
        operand := fun room chain _ => ih.operand_succ room chain
        negation := fun room _ => ih.negation_succ room
        comparison := fun room _ => ih.comparison_succ room
        filtered := fun room _ => ih.filtered_succ room
        filters := fun room _ _ => ih.filters_succ room hSpelling
        moreArgs := fun room _ => ih.moreArgs_succ room
        parenArgs := fun room _ _ => ih.parenArgs_succ room
        argument := fun room _ => ih.argument_succ room hSpelling
        accessed := fun room prefixed _ => ih.accessed_succ room prefixed
        access := fun room _ _ => ih.access_succ room hSpelling
        primary := fun room prefixed _ => ih.primary_succ room hSpelling prefixed }

/-- What reading an expression comes to. -/
theorem readExpr_meets (hSpelling : Spelling T P W) (room : Nat) (hTokens : ts ⊆ T) :
    Meets (Read (Expr.Spelled P W) [] ts) room ts (readExpr room ts) :=
  (keepsTrack hSpelling _).chain room .fallback hTokens

/-- Nothing in particular holds of all names. -/
theorem spelling_true (T : List Token) : Spelling T (fun _ => True) fun _ => True :=
  ⟨fun _ _ _ => trivial, fun _ _ _ _ _ _ => trivial, fun _ _ _ _ => trivial⟩

theorem readExpr_stays (room : Nat) (ts : List Token) : Stays room ts (readExpr room ts) :=
  (readExpr_meets (spelling_true ts) room (List.Subset.refl ts)).imp fun _ _ => Read.passes

theorem spelled_of_readExpr (hSpelling : Spelling T P W) {room : Nat} {e : Expr} (hTokens : ts ⊆ T)
    (h : readExpr room ts = .ok (some e, rest)) : e.Spelled P W :=
  ((readExpr_meets hSpelling room hTokens).of_ok h).of_some

end Tokens

namespace Node

open Tokens Token

/-! The constructs, each behind the tokens that it is recognized by. -/

/-- Reading an expression to print takes no token that begins something else. -/
theorem readVariable_stays (room : Nat) (ts : List Token) :
    Stays room (advance ts) (readVariable room ts) := by
  rw [readVariable]
  dsimp only
  split
  · exact meets_fail rfl _ _
  · refine (readExpr_stays room _).bind fun found rest => ?_
    cases found with
    | none =>
        dsimp only
        split
        · exact meets_fail (unexpected_aboutBlocks _) _ rest
        · exact meets_fail rfl _ rest
    | some e =>
        dsimp only
        split
        · exact meets_fail rfl _ rest
        · exact (expectEnd_stays rfl rfl rest).bind fun _ last => Passes.refl last

/-- Reading an assignment takes no token that begins something else. -/
theorem readAssign_stays (room : Nat) (ts : List Token) :
    Stays room (advance (advance ts)) (readAssign room ts) := by
  rw [readAssign]
  dsimp only
  split
  · exact meets_fail rfl _ _
  · next hTarget =>
    refine Stays.behind (passes_of_at? (by simpa using hTarget) rfl) ?_
    split
    · exact meets_fail rfl _ _
    · next hAssign =>
      refine Stays.behind (passes_of_at? (by simpa using hAssign) rfl) ?_
      refine (readExpr_stays room _).bind fun found rest => ?_
      cases found with
      | none => exact meets_fail rfl _ rest
      | some value => exact (expectEnd_stays rfl rfl rest).bind fun _ last => Passes.refl last

theorem readCondition_stays (room : Nat) (word : String) (blame : Token) (ts : List Token) :
    Stays room ts (readCondition room word blame ts) := by
  rw [readCondition]
  refine (readExpr_stays room ts).bind fun found rest => ?_
  cases found with
  | none => exact meets_fail rfl _ rest
  | some condition => exact (expectEnd_stays rfl rfl rest).bind fun _ last => Passes.refl last

/-- Reading the head of a loop takes no token that begins something else. -/
theorem readLoopHead_stays (room : Nat) (ts : List Token) :
    Stays room (advance (advance ts)) (readLoopHead room ts) := by
  rw [readLoopHead]
  dsimp only
  split
  · exact meets_fail rfl _ _
  · next hIterator =>
    refine Stays.behind (passes_of_at? (by simpa using hIterator) rfl) ?_
    split
    · exact meets_fail rfl _ _
    · next hIn =>
      refine Stays.behind (passes_of_at? (by simpa using hIn) rfl) ?_
      refine (readExpr_stays room _).bind fun found rest => ?_
      cases found with
      | none => exact meets_fail rfl _ rest
      | some iterable => exact (expectEnd_stays rfl rfl rest).bind fun _ last => Passes.refl last

theorem readClosingTag_stays (source : Source) (word : String) (close : Nat) :
    Stays source.room (advance (advance (source.tokensFrom close))) (readClosingTag source word close) :=
  expectEnd_stays rfl rfl _

/-- Skipping an expression passes no token that begins something else. -/
theorem skipVariable_passes (ts : List Token) : Passes ts (skipVariable ts) := by
  induction ts with
  | nil => exact .refl []
  | cons t rest ih =>
      rw [skipVariable]
      split
      · exact .refl _
      · exact .refl _
      · exact .refl _
      · exact .refl _
      · next hEnd => exact passes_cons (by rw [hEnd]; rfl) rest
      · next hEnd hText hVariable hTag _ =>
        exact (passes_cons (begins_eq_false hVariable hTag hEnd) rest).trans ih

/-- Skipping the rest of a tag passes no token that begins something else. -/
theorem skipTagRest_passes (ts : List Token) : Passes ts (skipTagRest ts) := by
  induction ts with
  | nil => exact .refl []
  | cons t rest ih =>
      rw [skipTagRest]
      split
      · exact .refl _
      · exact .refl _
      · exact .refl _
      · exact .refl _
      · next hEnd => exact passes_cons (by rw [hEnd]; rfl) rest
      · next hEnd hText hVariable hTag _ =>
        exact (passes_cons (begins_eq_false hVariable hTag hEnd) rest).trans ih

end Node

end NoteTemplate
