import NoteTemplate.Node.OfTokens

/-! What a reader does when it reads an expression, the rest of a tag, or what is
left of one that is broken off. It never goes past a token that a construct
begins with, nor past the end of the text. What it finds wrong is no matter of
blocks, and only a number or the nesting of expressions can be at fault. -/
namespace NoteTemplate

open Tokens Token

/-- Whether a mistake is about which tags belong together. -/
def Mistake.aboutBlocks : Mistake → Bool
  | blocksTooDeep _ | strayTag _ | unclosedBlock _ _ | unbalancedBody => true
  | _ => false

namespace Tokens

/-- Whether a construct begins with a kind of token, or nothing follows it. -/
def begins (kind : Kind) : Bool :=
  kind == .variableStart || kind == .tagStart || kind == .endOfText

theorem begins_eq_false {kind : Kind} (hVariable : kind ≠ .variableStart)
    (hTag : kind ≠ .tagStart) (hEnd : kind ≠ .endOfText) : begins kind = false := by
  rw [begins, beq_false_of_ne hVariable, beq_false_of_ne hTag, beq_false_of_ne hEnd]
  rfl

/-- Going from a list of tokens to a rest of it, past tokens with which nothing
begins. -/
def Passes (ts rest : List Token) : Prop :=
  ∃ taken, ts = taken ++ rest ∧ ∀ t ∈ taken, begins t.kind = false

variable {ts middle rest : List Token}

theorem Passes.refl (ts : List Token) : Passes ts ts := ⟨[], rfl, by simp⟩

theorem Passes.trans (hFirst : Passes ts middle) (hSecond : Passes middle rest) :
    Passes ts rest := by
  obtain ⟨first, rfl, hTaken⟩ := hFirst
  obtain ⟨second, rfl, hMore⟩ := hSecond
  exact ⟨first ++ second, (List.append_assoc ..).symm, List.forall_mem_append.mpr ⟨hTaken, hMore⟩⟩

theorem Passes.subset (h : Passes ts rest) : rest ⊆ ts := by
  obtain ⟨taken, rfl, -⟩ := h
  exact List.subset_append_right taken rest

theorem Passes.length_le (h : Passes ts rest) : rest.length ≤ ts.length := by
  obtain ⟨taken, rfl, -⟩ := h
  rw [List.length_append]
  exact Nat.le_add_left _ _

/-- Passing a token of an inner kind shortens the list. -/
theorem length_advance_lt {kind : Kind} (hKind : (current ts).kind = kind)
    (hInner : begins kind = false) : (advance ts).length < ts.length := by
  cases ts with
  | nil =>
      obtain rfl : Kind.endOfText = kind := hKind
      cases hInner
  | cons t rest =>
      have hEnd : kind ≠ .endOfText := by
        rintro rfl
        cases hInner
      rw [advance_cons (show t.kind = kind from hKind) hEnd]
      exact Nat.lt_succ_self _

theorem passes_cons {t : Token} (h : begins t.kind = false) (rest : List Token) :
    Passes (t :: rest) rest :=
  ⟨[t], rfl, List.forall_mem_singleton.mpr h⟩

/-- A token that begins nothing else can be passed. -/
theorem passes_advance (h : begins (current ts).kind = false) : Passes ts (advance ts) := by
  cases ts with
  | nil => exact .refl []
  | cons t rest =>
      rw [advance]
      split
      · exact .refl _
      · exact passes_cons h rest

theorem passes_of_kind {kind : Kind} (h : (current ts).kind = kind) (hKind : begins kind = false) :
    Passes ts (advance ts) :=
  passes_advance (by rw [h]; exact hKind)

theorem passes_of_at? {kind : Kind} (h : at? ts kind = true) (hKind : begins kind = false) :
    Passes ts (advance ts) :=
  passes_of_kind (eq_of_beq h) hKind

/-- A second token of another kind than the first one is there, and becomes the
first one. -/
theorem current_advance_of_second {first second : Kind} (hFirst : (current ts).kind = first)
    (hSecond : (Tokens.second ts).kind = second) (hInner : first ≠ .endOfText)
    (hOther : first ≠ second) : (current (advance ts)).kind = second := by
  match ts with
  | [] => exact absurd hFirst.symm hInner
  | [t] => exact absurd (hFirst.symm.trans hSecond) hOther
  | t :: next :: rest =>
      have hMore : t.kind ≠ .endOfText := fun hEnd => hInner (hFirst.symm.trans hEnd)
      rw [advance, if_neg hMore]
      exact hSecond

/-- What may be at fault with tokens: there are more of them than there is room, or one
of them writes a number that cannot be read. -/
def Blamed (room : Nat) (ts : List Token) (f : Fault) : Prop :=
  (f = .nestedTooDeeply ∧ room < ts.length) ∨
    ∃ t ∈ ts, t.kind = .number ∧ numberLiteral t.value = .error f

/-- What may stop a reader: a mistake that is not about blocks, or a fault. -/
def Excused (room : Nat) (ts : List Token) : Cause → Prop
  | .mistake e => e.mistake.aboutBlocks = false
  | .fault f => Blamed room ts f

variable {α β : Type} {good other : α → List Token → Prop} {act : Except Failure (Found α)}
  {room : Nat}

/-- A reader comes to a good result, or it is stopped in front of what begins next. -/
def Meets (good : α → List Token → Prop) (room : Nat) (ts : List Token) :
    Except Failure (Found α) → Prop
  | .ok (a, rest) => good a rest
  | .error f => Passes ts f.rest ∧ Excused room ts f.cause

/-- A reader stays in front of what begins next. -/
abbrev Stays (room : Nat) (ts : List Token) : Except Failure (Found α) → Prop :=
  Meets (fun _ rest => Passes ts rest) room ts

theorem meets_fail {mistake : Mistake} (h : mistake.aboutBlocks = false) (token : Token)
    (ts : List Token) : Meets good room ts (fail mistake token ts : Except Failure (Found α)) :=
  ⟨.refl ts, h⟩

theorem Meets.of_ok {a : α} (h : Meets good room ts act) (hRead : act = .ok (a, rest)) :
    good a rest := by
  rw [hRead] at h
  exact h

theorem Meets.of_error {f : Failure} (h : Meets good room ts act) (hRead : act = .error f) :
    Passes ts f.rest ∧ Excused room ts f.cause := by
  rw [hRead] at h
  exact h

theorem Meets.imp (h : Meets good room ts act) (hGood : ∀ a rest, good a rest → other a rest) :
    Meets other room ts act := by
  cases act with
  | ok found => exact hGood _ _ h
  | error f => exact h

/-- Going past the end of the text does nothing. -/
theorem advance_suffix (ts : List Token) : advance ts <:+ ts := by
  cases ts with
  | nil => exact List.suffix_refl []
  | cons t rest =>
      rw [advance]
      split
      · exact List.suffix_refl _
      · exact List.suffix_cons t rest

/-- What is at fault with fewer tokens and no more room is at fault. -/
theorem Blamed.mono {inner : Nat} {f : Fault} (hTokens : middle ⊆ ts)
    (hRoom : room + middle.length ≤ inner + ts.length) (h : Blamed inner middle f) :
    Blamed room ts f := by
  rcases h with ⟨rfl, hLess⟩ | ⟨t, hMem, hNumber⟩
  · exact .inl ⟨rfl, by omega⟩
  · exact .inr ⟨t, hTokens hMem, hNumber⟩

/-- What stops a reader of fewer tokens with no more room stops one of all of them. -/
theorem Excused.mono {inner : Nat} {c : Cause} (hTokens : middle ⊆ ts)
    (hRoom : room + middle.length ≤ inner + ts.length) (h : Excused inner middle c) :
    Excused room ts c := by
  cases c with
  | mistake e => exact h
  | fault f => exact Blamed.mono hTokens hRoom h

theorem Excused.of_suffix {c : Cause} (hSuffix : middle <:+ ts) (h : Excused room middle c) :
    Excused room ts c :=
  h.mono hSuffix.subset (Nat.add_le_add_left hSuffix.length_le room)

/-- What a reader does behind tokens that it may go past, each of which may open an
expression inside of the one it reads. -/
theorem Meets.inside {inner : Nat} (hFirst : Passes ts middle)
    (hRoom : room + middle.length ≤ inner + ts.length) (h : Meets good inner middle act) :
    Meets good room ts act := by
  cases act with
  | ok found => exact h
  | error f => exact ⟨hFirst.trans h.1, h.2.mono hFirst.subset hRoom⟩

/-- What a reader does behind tokens that it may go past. -/
theorem Meets.behind (hFirst : Passes ts middle) (h : Meets good room middle act) :
    Meets good room ts act :=
  h.inside hFirst (Nat.add_le_add_left hFirst.length_le room)

theorem Meets.bind {next : Found α → Except Failure (Found β)} {good' : β → List Token → Prop}
    (hAct : Meets good room ts act) (hPasses : ∀ a rest, good a rest → Passes ts rest)
    (hNext : ∀ a rest, good a rest → Meets good' room rest (next (a, rest))) :
    Meets good' room ts (act >>= next) := by
  cases act with
  | ok found => exact (hNext _ _ hAct).behind (hPasses _ _ hAct)
  | error f => exact hAct

theorem Stays.behind (hFirst : Passes ts middle) (h : Stays room middle act) : Stays room ts act :=
  Meets.behind hFirst (h.imp fun _ _ hPasses => hFirst.trans hPasses)

theorem Stays.bind {next : Found α → Except Failure (Found β)} (hAct : Stays room ts act)
    (hNext : ∀ a rest, Stays room rest (next (a, rest))) : Stays room ts (act >>= next) :=
  Meets.bind hAct (fun _ _ => id) fun a rest hPasses =>
    (hNext a rest).imp fun _ _ hLater => hPasses.trans hLater

/-- Going on inside of an expression behind at least one of its tokens, and then behind
what is inside. The room is less inside only. -/
theorem meets_within {read : Nat → Except Failure (Found α)}
    {next : Found α → Except Failure (Found β)} {good' : β → List Token → Prop}
    (hFirst : Passes ts middle) (hLess : middle.length < ts.length) (hRest : Passes ts rest)
    (hRead : ∀ inner, Meets good inner middle (read inner))
    (hPasses : ∀ a rest, good a rest → Passes middle rest)
    (hNext : ∀ a rest, good a rest → Meets good' room rest (next (a, rest))) :
    Meets good' room ts (deeper room rest >>= fun inner => read inner >>= next) := by
  cases room with
  | zero => exact ⟨hRest, .inl ⟨rfl, by omega⟩⟩
  | succ inner =>
      have hInside : Meets good (inner + 1) ts (read inner) := (hRead inner).inside hFirst (by omega)
      exact Meets.bind hInside (fun a rest hGood => hFirst.trans (hPasses a rest hGood)) hNext

/-- A number is read, or it is at fault for its length. -/
theorem meets_number {next : Literal → Except Failure (Found α)} (hKind : (current ts).kind = .number)
    (h : ∀ l, Meets good room ts (next l)) :
    Meets good room ts (orFault (numberLiteral (current ts).value) ts >>= next) := by
  cases ts with
  | nil => cases hKind
  | cons t rest =>
      cases hNumber : numberLiteral (current (t :: rest)).value with
      | ok l => exact h l
      | error f => exact ⟨.refl _, .inr ⟨t, List.mem_cons_self, hKind, hNumber⟩⟩

theorem unexpected_aboutBlocks (token : Token) : (unexpected token).aboutBlocks = false := by
  unfold unexpected
  split <;> rfl

theorem expect_stays {kind : Kind} (hKind : begins kind = false) {mistake : Mistake}
    (hMistake : mistake.aboutBlocks = false) (ts : List Token) :
    Stays room ts (expect kind mistake ts) := by
  rw [expect]
  split
  · next h => exact passes_of_at? h hKind
  · exact meets_fail hMistake _ ts

theorem expectEnd_stays {kind : Kind} (hKind : begins kind = false) {mistake : Mistake}
    (hMistake : mistake.aboutBlocks = false) (ts : List Token) :
    Stays room ts (expectEnd kind mistake ts) := by
  rw [expectEnd]
  split
  · exact meets_fail (unexpected_aboutBlocks _) _ ts
  · exact expect_stays hKind hMistake ts

/-! The tokens that make up a word or a name. -/

theorem begins_of_isWordPart {kind : Kind} (h : isWordPart kind = true) : begins kind = false := by
  cases kind <;> first | rfl | cases h

/-- A bare word takes no token that begins something else. -/
theorem gluedRun_passes (first : Token) (ts : List Token) :
    Passes ts (gluedRun first ts).2 := by
  induction ts generalizing first with
  | nil => exact .refl []
  | cons t rest ih =>
      rw [gluedRun]
      split
      · next hGlued =>
        rw [glued, Bool.and_eq_true, Bool.and_eq_true] at hGlued
        exact (passes_cons (begins_of_isWordPart hGlued.1.2) rest).trans (ih t)
      · exact .refl _

theorem begins_of_isNamePart {t : Token} (h : isNamePart t = true) : begins t.kind = false := by
  unfold isNamePart at h
  cases hKind : t.kind <;> first | rfl | simp [hKind] at h

/-- A prefixed name takes no token that begins something else. -/
theorem prefixedName_passes (name : String) (previous : Token) (ts : List Token) :
    Passes ts (prefixedName name previous ts).2 := by
  induction ts generalizing name previous with
  | nil => exact .refl []
  | cons t rest ih =>
      rw [prefixedName]
      split
      · exact .refl _
      · split
        · next hString =>
          rw [Bool.and_eq_true, decide_eq_true_eq] at hString
          exact passes_cons (by rw [hString.1]; rfl) rest
        · split
          · next hPart => exact (passes_cons (begins_of_isNamePart hPart) rest).trans (ih _ t)
          · exact .refl _

theorem begins_of_comparison? {kind : Kind} {operator : Operator}
    (h : comparison? kind = some operator) : begins kind = false := by
  cases kind <;> first | rfl | cases h

theorem begins_of_separator? {kind : Kind} {separator : Separator}
    (h : separator? kind = some separator) : begins kind = false := by
  cases kind <;> first | rfl | cases h

end Tokens

end NoteTemplate
