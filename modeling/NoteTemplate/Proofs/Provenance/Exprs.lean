import NoteTemplate.Proofs.Progress.Exprs
import NoteTemplate.Proofs.Provenance.Tokens

/-! Where the names of an expression come from. Each of them stands at one of the
tokens that a reader took, no two of them at the same one. Names outside the
arguments of filters are those of name tokens, or such a token with more tokens
glued to it. -/
namespace NoteTemplate.Tokens

open Text Token

/-- A step of a computation that ends well ends well itself. -/
theorem of_bind_ok {ε α β : Type} {first : Except ε α} {next : α → Except ε β} {b : β}
    (h : first >>= next = .ok b) : ∃ a, first = .ok a ∧ next a = .ok b := by
  cases first with
  | error e => cases h
  | ok a => exact ⟨a, rfl, h⟩

/-- Tokens all of which are sound. -/
def AllSound (ts : List Token) : Prop := ∀ t ∈ ts, Sound t.kind t.value

/-- Going from one list of tokens to a rest of it, and from some places to more:
each place that is added is that of a token taken on the way. -/
def Took (left : List Place) (ts rest : List Token) (places : List Place) : Prop :=
  ∃ consumed, ts = consumed ++ rest ∧ places.Sublist (left ++ consumed.map Token.place)

variable {left middle places : List Place} {ts behind rest : List Token}

theorem Took.refl (left : List Place) (ts : List Token) : Took left ts ts left :=
  ⟨[], rfl, by simp⟩

theorem Took.trans (hFirst : Took left ts behind middle) (hSecond : Took middle behind rest places) :
    Took left ts rest places := by
  obtain ⟨first, rfl, hMiddle⟩ := hFirst
  obtain ⟨second, rfl, hPlaces⟩ := hSecond
  refine ⟨first ++ second, (List.append_assoc first second rest).symm, ?_⟩
  rw [List.map_append, ← List.append_assoc]
  exact hPlaces.trans (hMiddle.append_right _)

theorem Took.sound (h : Took left ts rest places) (hSound : AllSound ts) : AllSound rest := by
  obtain ⟨consumed, rfl, -⟩ := h
  exact fun t hMem => hSound t (List.mem_append_right consumed hMem)

/-- Passing a token takes no place. -/
theorem Took.advance (left : List Place) (ts : List Token) : Took left ts (advance ts) left := by
  cases ts with
  | nil => exact .refl left []
  | cons t rest =>
      rw [Tokens.advance]
      split
      · exact .refl left _
      · exact ⟨[t], rfl, List.sublist_append_left left _⟩

theorem AllSound.current {kind : Kind} (h : AllSound ts) (hKind : (Tokens.current ts).kind = kind)
    (hInner : kind ≠ .endOfText) : Sound kind (Tokens.current ts).value := by
  cases ts with
  | nil => exact (hInner hKind.symm).elim
  | cons t rest => exact hKind ▸ h t List.mem_cons_self

/-- What is gathered inside of an expression is gathered. -/
theorem Gathers.took (h : Gathers left ts rest places) : Took left ts rest places := by
  obtain ⟨taken, hTokens, -, hPlaces⟩ := h
  exact ⟨taken, hTokens, hPlaces⟩

/-- The end of a construct takes no place. -/
theorem took_of_expectEnd {kind : Kind} {mistake : Mistake} {t : Token} (left : List Place)
    (h : expectEnd kind mistake ts = .ok (t, rest)) : Took left ts rest left := by
  simp only [expectEnd, expect] at h
  split at h
  · cases h
  · split at h
    · cases h
      exact .advance left ts
    · cases h

/-- Parts of names end in no blank. -/
theorem solidEnd_of_isNamePart {t : Token} (hSound : Sound t.kind t.value)
    (h : isNamePart t = true) : SolidEnd t.value := by
  cases hKind : t.kind <;> simp only [isNamePart, hKind, Bool.false_eq_true] at h
  case identifier => exact (hSound.name hKind).1.ends
  case unknown =>
    rw [beq_iff_eq] at h
    rw [h]
    exact solidEnd_of_forall (List.forall_mem_singleton.mpr rfl)
  all_goals exact hSound.mark (by rw [hKind]; rfl)

/-- The names that sound tokens write are readable. A bare word need not be. -/
theorem AllSound.spelling (h : AllSound ts) : Spelling ts Readable fun _ => True where
  name t hMem hKind := ((h t hMem).name hKind).1
  prefixed t hMem hKind previous behind hTokens := by
    have hQuote (s : String) : SolidEnd (quote s) := by
      intro c hLast
      rw [Token.quote_toList, ← List.cons_append, List.getLast?_append] at hLast
      cases hLast
      decide
    have hAppend {a b : String} (hName : Readable a) (hEnd : SolidEnd b) : Readable (a ++ b) := by
      obtain ⟨c, tail, hChars, hStart⟩ := hName.begins
      exact ⟨⟨c, tail ++ b.toList, by rw [String.toList_append, hChars, List.cons_append], hStart⟩,
        hName.ends.append hEnd⟩
    have hColon : Readable (t.value ++ ":") := hAppend ((h t hMem).name hKind).1
      (solidEnd_of_forall (List.forall_mem_singleton.mpr rfl))
    exact prefixedName_induct (fun t hPart => solidEnd_of_isNamePart (h t (hTokens hPart))) hQuote
      hAppend hColon previous
  word _ _ _ _ := trivial

/-- The names outside the arguments of filters are readable. -/
def WellNamed (e : Expr) : Prop := ∀ found ∈ Validate.names e, Readable found.1

/-- What holds of all names holds of those outside the arguments of filters. -/
theorem forall_names_of_spelled {P W : String → Prop} (e : Expr) (h : e.Spelled P W) :
    ∀ found ∈ Validate.names e, P found.1 := by
  fun_induction Validate.names e with
  | case1 name place => exact List.forall_mem_singleton.mpr h
  | case2 value _ _ _ _ _ ih => exact ih h.1
  | case3 _ left right _ ihLeft ihRight =>
      exact List.forall_mem_append.mpr ⟨ihLeft h.1, ihRight h.2⟩
  | case4 e _ ih => exact ih h
  | case5 object _ _ ih => exact ih h.1
  | case6 object key _ ihObject ihKey =>
      exact List.forall_mem_append.mpr ⟨ihObject h.1, ihKey h.2⟩
  | case7 inner _ ih => exact ih h
  | case8 => exact List.forall_mem_nil _

/-- What an expression takes of the tokens in front of which it is read. -/
theorem took_of_readExpr {room : Nat} {found : Option Expr}
    (h : readExpr room ts = .ok (found, rest)) : Took [] ts rest (placesOf found) :=
  ((readExpr_meets (spelling_true ts) room (List.Subset.refl ts)).of_ok h).gathers.took

theorem wellNamed_of_readExpr {room : Nat} {e : Expr} (hSound : AllSound ts)
    (h : readExpr room ts = .ok (some e, rest)) : WellNamed e :=
  forall_names_of_spelled e (spelled_of_readExpr hSound.spelling (List.Subset.refl ts) h)

end NoteTemplate.Tokens
