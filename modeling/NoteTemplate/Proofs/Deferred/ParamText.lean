import NoteTemplate.Proofs.Deferred.Sealed
import NoteTemplate.Proofs.Provenance.Tokens
import NoteTemplate.Render.Evaluate

/-! The parameter text of a deferred filter. Strings stand in it in quotes, and
the text of a number has no character that means anything to a placeholder. -/
namespace NoteTemplate

open Text Token

theorem isPlain_of_isNameChar {c : Char} (h : isNameChar c = true) : isPlain c = true := by
  have hNe := ne_of_class h
  simp [isPlain, Param.isMark, isQuote, hNe '"' rfl, hNe '\'' rfl, hNe '(' rfl, hNe '[' rfl,
    hNe '\x7b' rfl, hNe ')' rfl, hNe ']' rfl, hNe '\x7d' rfl, hNe '\\' rfl, hNe '|' rfl]

/-- The characters that numbers are written with, and more. -/
def isNumeric (c : Char) : Bool := isNameChar c || c == '+'

/-- Text of characters that numbers are written with. -/
def Numeric (s : String) : Prop := ∀ c ∈ s.toList, isNumeric c = true

theorem numeric_ofList {cs : List Char} (h : ∀ c ∈ cs, isNumeric c = true) :
    Numeric (String.ofList cs) := by
  intro c hMem
  rw [String.toList_ofList] at hMem
  exact h c hMem

theorem Numeric.append {s t : String} (hFirst : Numeric s) (hSecond : Numeric t) :
    Numeric (s ++ t) := by
  intro c hMem
  rw [String.toList_append] at hMem
  exact (List.mem_append.mp hMem).elim (hFirst c) (hSecond c)

theorem numeric_literal {s : String} (h : s.toList.all isNumeric = true) : Numeric s :=
  List.all_eq_true.mp h

theorem isNumeric_of_isDigit {c : Char} (h : c.isDigit = true) : isNumeric c = true := by
  have hDigit : isAsciiDigit c = true := by
    simp only [Char.isDigit, Bool.and_eq_true, decide_eq_true_eq] at h
    rw [isAsciiDigit, Bool.and_eq_true, decide_eq_true_eq, decide_eq_true_eq]
    exact h
  simp [isNumeric, isNameChar, hDigit]

theorem numeric_repr (n : Nat) : ∀ c ∈ (Nat.repr n).toList, isNumeric c = true := by
  intro c hMem
  rw [Nat.toList_repr] at hMem
  exact isNumeric_of_isDigit (Nat.isDigit_of_mem_toDigits (by omega) (by omega) hMem)

theorem numeric_intText (n : Int) : Numeric (Value.Json.intText n) := by
  intro c hMem
  rcases Value.mem_intText hMem with rfl | hDigit
  · rfl
  · exact isNumeric_of_isDigit hDigit

theorem numeric_zeros (n : Nat) : ∀ c ∈ List.replicate n '0', isNumeric c = true := by
  intro c hMem
  rw [List.eq_of_mem_replicate hMem]
  rfl

theorem numeric_padLeft {width : Nat} {s : String} (h : Numeric s) :
    Numeric (Decimal.padLeft width s) :=
  (numeric_ofList (numeric_zeros _)).append h

/-- In whatever layout, a decimal is written with digits, signs, a point and the
letter of its exponent. -/
theorem numeric_render {layout : Decimal.Layout} (hMark : Numeric layout.wholeMark)
    (d : Decimal.Digits) : Numeric (layout.render d) := by
  simp only [Decimal.Layout.render]
  generalize ((Nat.repr d.digits).toList.length : Int) + d.exponent = point
  have hDigits := numeric_repr d.digits
  generalize (Nat.repr d.digits).toList = digits at hDigits
  have hKept : ∀ c ∈ (digits.reverse.dropWhile (· == '0')).reverse, isNumeric c = true := by
    intro c hMem
    have hSuffix : digits.reverse.dropWhile (· == '0') <:+ digits.reverse := List.dropWhile_suffix _
    exact hDigits c (List.mem_reverse.mp (hSuffix.subset (List.mem_reverse.mp hMem)))
  generalize (digits.reverse.dropWhile (· == '0')).reverse = kept at hKept
  have hTake (n : Nat) : Numeric (String.ofList (kept.take n)) :=
    numeric_ofList fun c hMem => hKept c (List.mem_of_mem_take hMem)
  have hDrop (n : Nat) : Numeric (String.ofList (kept.drop n)) :=
    numeric_ofList fun c hMem => hKept c (List.mem_of_mem_drop hMem)
  split
  · split
    · exact ((numeric_literal rfl).append (numeric_ofList (numeric_zeros _))).append
        (numeric_ofList hKept)
    · split
      · refine (numeric_ofList ?_).append hMark
        exact List.forall_mem_append.mpr ⟨hKept, numeric_zeros _⟩
      · exact ((hTake _).append (numeric_literal rfl)).append (hDrop _)
  · have hTail : Numeric (if kept.length ≤ 1 then "" else "." ++ String.ofList (kept.drop 1)) := by
      split
      · exact numeric_literal rfl
      · exact (numeric_literal rfl).append (hDrop 1)
    have hSign : Numeric (if point - 1 < 0 then "-" else "+") := by
      split <;> exact numeric_literal rfl
    exact ((((hTake 1).append hTail).append (numeric_literal rfl)).append hSign).append
      (numeric_padLeft (numeric_repr _))

/-- A number in the usual layout, whatever the numbers without digits are called. -/
theorem numeric_decimal {specials : Decimal.Specials} (hNotANumber : Numeric specials.notANumber)
    (hInfinity : Numeric specials.infinity) (x : Float) :
    Numeric (Decimal.render Decimal.plainLayout specials x) := by
  rw [Decimal.render]
  split
  · split
    · exact hNotANumber
    · split
      · exact (numeric_literal rfl).append hInfinity
      · exact hInfinity
  · next b _ =>
    have hSign : Numeric (if b.negative then "-" else "") := by
      split <;> exact numeric_literal rfl
    have hMark : Numeric Decimal.plainLayout.wholeMark := numeric_literal rfl
    simp only
    split
    · exact (hSign.append (numeric_literal rfl)).append hMark
    · exact hSign.append (numeric_render hMark _)

/-- The text of a number is written with few characters, whatever the number. -/
theorem numeric_floatText (x : Float) : Numeric (Value.floatText x) := by
  rw [Value.floatText]
  split
  · exact numeric_intText _
  · exact numeric_decimal (numeric_literal rfl) (numeric_literal rfl) x

theorem Fragment.append {s t : String} (hFirst : Fragment s) (hSecond : Fragment t) :
    Fragment (s ++ t) := by
  refine ⟨?_, hFirst.solid.append hSecond.solid⟩
  rw [String.toList_append]
  exact hFirst.closed.append hSecond.closed

theorem fragment_of_forall {s : String}
    (h : ∀ c ∈ s.toList, isPlain c = true ∧ isBlank c = false) : Fragment s :=
  ⟨sealed_of_forall fun c hMem => (h c hMem).1, solid_of_forall fun c hMem => (h c hMem).2⟩

theorem fragment_empty : Fragment "" := fragment_of_forall (by simp)

theorem fragment_literal {s : String}
    (h : s.toList.all (fun c => isPlain c && !isBlank c) = true) : Fragment s := by
  refine fragment_of_forall fun c hMem => ?_
  simpa using List.all_eq_true.mp h c hMem

theorem Numeric.fragment {s : String} (h : Numeric s) : Fragment s := by
  refine fragment_of_forall fun c hMem => ?_
  rcases Bool.or_eq_true _ _ ▸ h c hMem with hName | hPlus
  · exact ⟨isPlain_of_isNameChar hName, isBlank_of_isNameChar hName⟩
  · rw [beq_iff_eq.mp hPlus]
    exact ⟨rfl, rfl⟩

theorem fragment_quote (s : String) : Fragment (quote s) :=
  ⟨sealed_quote s, Param.solid_quote s⟩

/-- Neither an array nor an object. -/
def Value.isScalar : Value → Bool
  | .arr _ => false
  | .obj _ => false
  | _ => true

/-- A scalar is written so that nothing in it is open to the text around it. -/
theorem fragment_paramText {v : Value} (h : v.isScalar = true) : Fragment v.paramText := by
  cases v with
  | null => exact fragment_empty
  | bool b => cases b <;> exact Numeric.fragment (numeric_literal rfl)
  | int n => exact (numeric_intText n).fragment
  | float x => exact (numeric_floatText x).fragment
  | str s => exact fragment_quote s
  | arr items => cases h
  | obj fields => cases h

theorem fragment_separator (separator : Separator) : Fragment separator.text := by
  cases separator with
  | comma => exact fragment_literal rfl
  | colon => exact fragment_literal rfl

/-- Parts with separators between them can stand in a placeholder if each part can. -/
theorem fragment_interleave (separators : List Separator) {parts : List String}
    (hParts : ∀ part ∈ parts, Fragment part) : Fragment (interleave separators parts) := by
  have hJoin (texts : List String) (hTexts : ∀ text ∈ texts, Fragment text) :
      Fragment (String.join texts) := by
    induction texts with
    | nil => exact fragment_empty
    | cons text texts ih =>
        rw [String.join_cons]
        exact (hTexts text (by simp)).append (ih fun t hMem => hTexts t (by simp [hMem]))
  cases parts with
  | nil => exact fragment_empty
  | cons part rest =>
      refine (hParts part (by simp)).append (hJoin _ fun text hMem => ?_)
      obtain ⟨⟨separator, later⟩, hPair, rfl⟩ := List.mem_map.mp hMem
      have hLater : later ∈ rest := (List.of_mem_zip hPair).2
      exact (fragment_separator separator).append (hParts later (by simp [hLater]))

/-- Parts in a row end outside of quotes and brackets if each part does. -/
theorem sealed_intercalate {parts : List String} (hParts : ∀ part ∈ parts, Sealed part.toList) :
    Sealed (String.intercalate ", " parts).toList := by
  cases parts with
  | nil => exact .nil
  | cons first parts =>
      induction parts generalizing first with
      | nil => simpa using hParts first (by simp)
      | cons second parts ih =>
          have hLater := ih second fun part hMem => hParts part (List.mem_cons_of_mem first hMem)
          have hComma : Sealed ", ".toList := sealed_of_forall (List.all_eq_true.mp rfl)
          rw [String.intercalate_cons_cons, String.toList_append, String.toList_append]
          exact ((hParts first (by simp)).append hComma).append hLater

/-- The parameter text of scalars, in either of its forms. -/
theorem fragment_layoutArgs (separators : List Separator) (parenthesized : Bool)
    {parts : List String} (hParts : ∀ part ∈ parts, Fragment part) :
    Fragment (layoutArgs separators parenthesized parts) := by
  cases parenthesized with
  | false => exact fragment_interleave separators hParts
  | true =>
      have hText : (layoutArgs separators true parts).toList =
          '(' :: ((String.intercalate ", " parts).toList ++ [')']) := by
        simp [layoutArgs]
      have hInside := sealed_intercalate fun part hMem => (hParts part hMem).closed
      refine ⟨?_, solid_between hText rfl rfl⟩
      rw [hText]
      exact hInside.inParens

end NoteTemplate
