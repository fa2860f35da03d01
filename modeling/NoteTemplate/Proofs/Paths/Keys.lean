import NoteTemplate.Proofs.Deferred.Link
import NoteTemplate.Proofs.Value.Integer
import NoteTemplate.Render.Evaluate

/-! Paths of keys behind an index in brackets. As the path of a variable such a text
leads from key to key, one at a time; as the one key that an expression has behind
its brackets it leads to a single field. -/
namespace NoteTemplate

open Text Token

/-- A name that is one key of a path. It has no point, and it is no word of the
language. -/
structure PathName (name : String) : Prop where
  chars : Expr.isNameText name.toList = true
  noPoint : '.' ∉ name.toList
  noWord : keyword? (toLower name) = none

theorem splitOnChar_of_notMem {sep : Char} {cs : List Char} (h : sep ∉ cs) :
    splitOnChar sep cs = [cs] := by
  induction cs with
  | nil => rfl
  | cons c rest ih =>
      rw [List.mem_cons, not_or] at h
      rw [splitOnChar, if_neg (Ne.symm h.1), ih h.2]

theorem splitOnChar_append {sep : Char} {cs : List Char} (h : sep ∉ cs) (rest : List Char) :
    splitOnChar sep (cs ++ sep :: rest) = cs :: splitOnChar sep rest := by
  induction cs with
  | nil => rw [List.nil_append, splitOnChar, if_pos rfl]
  | cons c cs ih =>
      rw [List.mem_cons, not_or] at h
      rw [List.cons_append, splitOnChar, if_neg (Ne.symm h.1), ih h.2]

theorem toList_joinWith_cons_cons (first second : String) (rest : List String) :
    (joinWith "." (first :: second :: rest)).toList =
      first.toList ++ '.' :: (joinWith "." (second :: rest)).toList := by
  rw [joinWith, String.intercalate_cons_cons, String.toList_append, String.toList_append,
    List.append_assoc]
  rfl

/-- Names that points separate are found again between the points. -/
theorem splitOnChar_joinWith {names : List String} (hSome : names ≠ [])
    (h : ∀ name ∈ names, '.' ∉ name.toList) :
    splitOnChar '.' (joinWith "." names).toList = names.map String.toList := by
  induction names with
  | nil => exact absurd rfl hSome
  | cons first rest ih =>
      rw [List.forall_mem_cons] at h
      cases rest with
      | nil =>
          rw [joinWith, String.intercalate_singleton, splitOnChar_of_notMem h.1]
          rfl
      | cons second rest =>
          rw [toList_joinWith_cons_cons, splitOnChar_append h.1, ih (List.cons_ne_nil _ _) h.2]
          rfl

/-- Characters of a name are none of the marks of a path. -/
theorem PathName.ne {name : String} (h : PathName name) (mark : Char)
    (hMark : isNameChar mark = false) : ∀ c ∈ name.toList, c ≠ mark :=
  fun c hc => ne_of_class (Link.isNameChar_of_isNameText h.chars c hc) mark hMark

/-- Names joined by points are the characters of one name. -/
theorem isNameText_joinWith {names : List String} (hSome : names ≠ [])
    (h : ∀ name ∈ names, PathName name) : Expr.isNameText (joinWith "." names).toList = true := by
  induction names with
  | nil => exact absurd rfl hSome
  | cons first rest ih =>
      rw [List.forall_mem_cons] at h
      cases rest with
      | nil =>
          rw [joinWith, String.intercalate_singleton]
          exact h.1.chars
      | cons second rest =>
          have hRest := Link.isNameChar_of_isNameText (ih (List.cons_ne_nil _ _) h.2)
          obtain ⟨c, cs, hFirst, hStart, hChars⟩ := Expr.exists_of_isNameText h.1.chars
          rw [toList_joinWith_cons_cons, hFirst, List.cons_append, Expr.isNameText, hStart,
            Bool.true_and, List.all_append, List.all_cons, List.all_eq_true.mpr hChars,
            List.all_eq_true.mpr hRest]
          rfl

/-- An element of a list and a path of keys behind it, as they are written. -/
def dotted (list : String) (i : Nat) (names : List String) : String :=
  list ++ "[" ++ Value.text (.int i) ++ "]" ++ "." ++ joinWith "." names

theorem toList_dotted (list : String) (i : Nat) (names : List String) :
    (dotted list i names).toList =
      (list.toList ++ '[' :: ((Value.text (.int i)).toList ++ [']'])) ++
        '.' :: (joinWith "." names).toList := by
  simp [dotted]

namespace Value

theorem ofChars_of_noBracket {name : String} (h : '[' ∉ name.toList) :
    Step.ofChars name.toList = .key name := by
  have hNe : ∀ c ∈ name.toList, c ≠ '[' := fun c hMem hSame => h (hSame ▸ hMem)
  rw [Step.ofChars, Link.cutAtChar?_of_forall hNe, String.ofList_toList]

/-- A name with an index in brackets is one step of a path. -/
theorem ofChars_index {list : String} (h : PathName list) (i : Nat) :
    Step.ofChars (list.toList ++ '[' :: ((Value.text (.int i)).toList ++ [']'])) =
      .index list (Value.text (.int i)) := by
  have hNoBracket : ∀ c ∈ (Value.text (.int i)).toList, c ≠ ']' := by
    rintro c hMem rfl
    rcases mem_intText hMem with hMinus | hDigit
    · exact absurd hMinus (by decide)
    · exact absurd hDigit (by decide)
  have hSome : (Value.text (.int i)).toList ≠ [] := by
    rw [intText_toList]
    simp
  rw [Step.ofChars, Link.cutAtChar?_append (h.ne '[' rfl)]
  simp only [Link.cutAtChar?_append hNoBracket, hSome, if_false, String.ofList_toList]

/-- As a path the text leads to an element and then from key to key. -/
theorem stepsOf_dotted {list : String} {names : List String} (hList : PathName list) (i : Nat)
    (hSome : names ≠ []) (hNames : ∀ name ∈ names, PathName name) :
    stepsOf (dotted list i names) = .index list (Value.text (.int i)) :: names.map .key := by
  have hNoPoint : '.' ∉ list.toList ++ '[' :: ((Value.text (.int i)).toList ++ [']']) := by
    have hDigits : '.' ∉ (Value.text (.int i)).toList := fun hMem =>
      (mem_intText hMem).elim (by decide) (by decide)
    simp [hList.noPoint, hDigits]
  have hKeys : (names.map String.toList).map Step.ofChars = names.map .key := by
    rw [List.map_map]
    exact List.map_congr_left fun name hName =>
      ofChars_of_noBracket fun hMem => (hNames name hName).ne '[' rfl _ hMem rfl
  rw [stepsOf, toList_dotted, splitOnChar_append hNoPoint,
    splitOnChar_joinWith hSome fun name hName => (hNames name hName).noPoint, List.map_cons,
    ofChars_index hList, hKeys]

theorem follow_null (steps : List Step) : follow .null steps = .ok .null := by
  cases steps <;> rfl

/-- One key of a path, and then the others. -/
theorem follow_key (v : Value) (name : String) (rest : List Step) :
    follow v (.key name :: rest) = (do follow (← select v name) rest) := by
  cases v with
  | null => exact (follow_null rest).symm
  | _ => rfl

/-- A name is no index, for it does not begin with a digit. -/
theorem not_all_isDigit {name : String} (h : Expr.isNameText name.toList = true) :
    ¬(name ≠ "" ∧ name.toList.all isDigit = true) := by
  obtain ⟨c, rest, hName, hStart, -⟩ := Expr.exists_of_isNameText h
  have hRange := isNameStart_toNat hStart
  rw [hName, List.all_cons, isDigit_of_toNat (.inr hRange.1) hRange.2]
  simp

/-- What a name can select that is no field: a length. -/
theorem select_of_not_obj {v : Value} (hObj : ∀ fields, v ≠ .obj fields) {name : String}
    (hName : Expr.isNameText name.toList = true) :
    select v name = .ok .null ∨ name = "length" ∧ ∃ n : Int, select v name = .ok (.int n) := by
  cases v with
  | obj fields => exact absurd rfl (hObj fields)
  | arr items =>
      rw [select, if_neg (not_all_isDigit hName)]
      split
      · next hLength => exact .inr ⟨hLength, _, rfl⟩
      · exact .inl rfl
  | str s =>
      rw [select]
      split
      · next hLength => exact .inr ⟨hLength, _, rfl⟩
      · exact .inl rfl
  | _ => exact .inl rfl

/-- From a value that is no object two keys lead nowhere. -/
theorem follow_of_not_obj {v : Value} (hObj : ∀ fields, v ≠ .obj fields) {first second : String}
    (hFirst : PathName first) (rest : List Step) :
    follow v (.key first :: .key second :: rest) = .ok .null := by
  rw [follow_key]
  obtain hNull | ⟨-, n, hLength⟩ := select_of_not_obj hObj hFirst.chars
  · rw [hNull]
    rfl
  · rw [hLength]
    exact (follow_key (.int n) second rest).trans (follow_null rest)

/-- The joined names of several keys select nothing from a value that is no object. -/
theorem select_joinWith_of_not_obj {v : Value} (hObj : ∀ fields, v ≠ .obj fields)
    {first second : String} {rest : List String}
    (hNames : ∀ name ∈ first :: second :: rest, PathName name) :
    select v (joinWith "." (first :: second :: rest)) = .ok .null := by
  have hName := isNameText_joinWith (List.cons_ne_nil _ _) hNames
  refine (select_of_not_obj hObj hName).resolve_right fun hLength => ?_
  have hPoint : '.' ∈ (joinWith "." (first :: second :: rest)).toList := by
    rw [toList_joinWith_cons_cons]
    simp
  rw [hLength.1] at hPoint
  exact absurd hPoint (by decide)

/-- One key behind the brackets is what the path says. Several joined keys are so as
well, except that from an object they select one field, which need not be the end
of the path. -/
theorem select_joinWith_iff (v : Value) {names : List String} (hSome : names ≠ [])
    (hNames : ∀ name ∈ names, PathName name) :
    select v (joinWith "." names) = follow v (names.map .key) ↔
      ∀ fields, v = .obj fields → 1 < names.length →
        .ok (field fields (joinWith "." names)) = follow v (names.map .key) := by
  cases names with
  | nil => exact absurd rfl hSome
  | cons first rest =>
      cases rest with
      | nil =>
          have hOne : follow v (.key first :: []) = select v first := by
            rw [follow_key]
            cases select v first <;> rfl
          rw [joinWith, String.intercalate_singleton, List.map_singleton, hOne]
          simp
      | cons second rest =>
          constructor
          · rintro hSame fields rfl -
            exact hSame
          · intro hField
            by_cases hObj : ∃ fields, v = .obj fields
            · obtain ⟨fields, rfl⟩ := hObj
              exact hField fields rfl (by simp)
            · have hObj : ∀ fields, v ≠ .obj fields := fun fields hSame => hObj ⟨fields, hSame⟩
              rw [select_joinWith_of_not_obj hObj hNames]
              exact (follow_of_not_obj hObj (hNames first List.mem_cons_self) _).symm

end Value

/-- As the path of a variable the text leads to an element and then from key to key,
if the index does not have too many digits. -/
theorem Variables.walk_dotted {vars : Variables} {list : String} {items : List Value} {item : Value}
    {i : Nat} {names : List String} (hList : PathName list) (hShort : i < Decimal.digitLimit)
    (hItems : vars.field list = .plain (.arr items)) (hItem : items[i]? = some item)
    (hSome : names ≠ []) (hNames : ∀ name ∈ names, PathName name) :
    vars.walk (dotted list i names) = (Value.follow item (names.map .key)).map .plain := by
  have hPath : dotted list i names ≠ "" := by
    intro hEmpty
    have hNil := congrArg String.toList hEmpty
    rw [toList_dotted] at hNil
    simp at hNil
  have hBase : list ≠ "" := Link.ne_empty_of_isNameText hList.chars
  have hStep : step vars (.index list (Value.text (.int i))) = .ok (.plain item) := by
    have hIndex : Decimal.readInt? (Value.text (.int i)) = some (i : Int) := by
      rw [Decimal.readInt?, Value.readInt_intText, if_pos (by rwa [Int.natAbs_natCast])]
      rfl
    rw [step, if_neg hBase, hItems]
    simp only [Value.selectIndex, hIndex, Value.item]
    simp [hItem]
  rw [walk, if_neg hPath, Value.stepsOf_dotted hList i hSome hNames]
  simp only [hStep, bind, Except.bind]
  cases Value.follow item (names.map .key) <;> rfl

/-- A key in an expression selects what it selects in a path. -/
theorem Render.access_text (v : Value) (key : String) :
    access (.plain v) (.plain (.str key)) = (v.select key).map .plain := by
  cases v with
  | arr items =>
      show (itemOf items (.str key)).map Datum.plain = _
      rw [itemOf, Value.select]
      split
      · cases Value.indexOfDigits key with
        | error f => rfl
        | ok n => simp [Except.map, Value.item]
      · rfl
  | _ => rfl

end NoteTemplate
