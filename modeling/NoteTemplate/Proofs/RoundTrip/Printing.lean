import NoteTemplate.Proofs.RoundTrip.Lexemes

/-! The tokens of a canonical expression as it is written: `shapes` is what the
scanner makes of `print`. -/
namespace NoteTemplate.Token

open Text NoteTemplate.Expr

/-- The rests that leave an expression as it is. A point belongs to a name or a
number in front of it. -/
def Suits (e : Expr) (rest : List Char) : Prop := e.takesPoint = true ∨ AtEdge rest

theorem Scans.suits {e : Expr} {cs : List Char} {shapes : List Shape} (h : Scans AtEdge cs shapes)
    (hPoint : e.takesPoint = false) : Scans (Suits e) cs shapes :=
  h.mono fun rest hRest => hRest.resolve_left (by simp [hPoint])

theorem Scans.atEdge {e : Expr} {cs : List Char} {shapes : List Shape}
    (h : Scans (Suits e) cs shapes) : Scans AtEdge cs shapes :=
  h.mono fun _ hRest => .inr hRest

theorem scans_nil (suits : List Char → Prop) : Scans suits [] [] := by
  intro position rest _
  refine ⟨[], position, rfl, ?_⟩
  rw [List.nil_append]
  cases scanFrom .variable position rest <;> rfl

theorem scans_word {name : String} {kind : Kind} (hText : isNameText name.toList = true)
    (hSelector : name ≠ "selector" ∧ name ≠ "selectorHtml")
    (hKind : keyword? (toLower name) = some kind) : Scans AtEdge name.toList [(kind, name)] := by
  have h := scans_name hText hSelector
  rwa [hKind] at h

theorem scans_plainName {name : String} (h : PlainName name) :
    Scans AtEdge name.toList [(.identifier, name)] := by
  have hScans := scans_name h.chars h.notSelector
  rwa [h.notWord] at hScans

/-- An operator in front of a blank. -/
theorem scans_operator (operator : Operator) :
    Scans AtEdge operator.text.toList [(operatorKind operator, operator.text)] := by
  -- Behind a mark of one character no equals sign follows.
  have hAlone {c : Char} (hPair : ∀ d, isEdge d = true → pairKind? c d = none) (rest : List Char)
      (hRest : AtEdge rest) : rest.head?.bind (pairKind? c) = none := by
    obtain ⟨d, later, rfl, hEdge⟩ := hRest
    exact hPair d hEdge
  cases operator with
  | fallback => exact scans_pair (a := '?') (b := '?') rfl (by decide) (by decide)
  | equal => exact scans_pair (a := '=') (b := '=') rfl (by decide) (by decide)
  | notEqual => exact scans_pair (a := '!') (b := '=') rfl (by decide) (by decide)
  | atLeast => exact scans_pair (a := '>') (b := '=') rfl (by decide) (by decide)
  | atMost => exact scans_pair (a := '<') (b := '=') rfl (by decide) (by decide)
  | greater =>
      refine scans_mark (c := '>') rfl (by decide) (by decide) (hAlone fun d hEdge => ?_)
      rcases isEdge_cases hEdge with rfl | rfl | rfl | rfl | rfl | rfl | rfl <;> decide
  | less =>
      refine scans_mark (c := '<') rfl (by decide) (by decide) (hAlone fun d hEdge => ?_)
      rcases isEdge_cases hEdge with rfl | rfl | rfl | rfl | rfl | rfl | rfl <;> decide
  | or => exact scans_word (by decide) (by decide) (by decide)
  | and => exact scans_word (by decide) (by decide) (by decide)
  | contains => exact scans_word (by decide) (by decide) (by decide)

/-- Marks that make up no operator with another character. -/
theorem scans_lone {c : Char} {kind : Kind} (hSingle : singleKind? c = some kind)
    (hLone : ['(', ')', '[', ']', ':', ',', '.'].contains c = true) :
    Scans Anywhere [c] [(kind, String.ofList [c])] := by
  have hCases : c = '(' ∨ c = ')' ∨ c = '[' ∨ c = ']' ∨ c = ':' ∨ c = ',' ∨ c = '.' := by
    simpa using hLone
  refine scans_mark hSingle ?_ ?_ fun rest _ => ?_
  · rcases hCases with rfl | rfl | rfl | rfl | rfl | rfl | rfl <;> decide
  · rcases hCases with rfl | rfl | rfl | rfl | rfl | rfl | rfl <;> decide
  · have hNone (d : Char) : pairKind? c d = none := by
      rcases hCases with rfl | rfl | rfl | rfl | rfl | rfl | rfl <;> simp [pairKind?]
    cases rest.head? with
    | none => rfl
    | some d => exact hNone d

/-- A filter mark in front of a name. -/
theorem scans_pipe_name {name : String} (h : PlainName name) :
    Scans AtEdge ('|' :: name.toList) [(.pipe, "|"), (.identifier, name)] := by
  have hPipe : Scans (fun rest => ∃ c later, rest = c :: later ∧ isNameStart c = true) ['|']
      [(.pipe, "|")] := by
    refine scans_mark (c := '|') rfl (by decide) (by decide) ?_
    rintro _ ⟨c, later, rfl, hStart⟩
    simp [pairKind?, ne_of_class hStart '|' rfl]
  rw [← List.singleton_append, ← List.singleton_append]
  refine hPipe.append (scans_plainName h) fun rest _ => ?_
  obtain ⟨c, cs, hName, hStart, -⟩ := exists_of_isNameText h.chars
  exact ⟨c, cs ++ rest, by rw [hName, List.cons_append], hStart⟩

theorem scans_separator (separator : Separator) :
    Scans Anywhere separator.text.toList [(separatorKind separator, separator.text)] := by
  cases separator with
  | comma => exact scans_lone (c := ',') rfl rfl
  | colon => exact scans_lone (c := ':') rfl rfl

/-- The text of arguments with their separators. -/
def behindText (pairs : List (Separator × String)) : List Char :=
  (String.join (pairs.map fun (sep, part) => sep.text ++ part)).toList

theorem behindText_cons (separator : Separator) (part : String)
    (pairs : List (Separator × String)) :
    behindText ((separator, part) :: pairs) =
      separator.text.toList ++ (part.toList ++ behindText pairs) := by
  simp [behindText, String.toList_join]

/-- What stands behind an argument does not go on with it. -/
theorem atEdge_behindText (pairs : List (Separator × String)) {rest : List Char}
    (h : AtEdge rest) : AtEdge (behindText pairs ++ rest) := by
  cases pairs with
  | nil => simpa [behindText] using h
  | cons pair pairs =>
      obtain ⟨separator, part⟩ := pair
      rw [behindText_cons]
      cases separator <;> exact atEdge_cons (by decide)

/-- Arguments behind the first one, each behind its separator. -/
theorem scans_behind (args : List Expr) (separators : List Separator)
    (hArgs : ∀ arg ∈ args, Scans AtEdge arg.print.toList arg.shapes) :
    Scans AtEdge (behindText (separators.zip (printAll args))) (shapesBehind separators args) := by
  induction args generalizing separators with
  | nil =>
      rw [printAll, List.zip_nil_right, shapesBehind.eq_2 _ _ (by simp)]
      exact scans_nil AtEdge
  | cons arg rest ih =>
      cases separators with
      | nil =>
          rw [List.zip_nil_left, shapesBehind.eq_2 _ _ (by simp)]
          exact scans_nil AtEdge
      | cons separator separators =>
          have hRest := ih separators fun arg hArg => hArgs arg (by simp [hArg])
          rw [printAll, List.zip_cons_cons, behindText_cons, shapesBehind]
          refine (scans_separator separator).append ?_ fun _ _ => trivial
          exact (hArgs arg (by simp)).append hRest fun _ hEdge => atEdge_behindText _ hEdge

theorem atEdge_inParens (parts : List String) {rest : List Char} (h : AtEdge rest) :
    AtEdge ((parts.flatMap fun part => ',' :: ' ' :: part.toList) ++ rest) := by
  cases parts with
  | nil => exact h
  | cons part parts => exact atEdge_cons rfl

/-- Arguments in parentheses behind the first one, each behind a comma and a
blank. -/
theorem scans_inParens (args : List Expr)
    (hArgs : ∀ arg ∈ args, Scans AtEdge arg.print.toList arg.shapes) :
    Scans AtEdge ((printAll args).flatMap fun part => ',' :: ' ' :: part.toList)
      (shapesBehind (args.map fun _ => .comma) args) := by
  induction args with
  | nil => exact scans_nil AtEdge
  | cons arg rest ih =>
      have hRest := ih fun arg hArg => hArgs arg (by simp [hArg])
      have hComma : Scans Anywhere [','] [(.comma, ",")] := scans_lone rfl rfl
      rw [printAll, List.flatMap_cons, List.map_cons, shapesBehind]
      refine hComma.append (Scans.blank ?_) fun _ _ => trivial
      exact (hArgs arg (by simp)).append hRest fun _ hEdge => atEdge_inParens _ hEdge

/-- Texts in a row are the first one and the others behind commas. -/
theorem toList_intercalate (first : String) (parts : List String) :
    (String.intercalate ", " (first :: parts)).toList =
      first.toList ++ parts.flatMap fun part => ',' :: ' ' :: part.toList := by
  induction parts generalizing first with
  | nil => simp
  | cons part parts ih =>
      rw [String.intercalate_cons_cons, String.toList_append, String.toList_append, ih]
      simp

/-- A text between an opening and a closing mark. -/
theorem scans_between {cs : List Char} {shapes : List Shape} {first last : Char}
    {opening closing : Kind} (h : Scans AtEdge cs shapes)
    (hFirst : Scans Anywhere [first] [(opening, String.ofList [first])])
    (hLast : Scans Anywhere [last] [(closing, String.ofList [last])]) (hEdge : isEdge last = true) :
    Scans Anywhere (first :: (cs ++ [last]))
      ((opening, String.ofList [first]) :: (shapes ++ [(closing, String.ofList [last])])) :=
  hFirst.append (h.append hLast fun _ _ => atEdge_cons hEdge) fun _ _ => trivial

/-- Two operands with their operator between blanks. -/
theorem scans_binary {left right : List Char} {shapes more : List Shape} (operator : Operator)
    (hLeft : Scans AtEdge left shapes) (hRight : Scans AtEdge right more) :
    Scans AtEdge (left ++ ' ' :: (operator.text.toList ++ ' ' :: right))
      (shapes ++ (operatorKind operator, operator.text) :: more) := by
  have hOperator := (scans_operator operator).append hRight.blank fun _ _ => atEdge_cons rfl
  exact hLeft.append hOperator.blank fun _ _ => atEdge_cons rfl

/-- The colon between a filter and its arguments. -/
theorem scans_filter_colon {value : List Char} {shapes args : List Shape} {name : String}
    {text : List Char} {suits : List Char → Prop} (hName : PlainName name)
    (hValue : Scans AtEdge value shapes) (hArgs : Scans suits text args) :
    Scans suits (value ++ '|' :: (name.toList ++ ':' :: text))
      (shapes ++ (.pipe, "|") :: (.identifier, name) :: (.colon, ":") :: args) := by
  have hColon : Scans Anywhere [':'] [(.colon, ":")] := scans_lone rfl rfl
  have hBehind := hColon.append hArgs fun _ _ => trivial
  have hFilter := (scans_pipe_name hName).append hBehind fun _ _ => atEdge_cons rfl
  exact hValue.append hFilter fun _ _ => atEdge_cons rfl

section Text

variable (value first left right : Expr) (name : String) (rest : List Expr) (p : Place)

theorem toList_print_binary (operator : Operator) : (binary operator left right p).print.toList =
    left.print.toList ++ ' ' :: (operator.text.toList ++ ' ' :: right.print.toList) := by
  simp [print]

theorem toList_print_filterAlone : (filter value name [] [] false p).print.toList =
    value.print.toList ++ '|' :: name.toList := by
  simp [print]

theorem toList_print_filterList (separators : List Separator) :
    (filter value name (first :: rest) separators false p).print.toList =
      value.print.toList ++ '|' :: (name.toList ++ ':' ::
        (first.print.toList ++ behindText (separators.zip (printAll rest)))) := by
  simp [print, layoutArgs, interleave, printAll, behindText]

theorem toList_print_filterParens (separators : List Separator) :
    (filter value name (first :: rest) separators true p).print.toList =
      value.print.toList ++ '|' :: (name.toList ++ ':' :: '(' :: (first.print.toList ++
        ((printAll rest).flatMap fun part => ',' :: ' ' :: part.toList) ++ [')'])) := by
  simp only [print, List.isEmpty_cons, Bool.false_eq_true, if_false, layoutArgs, if_true, printAll,
    String.toList_append, toList_intercalate]
  simp

end Text

/-- What the scanner makes of a canonical expression as it is written. -/
theorem scans_print {level : Level} {e : Expr} (h : Canonical level e) :
    Scans (Suits e) e.print.toList e.shapes := by
  have hNull : Scans AtEdge "null".toList [(.null, "null")] :=
    scans_word (by decide) (by decide) (by decide)
  have hTrue : Scans AtEdge "true".toList [(.boolean, "true")] :=
    scans_word (by decide) (by decide) (by decide)
  have hFalse : Scans AtEdge "false".toList [(.boolean, "false")] :=
    scans_word (by decide) (by decide) (by decide)
  have hNot : Scans AtEdge "not".toList [(.notWord, "not")] :=
    scans_word (by decide) (by decide) (by decide)
  induction h with
  | null p => exact hNull.suits rfl
  | bool b p => cases b with
    | true => exact hTrue.suits rfl
    | false => exact hFalse.suits rfl
  | int n p => exact (scans_int n).suits rfl
  | text p hText => exact (scans_quote hText).anywhere
  | identifier p hName => exact (scans_plainName hName).suits rfl
  | group p _ ih =>
      have h := scans_between ih.atEdge (scans_lone (c := '(') rfl rfl) (scans_lone (c := ')') rfl rfl)
        rfl
      rw [print, shapes, String.toList_append, String.toList_append, List.append_assoc]
      exact h.anywhere
  | primary _ ih => exact ih
  | index p _ _ ihObject ihKey =>
      have hKey := scans_between ihKey.atEdge (scans_lone (c := '[') rfl rfl)
        (scans_lone (c := ']') rfl rfl) rfl
      have h := ihObject.atEdge.append hKey fun _ _ => atEdge_cons rfl
      rw [print, shapes, String.toList_append, String.toList_append, String.toList_append,
        List.append_assoc, List.append_assoc]
      exact h.anywhere
  | member p _ hPoint hName ihObject =>
      have hDot : Scans Anywhere ['.'] [(.dot, ".")] := scans_lone rfl rfl
      have hProperty := hDot.append (scans_plainName hName) fun _ _ => trivial
      have h := ihObject.append hProperty fun _ _ => .inl hPoint
      rw [print, shapes, String.toList_append, String.toList_append, List.append_assoc]
      exact h.suits rfl
  | accessed _ ih => exact ih
  | filterAlone p _ hName ih =>
      have h := ih.atEdge.append (scans_pipe_name hName) fun _ _ => atEdge_cons rfl
      rw [toList_print_filterAlone, shapes]
      exact h.suits rfl
  | @filterList value first name rest separators p _ hName _ _ _ _ ihValue ihFirst ihRest =>
      have hRest := scans_behind rest separators fun arg hArg => (ihRest arg hArg).atEdge
      have hArgs := ihFirst.atEdge.append hRest fun _ hEdge => atEdge_behindText _ hEdge
      have h := scans_filter_colon hName ihValue.atEdge hArgs
      rw [toList_print_filterList, shapes]
      simp only [Bool.false_eq_true, if_false, List.append_assoc]
      exact h.suits rfl
  | @filterParens value name args p _ hName hSome _ ihValue ihArgs =>
      cases args with
      | nil => exact absurd rfl hSome
      | cons first rest =>
          have hRest := scans_inParens rest fun arg hArg => (ihArgs arg (by simp [hArg])).atEdge
          have hArgs := (ihArgs first (by simp)).atEdge.append hRest
            fun _ hEdge => atEdge_inParens _ hEdge
          have hParens := scans_between hArgs (scans_lone (c := '(') rfl rfl)
            (scans_lone (c := ')') rfl rfl) rfl
          have h := scans_filter_colon hName ihValue.atEdge hParens
          rw [toList_print_filterParens, shapes]
          simp only [if_true, List.append_assoc] at h ⊢
          exact h.anywhere
  | filtered _ ih => exact ih
  | comparison p _ _ _ ihLeft ihRight =>
      rw [toList_print_binary, shapes]
      exact (scans_binary _ ihLeft.atEdge ihRight.atEdge).suits rfl
  | compared _ ih => exact ih
  | not p _ ih =>
      have h := hNot.append ih.atEdge.blank fun _ _ => atEdge_cons rfl
      rw [print, shapes, String.toList_append]
      exact h.suits rfl
  | negated _ ih => exact ih
  | and p _ _ ihLeft ihRight =>
      rw [toList_print_binary, shapes]
      exact (scans_binary .and ihLeft.atEdge ihRight.atEdge).suits rfl
  | conjoined _ ih => exact ih
  | or p _ _ ihLeft ihRight =>
      rw [toList_print_binary, shapes]
      exact (scans_binary .or ihLeft.atEdge ihRight.atEdge).suits rfl
  | disjoined _ ih => exact ih
  | fallback p _ _ ihLeft ihRight =>
      rw [toList_print_binary, shapes]
      exact (scans_binary .fallback ihLeft.atEdge ihRight.atEdge).suits rfl

end NoteTemplate.Token
