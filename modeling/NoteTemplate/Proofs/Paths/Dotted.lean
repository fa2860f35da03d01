import NoteTemplate.Engine
import NoteTemplate.Proofs.Forms.Reading
import NoteTemplate.Proofs.Paths.Keys
import NoteTemplate.Proofs.Scope.Shadowing

/-! An element of a list and a path of keys behind it, between braces. The points
between the keys are characters of one name, so that the expression has one key
behind its brackets, and its value is that of the path only where one key does
what the path does. -/
namespace NoteTemplate

open Text Token Tokens NoteTemplate.Expr

/-! The characters of the expression. -/

/-- A rest at which names end, and which makes a page selector of none. -/
def AtCut (rest : List Char) : Prop := AtEdge rest ∧ startsWith [':'] rest = false

theorem atCut_cons {c : Char} (hEdge : isEdge c = true) (hColon : c ≠ ':') (rest : List Char) :
    AtCut (c :: rest) :=
  ⟨atEdge_cons hEdge, by simp [startsWith_cons_cons, Ne.symm hColon]⟩

/-- A name that is no word of the language, where no colon follows it. -/
theorem scans_identifier {name : String} (hText : isNameText name.toList = true)
    (hWord : keyword? (toLower name) = none) : Scans AtCut name.toList [(.identifier, name)] := by
  have hScans := scans_nameText hText (fun _ (hRest : AtCut _) => hRest.1) fun _ hRest => by
    rw [hRest.2, Bool.and_false]
  rwa [hWord] at hScans

/-- A point stays in a text whose letters are made small. -/
theorem point_mem_lowerFrom {cs : List Char} (h : '.' ∈ cs) (before : List Char) :
    '.' ∈ lowerFrom before cs := by
  induction cs generalizing before with
  | nil => cases h
  | cons c rest ih =>
      rw [lowerFrom, List.mem_append]
      rcases List.mem_cons.mp h with rfl | hLater
      · exact .inl (List.mem_singleton.mpr rfl)
      · exact .inr (ih hLater _)

/-- No word of the language has a point in it. -/
theorem keyword?_of_point {name : String} (h : '.' ∈ name.toList) :
    keyword? (toLower name) = none := by
  have hPoint : '.' ∈ (toLower name).toList := by
    rw [toLower, String.toList_ofList]
    exact point_mem_lowerFrom h []
  have hWords : ∀ entry ∈ [("if", Kind.ifWord), ("elseif", .elseifWord), ("else", .elseWord),
      ("endif", .endifWord), ("for", .forWord), ("in", .inWord), ("endfor", .endforWord),
      ("set", .setWord), ("and", .andWord), ("or", .orWord), ("not", .notWord),
      ("contains", .containsWord), ("true", .boolean), ("false", .boolean), ("null", .null)],
      '.' ∉ entry.1.toList := by
    decide
  rw [keyword?, List.lookup_eq_none_iff]
  intro entry hEntry
  rw [bne_iff_ne]
  intro hSame
  rw [hSame] at hPoint
  exact hWords entry hEntry hPoint

/-- Names joined by points are no word of the language. -/
theorem keyword?_joinWith {names : List String} (hSome : names ≠ [])
    (h : ∀ name ∈ names, PathName name) : keyword? (toLower (joinWith "." names)) = none := by
  cases names with
  | nil => exact absurd rfl hSome
  | cons first rest =>
      cases rest with
      | nil =>
          rw [joinWith, String.intercalate_singleton]
          exact (h first List.mem_cons_self).noWord
      | cons second rest =>
          refine keyword?_of_point ?_
          rw [toList_joinWith_cons_cons]
          simp

/-- The expression: one key behind an index, all of whose parts are said to stand
at the beginning. -/
def dottedExpr (list : String) (i : Nat) (names : List String) : Expr :=
  .member (.index (.identifier list ⟨1, 1⟩) (.literal (.int i) ⟨1, 1⟩) ⟨1, 1⟩)
    (joinWith "." names) ⟨1, 1⟩

theorem print_dottedExpr (list : String) (i : Nat) (names : List String) :
    (dottedExpr list i names).print = dotted list i names := rfl

variable {list : String} {names : List String}

/-- The text is scanned as the list's name, brackets with an index, and one name with
points. -/
theorem scans_dotted (hList : PathName list) (i : Nat) (hSome : names ≠ [])
    (hNames : ∀ name ∈ names, PathName name) :
    Scans AtCut (dottedExpr list i names).print.toList (dottedExpr list i names).shapes := by
  have hIndex := scans_between (scans_int i) (scans_lone (c := '[') rfl rfl)
    (scans_lone (c := ']') rfl rfl) rfl
  have hKey := (scans_lone (c := '.') rfl rfl).append
    (scans_identifier (isNameText_joinWith hSome hNames) (keyword?_joinWith hSome hNames))
    fun _ _ => trivial
  have hElement := (scans_identifier hList.chars hList.noWord).append hIndex
    fun _ _ => atCut_cons rfl (by decide) _
  rw [print_dottedExpr, toList_dotted]
  exact hElement.append hKey fun _ _ => trivial

/-! Reading the expression. -/

/-- An index with few enough digits and one key are read as such. -/
theorem reads_dotted (list : String) {i : Nat} (hShort : i < Decimal.digitLimit)
    (names : List String) : Reads .fallback (dottedExpr list i names) := by
  have hWritable : Value.writable (.int i) = true := by
    rw [Value.writable, decide_eq_true_eq]
    rwa [Int.natAbs_natCast]
  have hIndex : Reads .fallback (.literal (.int i) ⟨1, 1⟩) :=
    reads_loosest (reads_primary (reads_int hWritable _)) (by simp [firstKind, literalShape])
  have hElement := reads_index ⟨1, 1⟩ (reads_primary (reads_identifier list ⟨1, 1⟩)) hIndex
  exact reads_loosest (reads_member ⟨1, 1⟩ hElement) (by simp [dottedExpr, firstKind])

/-- The text is read as one key behind an index, whatever the number of keys. -/
theorem parse_dotted (hList : PathName list) {i : Nat} (hShort : i < Decimal.digitLimit)
    (hSome : names ≠ []) (hNames : ∀ name ∈ names, PathName name) :
    ∃ found, found.unplaced = (dottedExpr list i names).unplaced ∧ ∀ room, 0 < room →
      Template.parse room ("\x7b\x7b " ++ dotted list i names ++ " \x7d\x7d") =
        .ok ⟨[.print found ⟨false, false⟩ ⟨1, 1⟩], []⟩ := by
  have hBlank : AtCut [' ', '\x7d', '\x7d'] := atCut_cons rfl (by decide) _
  obtain ⟨found, _, hSame, hParse⟩ := Template.parse_printing_of_reads
    (scans_dotted hList i hSome hNames) hBlank (reads_dotted list hShort names)
  refine ⟨found, hSame, fun room hRoom => ?_⟩
  have hDepth : (dottedExpr list i names).depth ≤ room := show 1 ≤ room from hRoom
  rw [← print_dottedExpr]
  exact (hParse room).2.trans (by rw [if_pos hDepth])

/-! The value of the expression. -/

/-- Up to places there is one such expression. -/
theorem exists_of_unplaced_dotted {found : Expr} {i : Nat}
    (h : found.unplaced = (dottedExpr list i names).unplaced) :
    ∃ p q r s, found = .member (.index (.identifier list p) (.literal (.int i) q) r)
      (joinWith "." names) s := by
  cases found <;> simp only [dottedExpr, unplaced, reduceCtorEq, Expr.member.injEq] at h
  next object key s =>
    obtain ⟨hObject, rfl, -⟩ := h
    cases object <;> simp only [unplaced, reduceCtorEq, Expr.index.injEq] at hObject
    next base index r =>
      obtain ⟨hBase, hIndex, -⟩ := hObject
      cases base <;> simp only [unplaced, reduceCtorEq, Expr.identifier.injEq] at hBase
      cases index <;> simp only [unplaced, reduceCtorEq, Expr.literal.injEq] at hIndex
      obtain ⟨⟨rfl, -⟩, ⟨rfl, -⟩⟩ := And.intro hBase hIndex
      exact ⟨_, _, _, _, rfl⟩

namespace Render

variable {σ : Type} {context : Context σ} {pass : Pass σ} {items : List Value} {item : Value} {i : Nat}

/-- The name of a list stands for the list. -/
theorem eval_list (hList : PathName list) (hItems : pass.vars.field list = .plain (.arr items))
    (place : Place) : (eval context (.identifier list place)).on pass =
      (.ok (.plain (.arr items)), pass) := by
  rw [eval_of_isNameText hList.chars, on_ofFault, Variables.resolve,
    (readable_of_isNameText hList.chars).strip_eq, hItems]
  rfl

/-- The expression selects one key from the element, with points and all. -/
theorem eval_dotted {found : Expr} (hSame : found.unplaced = (dottedExpr list i names).unplaced)
    (hList : PathName list) (hItems : pass.vars.field list = .plain (.arr items))
    (hItem : items[i]? = some item) :
    (eval context found).on pass =
      (ofFault ((item.select (joinWith "." names)).map .plain)).on pass := by
  obtain ⟨p, q, r, s, rfl⟩ := exists_of_unplaced_dotted hSame
  have hElement : access (.plain (.arr items)) (.plain (.int i)) = .ok (.plain item) := by
    show (itemOf items (.int i)).map Datum.plain = _
    rw [itemOf, Value.item]
    simp [hItem, Except.map]
  have hIndex : (eval context (.index (.identifier list p) (.literal (.int i) q) r)).on pass =
      (.ok (.plain item), pass) := by
    rw [eval, Run.on_bind_ok (eval_list hList hItems p), eval, Run.on_bind_ok (Run.on_pure _ _),
      on_ofFault]
    exact congrArg (·, pass) (by rw [show Literal.value (.int i) = .int i from rfl, hElement])
  rw [eval, Run.on_bind_ok hIndex, access_text]

/-- An element of a list with a path of keys behind it is read as an expression
whose value is what the joined keys select from the element as one key. That is the
value of the path itself if there is only one key, and if the element is no object.
For an object with more keys it is so exactly if the field under the joined keys is
what the path leads to. The index can be read if it does not have too many digits. -/
theorem dotted_follows_path_iff {vars : Variables} (hList : PathName list)
    (hShort : i < Decimal.digitLimit)
    (hItems : vars.field list = .plain (.arr items)) (hItem : items[i]? = some item)
    (hSome : names ≠ []) (hNames : ∀ name ∈ names, PathName name) :
    ∃ e, (∀ room, 0 < room →
        Template.parse room ("\x7b\x7b " ++ dotted list i names ++ " \x7d\x7d") =
          .ok ⟨[.print e ⟨false, false⟩ ⟨1, 1⟩], []⟩) ∧
      ∀ {σ : Type} (context : Context σ) (pass : Pass σ), pass.vars = vars →
        (eval context e).on pass =
          (ofFault ((item.select (joinWith "." names)).map .plain)).on pass ∧
        ((eval context e).on pass = (ofFault (vars.walk (dotted list i names))).on pass ↔
          ∀ fields, item = .obj fields → 1 < names.length →
            .ok (Value.field fields (joinWith "." names)) =
              Value.follow item (names.map .key)) := by
  obtain ⟨e, hSame, hParse⟩ := parse_dotted hList hShort hSome hNames
  refine ⟨e, hParse, fun context pass hVars => ?_⟩
  subst hVars
  have hEval : (eval context e).on pass =
      (ofFault ((item.select (joinWith "." names)).map .plain)).on pass :=
    eval_dotted hSame hList hItems hItem
  have hPlain (first second : Except Fault Value) :
      first.map Datum.plain = second.map Datum.plain ↔ first = second := by
    cases first <;> cases second <;> simp [Except.map]
  refine ⟨hEval, ?_⟩
  rw [hEval, Variables.walk_dotted hList hShort hItems hItem hSome hNames, on_ofFault_inj, hPlain]
  exact Value.select_joinWith_iff item hSome hNames

/-- A list with one object in it, which has another one inside. -/
def nestedVars : Variables :=
  [(.text "xs", .plain (.arr [.obj [("a", .obj [("b", .int 1)])]]))]

theorem dotted_follows_path_iff_nested :
    nestedVars.field "xs" = .plain (.arr [.obj [("a", .obj [("b", .int 1)])]]) ∧
    PathName "xs" ∧ (∀ name ∈ ["a", "b"], PathName name) ∧
    0 < Decimal.digitLimit ∧
    (∃ e, Template.parse Template.usualRoom "\x7b\x7b xs[0].a \x7d\x7d" =
        .ok ⟨[.print e ⟨false, false⟩ ⟨1, 1⟩], []⟩ ∧
      ∀ (context : Context Unit) (pass : Pass Unit), pass.vars = nestedVars →
        (eval context e).on pass = (ofFault (nestedVars.walk "xs[0].a")).on pass) ∧
    ∃ e, Template.parse Template.usualRoom "\x7b\x7b xs[0].a.b \x7d\x7d" =
        .ok ⟨[.print e ⟨false, false⟩ ⟨1, 1⟩], []⟩ ∧
      ∀ (context : Context Unit) (pass : Pass Unit), pass.vars = nestedVars →
        (eval context e).on pass ≠ (ofFault (nestedVars.walk "xs[0].a.b")).on pass := by
  have hName {name : String} (hChars : isNameText name.toList = true)
      (hPoint : '.' ∉ name.toList) (hWord : keyword? (toLower name) = none) : PathName name :=
    ⟨hChars, hPoint, hWord⟩
  have hList : PathName "xs" := hName (by decide) (by decide) (by decide)
  have hKeys : ∀ name ∈ ["a", "b"], PathName name := by
    simp only [List.forall_mem_cons]
    exact ⟨hName (by decide) (by decide) (by decide), hName (by decide) (by decide) (by decide),
      by simp⟩
  have hItems : nestedVars.field "xs" = .plain (.arr [.obj [("a", .obj [("b", .int 1)])]]) := rfl
  have hShort : 0 < Decimal.digitLimit := by decide +kernel
  have hRoom : 0 < Template.usualRoom := by decide
  refine ⟨hItems, hList, hKeys, hShort, ?_, ?_⟩
  · have hOne : ∀ name ∈ ["a"], PathName name := fun name hMem =>
      hKeys name (by simp [List.mem_singleton.mp hMem])
    obtain ⟨e, hParse, hValue⟩ :=
      dotted_follows_path_iff (i := 0) hList hShort hItems rfl (List.cons_ne_nil _ _) hOne
    refine ⟨e, hParse _ hRoom, fun context pass hVars => (hValue context pass hVars).2.mpr ?_⟩
    intro fields _ hMore
    exact absurd hMore (by decide)
  · obtain ⟨e, hParse, hValue⟩ :=
      dotted_follows_path_iff (i := 0) hList hShort hItems rfl (List.cons_ne_nil _ _) hKeys
    refine ⟨e, hParse _ hRoom, fun context pass hVars hSame => ?_⟩
    have hField := (hValue context pass hVars).2.mp hSame _ rfl (by decide)
    cases hField

/-- The path leads to a number. Nothing is printed for it. -/
theorem dotted_path_lost :
    nestedVars.walk "xs[0].a.b" = .ok (.plain (.int 1)) ∧
    ((Engine.new {} [] 0 : Engine Nat).renderText "\x7b\x7bxs[0].a.b\x7d\x7d" nestedVars "").1 =
      .ok "" :=
  ⟨rfl, by decide +kernel⟩

end Render

end NoteTemplate
