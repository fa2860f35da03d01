import NoteTemplate.Proofs.Deferred.FlagSound
import NoteTemplate.Proofs.Scope.Assignments
import NoteTemplate.Proofs.Scope.NoFalseAlarm

/-! What a name stands for once a template has bound it. An assignment and a
turn of a loop store a value under the plain name, and it stays there until
the name is bound again. A page variable is kept under the name in braces; no
template can store anything there, and it is looked at first. -/
namespace NoteTemplate

open Text Token

theorem ne_wrapped_of_assignable {assigned : String} (h : Assignable assigned) (name : String) :
    assigned ≠ Value.wrapped name :=
  fun hSame => not_assignable_wrapped name (hSame ▸ h)

theorem assignable_loop : Assignable "loop" := .inr (by decide +kernel)

section Wrapped

variable {P : Expr → Prop} (name : String)

open Node

mutual

/-- No part of a template assigns a name in braces. -/
theorem assigns_wrapped :
    ∀ node, All P Assignable node → assigns (Value.wrapped name) node = false
  | .text _ _, _ => by rw [assigns]
  | .print _ _ _, _ => by rw [assigns]
  | .conditional condition body branches otherwise _ _, hAll => by
      obtain ⟨-, hBody, hBranches, hOtherwise⟩ := hAll
      rw [assigns, assignsIn_wrapped body hBody, assignsInBranches_wrapped branches hBranches,
        assignsInOtherwise_wrapped otherwise hOtherwise]
      rfl
  | .loop _ _ _ _ _, _ => by rw [assigns]
  | .assign assigned _ _ _, hAll => by
      rw [assigns, beq_eq_false_iff_ne]
      exact ne_wrapped_of_assignable hAll.1 name

theorem assignsIn_wrapped :
    ∀ nodes, AllNodes P Assignable nodes → assignsIn (Value.wrapped name) nodes = false
  | [], _ => by rw [assignsIn]
  | node :: rest, hAll => by
      rw [assignsIn, assigns_wrapped node hAll.1, assignsIn_wrapped rest hAll.2]
      rfl

theorem assignsInBranches_wrapped : ∀ branches, AllBranches P Assignable branches →
    assignsInBranches (Value.wrapped name) branches = false
  | [], _ => by rw [assignsInBranches]
  | (_, body) :: rest, hAll => by
      rw [assignsInBranches, assignsIn_wrapped body hAll.2.1, assignsInBranches_wrapped rest hAll.2.2]
      rfl

theorem assignsInOtherwise_wrapped : ∀ body, AllOtherwise P Assignable body →
    assignsInOtherwise (Value.wrapped name) body = false
  | some body, hAll => by
      rw [assignsInOtherwise]
      exact assignsIn_wrapped body hAll
  | none, _ => by rw [assignsInOtherwise]

end

end Wrapped

theorem Variables.get_assign (vars : Variables) (name other : String) (d : Datum) :
    (vars.assign name d).get other = if other = name then d else vars.get other := by
  simp only [Variables.get, Variables.assign, Assoc.get?_set, Key.text.injEq]
  split <;> rfl

namespace Render

variable {σ : Type} {context : Context σ} {name : String}

/-- The names that a turn of a loop binds. -/
theorem get_bind {iterator : String} (h : name ≠ iterator) (hIndex : name ≠ iterator ++ "_index")
    (hLoop : name ≠ "loop") (vars : Variables) (item : Value) (index length : Nat) :
    (bind vars (bindings iterator item index length)).get name = vars.get name := by
  simp only [bind, bindings, List.foldl_cons, List.foldl_nil, Variables.get_assign, if_neg h,
    if_neg hIndex, if_neg hLoop]

/-- The item stands under the name of the iterator, unless the state of the
loop takes its place. -/
theorem get_bind_iterator (hLoop : name ≠ "loop") (vars : Variables) (item : Value)
    (index length : Nat) :
    (bind vars (bindings name item index length)).get name = .plain item := by
  have hIndex : name ≠ name ++ "_index" := by
    intro hSame
    have hLength := congrArg String.length hSame
    rw [String.length_append, show "_index".length = 6 from rfl] at hLength
    omega
  simp only [bind, bindings, List.foldl_cons, List.foldl_nil, Variables.get_assign, if_neg hIndex,
    if_neg hLoop, if_true]

/-- Rendering leaves alone what it does not assign. -/
theorem get_of_renderNodes {output text : String} {nodes : List Node} {pass behind : Pass σ}
    (hFree : Node.assignsIn name nodes = false)
    (h : (renderNodes context output nodes).on pass = (.ok text, behind)) :
    behind.vars.get name = pass.vars.get name := by
  have hKeeps : KeepsEntry (.text name) (renderNodes context output nodes) :=
    renderNodes_keepsEntry output nodes fun _ hKey => Key.text.inj hKey ▸ hFree
  have hSame := hKeeps pass
  rw [h] at hSame
  rw [Variables.get, Variables.get, hSame]

/-- Rendering a loop in the first pass begins a turn over an item in the second
one. -/
inductive BeginsTurn (context : Context σ) : Node → Pass σ → Value → Pass σ → Prop where
  | intro {iterator : String} {iterable : Expr} {body : List Node} {trim : Trim} {place : Place}
      {pass middle behind : Pass σ} {past future : List Value} {item : Value} {texts : List String}
      (hIterable : (eval context iterable).on pass =
        (.ok (.plain (.arr (past ++ item :: future))), middle))
      (hPast : (turns iterator (past ++ item :: future).length (renderNodes context "" body) 0
        past).on middle = (.ok texts, behind)) :
      BeginsTurn context (.loop iterator iterable body trim place) pass item
        { behind with
          vars := bind behind.vars
            (bindings iterator item past.length (past ++ item :: future).length) }

/-- A turn begins with the variables in front of the loop and its bindings. -/
theorem BeginsTurn.vars_eq {iterator : String} {iterable : Expr} {body : List Node} {trim : Trim}
    {place : Place} {pass start : Pass σ} {item : Value}
    (h : BeginsTurn context (.loop iterator iterable body trim place) pass item start) :
    ∃ index length, start.vars = bind pass.vars (bindings iterator item index length) := by
  cases h with
  | @intro _ _ _ _ _ _ _ _ past future _ _ hIterable hPast =>
      refine ⟨past.length, (past ++ item :: future).length, ?_⟩
      rw [← vars_of_eval hIterable, ← vars_of_turns hPast]

/-- Rendering parts in the first pass comes to a part in the second one, and
nothing binds the name on the way. -/
inductive Carries (context : Context σ) (name : String) :
    List Node → Pass σ → Node → Pass σ → Prop where
  | here {earlier later : List Node} {node : Node} {output text : String} {pass start : Pass σ}
      (hEarlier : (renderNodes context output earlier).on pass = (.ok text, start))
      (hFree : Node.assignsIn name earlier = false) :
      Carries context name (earlier ++ node :: later) pass node start
  | branch {first condition : Expr} {earlier later body inner : List Node} {node : Node}
      {branches before after : List (Expr × List Node)} {otherwise : Option (List Node)}
      {trim : Trim} {place : Place} {output text : String} {pass start middle behind there : Pass σ}
      {d : Datum}
      (hEarlier : (renderNodes context output earlier).on pass = (.ok text, start))
      (hFree : Node.assignsIn name earlier = false)
      (hBranches : (first, body) :: branches = before ++ (condition, inner) :: after)
      (hFails : Fails context before start middle)
      (hCondition : (eval context condition).on middle = (.ok d, behind)) (hTrue : d.truthy = true)
      (h : Carries context name inner behind node there) :
      Carries context name
        (earlier ++ .conditional first body branches otherwise trim place :: later) pass node there
  | otherwise {first : Expr} {earlier later body inner : List Node} {node : Node}
      {branches : List (Expr × List Node)} {trim : Trim} {place : Place} {output text : String}
      {pass start middle there : Pass σ}
      (hEarlier : (renderNodes context output earlier).on pass = (.ok text, start))
      (hFree : Node.assignsIn name earlier = false)
      (hFails : Fails context ((first, body) :: branches) start middle)
      (h : Carries context name inner middle node there) :
      Carries context name
        (earlier ++ .conditional first body branches (some inner) trim place :: later) pass node there
  | turn {iterator : String} {iterable : Expr} {earlier later body : List Node} {node : Node}
      {trim : Trim} {place : Place} {output text : String} {pass start inside there : Pass σ}
      {item : Value}
      (hEarlier : (renderNodes context output earlier).on pass = (.ok text, start))
      (hFree : Node.assignsIn name earlier = false)
      (hTurn : BeginsTurn context (.loop iterator iterable body trim place) start item inside)
      (hIterator : name ≠ iterator) (hIndex : name ≠ iterator ++ "_index") (hLoop : name ≠ "loop")
      (h : Carries context name body inside node there) :
      Carries context name (earlier ++ .loop iterator iterable body trim place :: later) pass node
        there

/-- A variable that is carried to a part has the value there that it had before. -/
theorem Carries.get_eq {nodes : List Node} {pass there : Pass σ} {node : Node}
    (h : Carries context name nodes pass node there) : there.vars.get name = pass.vars.get name := by
  induction h with
  | here hEarlier hFree => exact get_of_renderNodes hFree hEarlier
  | branch hEarlier hFree _ hFails hCondition _ _ ih =>
      rw [ih, vars_of_eval hCondition, hFails.vars_eq, get_of_renderNodes hFree hEarlier]
  | otherwise hEarlier hFree hFails _ ih =>
      rw [ih, hFails.vars_eq, get_of_renderNodes hFree hEarlier]
  | turn hEarlier hFree hTurn hIterator hIndex hLoop _ ih =>
      obtain ⟨index, length, hVars⟩ := hTurn.vars_eq
      rw [ih, hVars, get_bind hIterator hIndex hLoop, get_of_renderNodes hFree hEarlier]

/-- A turn binds nothing under a name in braces. -/
theorem BeginsTurn.get_wrapped {iterator : String} {iterable : Expr} {body : List Node}
    {trim : Trim} {place : Place} {pass start : Pass σ} {item : Value}
    (h : BeginsTurn context (.loop iterator iterable body trim place) pass item start)
    (hIterator : Assignable iterator) (page : String) :
    start.vars.get (Value.wrapped page) = pass.vars.get (Value.wrapped page) := by
  obtain ⟨index, length, hVars⟩ := h.vars_eq
  have hNotIterator := (ne_wrapped_of_assignable hIterator page).symm
  have hNotIndex := (ne_wrapped_of_assignable (Validate.assignable_index hIterator) page).symm
  have hNotLoop := (ne_wrapped_of_assignable assignable_loop page).symm
  rw [hVars, get_bind hNotIterator hNotIndex hNotLoop]

section Page

variable {P : Expr → Prop}

open Node

/-- A page variable under a name in braces is the same all through a
rendering. -/
theorem Carries.get_wrapped {nodes : List Node} {pass there : Pass σ} {node : Node}
    (h : Carries context name nodes pass node there) (hNames : AllNodes P Assignable nodes)
    (page : String) :
    there.vars.get (Value.wrapped page) = pass.vars.get (Value.wrapped page) := by
  induction h with
  | here hEarlier _ =>
      exact get_of_renderNodes (assignsIn_wrapped page _ (allNodes_of_append hNames).1) hEarlier
  | branch hEarlier _ hBranches hFails hCondition _ _ ih =>
      obtain ⟨hBefore, hFirst, hBody, hOthers, -⟩ := allNodes_of_append hNames
      have hInner := allNodes_of_branch hBranches ⟨hFirst, hBody, hOthers⟩
      rw [ih hInner, vars_of_eval hCondition, hFails.vars_eq,
        get_of_renderNodes (assignsIn_wrapped page _ hBefore) hEarlier]
  | otherwise hEarlier _ hFails _ ih =>
      obtain ⟨hBefore, -, -, -, hInner⟩ := allNodes_of_append hNames
      rw [ih hInner, hFails.vars_eq,
        get_of_renderNodes (assignsIn_wrapped page _ hBefore) hEarlier]
  | turn hEarlier _ hTurn _ _ _ _ ih =>
      obtain ⟨hBefore, hIterator, -, hBody⟩ := allNodes_of_append hNames
      rw [ih hBody, hTurn.get_wrapped hIterator,
        get_of_renderNodes (assignsIn_wrapped page _ hBefore) hEarlier]

end Page

/-! What a bound name evaluates to. -/

/-- A name of name characters is put neither to the resolver nor to the
structured data of the page. -/
theorem eval_of_isNameText (hName : Expr.isNameText name.toList = true) (place : Place)
    (pass : Pass σ) : (eval context (.identifier name place)).on pass =
      (ofFault (Variables.resolve pass.vars name)).on pass := by
  obtain ⟨c, rest, hChars, hStart, hRest⟩ := Expr.exists_of_isNameText hName
  have hNoColon (mark : List Char) (hMark : ':' ∈ mark) : startsWith mark name.toList = false := by
    rw [Bool.eq_false_iff]
    intro hStarts
    have hMem := (List.isPrefixOf_iff_prefix.mp hStarts).subset hMark
    rw [hChars, List.mem_cons] at hMem
    rcases hMem with hFirst | hLater
    · exact ne_of_class hStart ':' rfl hFirst.symm
    · exact ne_of_class (hRest _ hLater) ':' rfl rfl
  have hUnquoted : startsWith ['"'] name.toList = false := by
    rw [hChars, startsWith, List.isPrefixOf, Bool.and_eq_false_iff, beq_eq_false_iff_ne]
    exact .inl (ne_of_class hStart '"' rfl).symm
  have hSchema : Schema.isName name = false := hNoColon _ (by decide)
  have hOutside : (SelectorQuery.isName name || Prompt.isName name) = false := by
    rw [SelectorQuery.isName, Prompt.isName, hNoColon _ (by decide), hNoColon _ (by decide),
      hNoColon _ (by decide), hUnquoted]
    rfl
  rw [eval, evalName, hSchema, hOutside, if_neg Bool.false_ne_true, if_neg Bool.false_ne_true,
    Run.on_bind_ok (Run.on_get pass)]

theorem readable_of_isNameText (hName : Expr.isNameText name.toList = true) : Readable name := by
  obtain ⟨c, rest, hChars, hStart, hRest⟩ := Expr.exists_of_isNameText hName
  refine ⟨⟨c, rest, hChars, hStart⟩, solidEnd_of_forall fun d hMem => ?_⟩
  rw [hChars, List.mem_cons] at hMem
  rcases hMem with rfl | hLater
  · exact isBlank_of_isNameStart hStart
  · exact isBlank_of_isNameChar (hRest d hLater)

/-- What a name stands for that a template has bound to a value: a page
variable under the name in braces, if it holds anything, or else the value. -/
def bound (page : Variables) (name : String) (v : Value) : Datum :=
  let found := page.get (Value.wrapped name)
  if found.isNull then .plain v else found

/-- A plain name is evaluated to its variable, unless a name in braces hides it. -/
theorem eval_of_get (hName : Expr.isNameText name.toList = true) {v : Value}
    (hValue : v.isNull = false) {there : Pass σ} (hGet : there.vars.get name = .plain v)
    (place : Place) : (eval context (.identifier name place)).on there =
      (.ok (bound there.vars name v), there) := by
  have hField : there.vars.field name = bound there.vars name v := by
    rw [Variables.field, bound, hGet]
  have hFound : (bound there.vars name v).isNull = false := by
    rw [bound]
    split
    · exact hValue
    · next hWrapped => exact Bool.eq_false_iff.mpr hWrapped
  rw [eval_of_isNameText hName, on_ofFault, Variables.resolve,
    (readable_of_isNameText hName).strip_eq, hField, hFound]
  rfl

/-- An assignment of a value stores it under the name. -/
theorem get_of_assign {e : Expr} {v : Value} {trim : Trim} {place : Place} {output text : String}
    {pass behind start : Pass σ} (hValue : (eval context e).on pass = (.ok (.plain v), behind))
    (h : (renderNodes context output [.assign name e trim place]).on pass = (.ok text, start)) :
    start.vars = pass.vars.assign name (.plain v) := by
  have hAssign : (renderNode context (.assign name e trim place)).on pass =
      (.ok "", { behind with vars := behind.vars.assign name (.plain v) }) := by
    rw [renderNode, on_guarded, assign, Run.on_bind_ok hValue]
    rfl
  rw [renderNodes, Run.on_bind_ok hAssign] at h
  obtain ⟨cut, afterCut, hCut, h⟩ := of_on_bind h
  obtain ⟨⟨⟩, afterMark, hMark, h⟩ := of_on_bind h
  cases h
  have hCutVars := cutBehind_vars "" { behind with vars := behind.vars.assign name (.plain v) }
  have hMarkVars := markBehind_vars trim afterCut
  rw [hCut] at hCutVars
  rw [show (Node.assign name e trim place).trim = trim from rfl] at hMark
  rw [hMark] at hMarkVars
  rw [hMarkVars, hCutVars, ← vars_of_eval hValue]

/-- What a template binds shadows a page variable under the plain name. Behind
an assignment, and in a turn of a loop, the name evaluates to what was bound,
however deep in the following parts it stands, until it is bound again. Only a
page variable under the name in braces is found before it. -/
theorem binding_shadows {P : Expr → Prop} (hName : Expr.isNameText name.toList = true) :
    (∀ {e : Expr} {v : Value} {trim : Trim} {place : Place} {output text : String}
        {rest : List Node} {inner : Node} {pass behind start there : Pass σ},
      (eval context e).on pass = (.ok (.plain v), behind) → v.isNull = false →
      (renderNodes context output [.assign name e trim place]).on pass = (.ok text, start) →
      Node.AllNodes P Assignable rest → Carries context name rest start inner there →
      ∀ use, (eval context (.identifier name use)).on there =
        (.ok (bound pass.vars name v), there)) ∧
    (∀ {iterable : Expr} {body : List Node} {trim : Trim} {place : Place} {inner : Node}
        {item : Value} {pass start there : Pass σ},
      BeginsTurn context (.loop name iterable body trim place) pass item start →
      item.isNull = false → name ≠ "loop" →
      Node.AllNodes P Assignable body → Carries context name body start inner there →
      ∀ use, (eval context (.identifier name use)).on there =
        (.ok (bound pass.vars name item), there)) := by
  constructor
  · intro e v trim place output text rest inner pass behind start there hEval hValue hAssign hNames
      hCarries use
    have hStart := get_of_assign hEval hAssign
    have hGet : there.vars.get name = .plain v := by
      rw [hCarries.get_eq, hStart, Variables.get_assign, if_pos rfl]
    have hPage : there.vars.get (Value.wrapped name) = pass.vars.get (Value.wrapped name) := by
      rw [hCarries.get_wrapped hNames, hStart, Variables.get_assign,
        if_neg (ne_wrapped_of_assignable (.inr hName) name).symm]
    rw [eval_of_get hName hValue hGet, bound, bound, hPage]
  · intro iterable body trim place inner item pass start there hTurn hItem hLoop hNames hCarries use
    obtain ⟨index, length, hVars⟩ := hTurn.vars_eq
    have hGet : there.vars.get name = .plain item := by
      rw [hCarries.get_eq, hVars, get_bind_iterator hLoop]
    have hPage : there.vars.get (Value.wrapped name) = pass.vars.get (Value.wrapped name) := by
      rw [hCarries.get_wrapped hNames, hTurn.get_wrapped (.inr hName)]
    rw [eval_of_get hName hItem hGet, bound, bound, hPage]

/-- A loop over other titles, which assigns the name itself. -/
def titlesNode : Node :=
  .loop "title" (.identifier "titles" ⟨1, 43⟩)
    [.assign "title" (.literal .null ⟨1, 66⟩) ⟨false, false⟩ ⟨1, 53⟩] ⟨false, false⟩ ⟨1, 26⟩

/-- The title, in a condition. -/
def titleNode : Node :=
  .conditional (.identifier "title" ⟨1, 91⟩)
    [.print (.identifier "title" ⟨1, 101⟩) ⟨false, false⟩ ⟨1, 99⟩] [] none ⟨false, false⟩ ⟨1, 85⟩

/-- A page variable under the plain name, and one in braces that holds
nothing. -/
def titleVars : Variables :=
  [(.text "\x7b\x7btitle\x7d\x7d", .plain .null), (.text "title", .plain (.str "old")),
    (.text "titles", .plain (.arr [.str "a"]))]

/-- The pass behind the assignment of a title. -/
def titled : Pass Unit := { vars := titleVars.assign "title" (.plain (.str "new")), world := () }

/-- The rows of a table and what stands on the page under the name of a row. -/
def rowVars : Variables :=
  [(.text "rows", .plain (.arr [.str "a", .str "b"])), (.text "row", .plain (.str "old"))]

/-- The second turn of a loop over the rows. -/
def secondRow : Pass Unit := { vars := bind rowVars (bindings "row" (.str "b") 1 2), world := () }

theorem binding_shadows_title_and_row :
    (eval {} (.identifier "title" ⟨1, 101⟩)).on titled = (.ok (.plain (.str "new")), titled) ∧
      (eval {} (.identifier "row" ⟨1, 22⟩)).on secondRow =
        (.ok (.plain (.str "b")), secondRow) := by
  have hTitle : Expr.isNameText "title".toList = true := by decide +kernel
  have hAssign : (renderNodes {} "" [.assign "title" (.literal (.text "new") ⟨1, 16⟩)
      ⟨false, false⟩ ⟨1, 1⟩]).on { vars := titleVars, world := () } = (.ok "", titled) := rfl
  have hNames : Node.AllNodes (fun _ => True) Assignable [titlesNode, titleNode] :=
    ⟨⟨.inr hTitle, trivial, ⟨.inr hTitle, trivial⟩, trivial⟩,
      ⟨trivial, ⟨trivial, trivial⟩, trivial, trivial⟩, trivial⟩
  have hLoop : (renderNodes {} "" [titlesNode]).on titled = (.ok "", titled) := rfl
  have hNothing (pass : Pass Unit) : (renderNodes {} "" []).on pass = (.ok "", pass) := rfl
  have hPrint : Carries {} "title" ([] ++ .print (.identifier "title" ⟨1, 101⟩) ⟨false, false⟩
      ⟨1, 99⟩ :: []) titled (.print (.identifier "title" ⟨1, 101⟩) ⟨false, false⟩ ⟨1, 99⟩) titled :=
    .here (hNothing titled) rfl
  have hCondition : (eval {} (.identifier "title" ⟨1, 91⟩)).on titled =
      (.ok (.plain (.str "new")), titled) := rfl
  have hCarries : Carries {} "title" ([titlesNode] ++ titleNode :: []) titled _ titled :=
    .branch hLoop rfl (List.nil_append _).symm (.nil titled) hCondition rfl hPrint
  have hRow : Expr.isNameText "row".toList = true := by decide +kernel
  have hRows : (eval {} (.identifier "rows" ⟨1, 12⟩)).on { vars := rowVars, world := () } =
      (.ok (.plain (.arr ([Value.str "a"] ++ Value.str "b" :: []))),
        { vars := rowVars, world := () }) := rfl
  have hPast : (turns "row" ([Value.str "a"] ++ Value.str "b" :: []).length (renderNodes {} ""
      ([] ++ .print (.identifier "row" ⟨1, 22⟩) ⟨false, false⟩ ⟨1, 20⟩ :: [])) 0 [.str "a"]).on
      { vars := rowVars, world := () } = (.ok ["a"], { vars := rowVars, world := () }) := rfl
  have hTurn : BeginsTurn {} (.loop "row" (.identifier "rows" ⟨1, 12⟩)
      ([] ++ .print (.identifier "row" ⟨1, 22⟩) ⟨false, false⟩ ⟨1, 20⟩ :: []) ⟨false, false⟩ ⟨1, 1⟩)
      { vars := rowVars, world := () } (.str "b") secondRow := .intro hRows hPast
  have hInside : Node.AllNodes (fun _ => True) Assignable
      ([] ++ .print (.identifier "row" ⟨1, 22⟩) ⟨false, false⟩ ⟨1, 20⟩ :: []) := ⟨trivial, trivial⟩
  exact ⟨(binding_shadows hTitle).1 rfl rfl hAssign hNames hCarries ⟨1, 101⟩,
    (binding_shadows hRow).2 hTurn rfl (by decide) hInside (.here (hNothing secondRow) rfl) ⟨1, 22⟩⟩

/-- A title that is assigned and printed. -/
def newTitleText : String := "\x7b% set title = \"new\" %\x7d\x7b\x7btitle\x7d\x7d"

/-- The tokens of the title. -/
def newTitleTokens : List Token :=
  [⟨.tagStart, "\x7b%", ⟨0, 1, 1⟩, false, false⟩, ⟨.setWord, "set", ⟨3, 1, 4⟩, false, false⟩,
    ⟨.identifier, "title", ⟨7, 1, 8⟩, false, false⟩, ⟨.assign, "=", ⟨13, 1, 14⟩, false, false⟩,
    ⟨.string, "new", ⟨15, 1, 16⟩, false, false⟩, ⟨.tagEnd, "%\x7d", ⟨21, 1, 22⟩, false, false⟩,
    ⟨.variableStart, "\x7b\x7b", ⟨23, 1, 24⟩, false, false⟩,
    ⟨.identifier, "title", ⟨25, 1, 26⟩, false, false⟩,
    ⟨.variableEnd, "\x7d\x7d", ⟨30, 1, 31⟩, false, false⟩,
    ⟨.endOfText, "", ⟨32, 1, 33⟩, false, false⟩]

/-- The title as it is read. -/
def newTitleNodes : List Node :=
  [.assign "title" (.literal (.text "new") ⟨1, 16⟩) ⟨false, false⟩ ⟨1, 1⟩,
    .print (.identifier "title" ⟨1, 26⟩) ⟨false, false⟩ ⟨1, 24⟩]

/-- A page variable under the name in braces shadows an assignment. -/
theorem braces_shadow_binding :
    Template.parse Template.usualRoom newTitleText = .ok ⟨newTitleNodes, []⟩ ∧
      (render {} false newTitleNodes [(.text "\x7b\x7btitle\x7d\x7d", .plain (.str "old"))] ()).1 =
        .ok ⟨"old", [], false⟩ := by
  constructor
  · have hScan : Token.scan newTitleText = .ok newTitleTokens := by decide +kernel
    have hBlocks : (BlockMap.ofTokens newTitleTokens).blocks = [] := by decide +kernel
    have hIssues : (BlockMap.ofTokens newTitleTokens).issues = [] := by decide +kernel
    have hMap : BlockMap.ofTokens newTitleTokens = ⟨[], []⟩ := by rw [← hBlocks, ← hIssues]
    rw [Template.parse_of_scan hScan, hMap]
    rfl
  · rfl

end Render

end NoteTemplate
