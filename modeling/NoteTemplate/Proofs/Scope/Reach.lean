import NoteTemplate.Proofs.Scope.Keys

/-! Which expressions a rendering evaluates, and in which passes. Whatever it
comes to is a use that the check knows of, and the variables have no other
names there than those that the check takes to be assigned. -/
namespace NoteTemplate.Render

open Validate

variable {σ : Type}

/-- Evaluating the first expression in the first pass comes to evaluating the
second in the second one. -/
inductive EvalReaches (context : Context σ) : Expr → Pass σ → Expr → Pass σ → Prop where
  | here (e : Expr) (pass : Pass σ) : EvalReaches context e pass e pass
  | negated {argument part : Expr} {place : Place} {pass there : Pass σ}
      (h : EvalReaches context argument pass part there) :
      EvalReaches context (.not argument place) pass part there
  | grouped {inner part : Expr} {place : Place} {pass there : Pass σ}
      (h : EvalReaches context inner pass part there) :
      EvalReaches context (.group inner place) pass part there
  | left {operator : Operator} {left right part : Expr} {place : Place} {pass there : Pass σ}
      (h : EvalReaches context left pass part there) :
      EvalReaches context (.binary operator left right place) pass part there
  | right {operator : Operator} {left right part : Expr} {place : Place}
      {pass middle there : Pass σ} {d : Datum}
      (hLeft : (eval context left).on pass = (.ok d, middle))
      (hFallback : operator = .fallback → d.nullish = true)
      (h : EvalReaches context right middle part there) :
      EvalReaches context (.binary operator left right place) pass part there
  | object {object part : Expr} {name : String} {place : Place} {pass there : Pass σ}
      (h : EvalReaches context object pass part there) :
      EvalReaches context (.member object name place) pass part there
  | indexed {object key part : Expr} {place : Place} {pass there : Pass σ}
      (h : EvalReaches context object pass part there) :
      EvalReaches context (.index object key place) pass part there
  | key {object key part : Expr} {place : Place} {pass middle there : Pass σ} {d : Datum}
      (hObject : (eval context object).on pass = (.ok d, middle))
      (h : EvalReaches context key middle part there) :
      EvalReaches context (.index object key place) pass part there
  | filtered {value part : Expr} {name : String} {args : List Expr} {separators : List Separator}
      {parenthesized : Bool} {place : Place} {pass there : Pass σ}
      (h : EvalReaches context value pass part there) :
      EvalReaches context (.filter value name args separators parenthesized place) pass part there
  | argument {value arg part : Expr} {name : String} {before after : List Expr}
      {separators : List Separator} {parenthesized : Bool} {place : Place}
      {pass middle behind there : Pass σ} {d : Datum} {values : List Value}
      (hValue : (eval context value).on pass = (.ok d, middle))
      (hBefore : (evalArgs context before).on middle = (.ok values, behind))
      (h : EvalReaches context arg behind part there) :
      EvalReaches context
        (.filter value name (before ++ arg :: after) separators parenthesized place) pass part there

/-- The conditions of some branches fail one behind the other. -/
inductive Fails (context : Context σ) : List (Expr × List Node) → Pass σ → Pass σ → Prop where
  | nil (pass : Pass σ) : Fails context [] pass pass
  | cons {condition : Expr} {body : List Node} {rest : List (Expr × List Node)}
      {pass middle behind : Pass σ} {d : Datum}
      (hCondition : (eval context condition).on pass = (.ok d, middle)) (hFalse : d.truthy = false)
      (h : Fails context rest middle behind) :
      Fails context ((condition, body) :: rest) pass behind

/-- Rendering a part in the first pass comes to evaluating an expression in the
second one. A body is rendered up to the part in which that happens, a loop
turn by turn. -/
inductive Reaches (context : Context σ) : Node → Pass σ → Expr → Pass σ → Prop where
  | print {e part : Expr} {trim : Trim} {place : Place} {pass there : Pass σ}
      (hNoPrompt : e.promptSource? = none) (h : EvalReaches context e pass part there) :
      Reaches context (.print e trim place) pass part there
  | assign {name : String} {e part : Expr} {trim : Trim} {place : Place} {pass there : Pass σ}
      (h : EvalReaches context e pass part there) :
      Reaches context (.assign name e trim place) pass part there
  | condition {first condition part : Expr} {body inner : List Node}
      {branches before after : List (Expr × List Node)} {otherwise : Option (List Node)}
      {trim : Trim} {place : Place} {pass middle there : Pass σ}
      (hBranches : (first, body) :: branches = before ++ (condition, inner) :: after)
      (hFails : Fails context before pass middle)
      (h : EvalReaches context condition middle part there) :
      Reaches context (.conditional first body branches otherwise trim place) pass part there
  | branch {first condition part : Expr} {body earlier later : List Node} {node : Node}
      {branches before after : List (Expr × List Node)} {otherwise : Option (List Node)}
      {trim : Trim} {place : Place} {pass middle behind start there : Pass σ} {d : Datum}
      {text : String}
      (hBranches :
        (first, body) :: branches = before ++ (condition, earlier ++ node :: later) :: after)
      (hFails : Fails context before pass middle)
      (hCondition : (eval context condition).on middle = (.ok d, behind)) (hTrue : d.truthy = true)
      (hEarlier : (renderNodes context "" earlier).on behind = (.ok text, start))
      (h : Reaches context node start part there) :
      Reaches context (.conditional first body branches otherwise trim place) pass part there
  | otherwise {first part : Expr} {body earlier later : List Node} {node : Node}
      {branches : List (Expr × List Node)} {trim : Trim} {place : Place}
      {pass middle start there : Pass σ} {text : String}
      (hFails : Fails context ((first, body) :: branches) pass middle)
      (hEarlier : (renderNodes context "" earlier).on middle = (.ok text, start))
      (h : Reaches context node start part there) :
      Reaches context
        (.conditional first body branches (some (earlier ++ node :: later)) trim place) pass part
        there
  | iterable {iterator : String} {iterable part : Expr} {body : List Node} {trim : Trim}
      {place : Place} {pass there : Pass σ} (h : EvalReaches context iterable pass part there) :
      Reaches context (.loop iterator iterable body trim place) pass part there
  | turn {iterator : String} {iterable part : Expr} {body earlier later : List Node} {node : Node}
      {trim : Trim} {place : Place} {pass middle behind start there : Pass σ}
      {items past future : List Value} {item : Value} {texts : List String} {text : String}
      (hIterable : (eval context iterable).on pass = (.ok (.plain (.arr items)), middle))
      (hItems : items = past ++ item :: future)
      (hPast : (turns iterator items.length (renderNodes context "" body) 0 past).on middle =
        (.ok texts, behind))
      (hBody : body = earlier ++ node :: later)
      (hEarlier : (renderNodes context "" earlier).on
        { behind with
          vars := bind behind.vars (bindings iterator item past.length items.length) } =
        (.ok text, start))
      (h : Reaches context node start part there) :
      Reaches context (.loop iterator iterable body trim place) pass part there

/-- Rendering parts one behind the other comes to evaluating an expression. -/
def ReachesIn (context : Context σ) (nodes : List Node) (pass : Pass σ) (part : Expr)
    (there : Pass σ) : Prop :=
  ∃ earlier node later text start, nodes = earlier ++ node :: later ∧
    (renderNodes context "" earlier).on pass = (.ok text, start) ∧
      Reaches context node start part there

variable {context : Context σ} {known scope : List String}

theorem vars_of_eval {e : Expr} {d : Datum} {pass behind : Pass σ}
    (h : (eval context e).on pass = (.ok d, behind)) : behind.vars = pass.vars := by
  have hVars : ((eval context e).on pass).2.vars = pass.vars := eval_vars e pass
  rwa [h] at hVars

theorem vars_of_evalArgs {args : List Expr} {values : List Value} {pass behind : Pass σ}
    (h : (evalArgs context args).on pass = (.ok values, behind)) : behind.vars = pass.vars := by
  have hVars : ((evalArgs context args).on pass).2.vars = pass.vars := evalArgs_vars args pass
  rwa [h] at hVars

/-- Evaluating a filter comes to the filter itself, to its value or to an argument. -/
theorem EvalReaches.of_filter {value part : Expr} {name : String} {args : List Expr}
    {separators : List Separator} {parenthesized : Bool} {place : Place} {pass there : Pass σ}
    (h : EvalReaches context (.filter value name args separators parenthesized place) pass part
      there) :
    (part = .filter value name args separators parenthesized place ∧ there = pass) ∨
      EvalReaches context value pass part there ∨
      ∃ arg ∈ args, ∃ middle, EvalReaches context arg middle part there := by
  cases h with
  | here => exact .inl ⟨rfl, rfl⟩
  | filtered h => exact .inr (.inl h)
  | argument hValue hBefore h =>
      exact .inr (.inr ⟨_, List.mem_append_right _ List.mem_cons_self, _, h⟩)

/-- Evaluation leaves the variables as they are, up to any part that it reaches. -/
theorem EvalReaches.vars_eq {e part : Expr} {pass there : Pass σ}
    (h : EvalReaches context e pass part there) : there.vars = pass.vars := by
  induction h with
  | here e pass => rfl
  | negated _ ih => exact ih
  | grouped _ ih => exact ih
  | left _ ih => exact ih
  | right hLeft _ _ ih => exact ih.trans (vars_of_eval hLeft)
  | object _ ih => exact ih
  | indexed _ ih => exact ih
  | key hObject _ ih => exact ih.trans (vars_of_eval hObject)
  | filtered _ ih => exact ih
  | argument hValue hBefore _ ih =>
      exact ih.trans ((vars_of_evalArgs hBefore).trans (vars_of_eval hValue))

theorem occurrences_subset_occurrencesAll (before : List Expr) (e : Expr) (after : List Expr) :
    e.occurrences ⊆ Expr.occurrencesAll (before ++ e :: after) := by
  induction before with
  | nil => exact List.subset_append_left _ _
  | cons first rest ih => exact List.subset_append_of_subset_right _ ih

/-- What evaluating an expression comes to has no other names than the
expression. -/
theorem EvalReaches.occurrences_subset {e part : Expr} {pass there : Pass σ}
    (h : EvalReaches context e pass part there) : part.occurrences ⊆ e.occurrences := by
  induction h with
  | here e pass => exact List.Subset.refl _
  | negated _ ih => rwa [Expr.occurrences]
  | grouped _ ih => rwa [Expr.occurrences]
  | left _ ih =>
      rw [Expr.occurrences]
      exact List.subset_append_of_subset_left _ ih
  | right _ _ _ ih =>
      rw [Expr.occurrences]
      exact List.subset_append_of_subset_right _ ih
  | object _ ih => rwa [Expr.occurrences]
  | indexed _ ih =>
      rw [Expr.occurrences]
      exact List.subset_append_of_subset_left _ ih
  | key _ _ ih =>
      rw [Expr.occurrences]
      exact List.subset_append_of_subset_right _ ih
  | filtered _ ih =>
      rw [Expr.occurrences]
      exact List.subset_append_of_subset_left _ ih
  | @argument value arg part name before after _ _ _ _ _ _ _ _ _ _ _ _ ih =>
      rw [Expr.occurrences]
      exact List.subset_append_of_subset_right _
        (List.Subset.trans ih (occurrences_subset_occurrencesAll before arg after))

theorem Fails.vars_eq {branches : List (Expr × List Node)} {pass behind : Pass σ}
    (h : Fails context branches pass behind) : behind.vars = pass.vars := by
  induction h with
  | nil pass => rfl
  | cons hCondition _ _ ih => exact ih.trans (vars_of_eval hCondition)

/-- Behind conditions that fail, the rest of the branches decides. -/
theorem on_renderBranches_of_fails {otherwise : Run σ String} {before : List (Expr × List Node)}
    {pass middle : Pass σ} (h : Fails context before pass middle) (rest : List (Expr × List Node)) :
    (renderBranches context otherwise (before ++ rest)).on pass =
      (renderBranches context otherwise rest).on middle := by
  induction h with
  | nil pass => rfl
  | cons hCondition hFalse _ ih =>
      rw [List.cons_append, renderBranches, Run.on_bind_ok hCondition, hFalse]
      exact ih

/-- A use of a name in a list of uses, with a scope that bounds the names of
some variables. -/
def Noted (known : List String) (uses : List Reference) (name : String) (place : Place)
    (vars : Variables) : Prop :=
  ∃ r ∈ uses, r.name = name ∧ r.place = place ∧ KeysWithin known r.scope vars

theorem Noted.mono {uses more : List Reference} {name : String} {place : Place} {vars : Variables}
    (h : Noted known uses name place vars) (hUses : uses ⊆ more) :
    Noted known more name place vars := by
  obtain ⟨r, hMem, hRest⟩ := h
  exact ⟨r, hUses hMem, hRest⟩

/-- An expression that is evaluated with suitable variables notes its names. -/
theorem EvalReaches.noted {e : Expr} {name : String} {place : Place} {pass there : Pass σ}
    (h : EvalReaches context e pass (.identifier name place) there)
    (hKeys : KeysWithin known scope pass.vars) :
    Noted known (refer scope e.occurrences) name place there.vars := by
  have hMem : (name, place) ∈ e.occurrences :=
    h.occurrences_subset (by rw [Expr.occurrences]; exact List.mem_singleton_self _)
  refine ⟨⟨name, place, scope⟩, List.mem_map.mpr ⟨(name, place), hMem, rfl⟩, rfl, rfl, ?_⟩
  rw [h.vars_eq]
  exact hKeys

/-- Behind parts, the keys of the variables are those that the analysis says. -/
theorem keys_of_renderNodes {output text : String} {nodes : List Node} {pass behind : Pass σ}
    (h : (renderNodes context output nodes).on pass = (.ok text, behind))
    (hKeys : KeysWithin known scope pass.vars) :
    KeysWithin known (ofNodes scope nodes).2 behind.vars := by
  have hAssigns : Assigns known scope (ofNodes scope nodes).2 (renderNodes context output nodes) :=
    renderNodes_assigns scope output nodes
  have hBehind := hAssigns pass hKeys
  rwa [h] at hBehind

theorem vars_of_turns {iterator : String} {length index : Nat} {body : Run σ String}
    {items : List Value} {texts : List String} {pass behind : Pass σ}
    (h : (turns iterator length body index items).on pass = (.ok texts, behind)) :
    behind.vars = pass.vars := by
  have hVars := turns_vars iterator length body index items pass
  rwa [h] at hVars

/-- The uses of a condition are those of its branches, the first one among
them, and those of the branch without a condition. -/
theorem usesOfNode_conditional (scope : List String) (first : Expr) (body : List Node)
    (branches : List (Expr × List Node)) (otherwise : Option (List Node)) (trim : Trim)
    (place : Place) : usesOfNode scope (.conditional first body branches otherwise trim place) =
      usesOfBranches scope ((first, body) :: branches) ++
        usesOfOtherwise (ofBranches scope ((first, body) :: branches)).2 otherwise := by
  rw [usesOfNode, usesOfBranches, ofBranches_cons]

/-- Wherever rendering a part comes to a name, the check has noted the name
with a scope to which the variables keep. -/
theorem Reaches.noted {node : Node} {part : Expr} {pass there : Pass σ}
    (h : Reaches context node pass part there) {name : String} {place : Place}
    (hPart : part = .identifier name place) (hKeys : KeysWithin known scope pass.vars) :
    Noted known (usesOfNode scope node) name place there.vars := by
  induction h generalizing scope with
  | print _ h =>
      subst hPart
      rw [usesOfNode]
      exact h.noted hKeys
  | assign h =>
      subst hPart
      rw [usesOfNode]
      exact h.noted (hKeys.mono (List.subset_cons_self _ scope))
  | @condition first condition part body inner branches before after _ _ _ _ _ _ hBranches hFails h =>
      subst hPart
      rw [usesOfNode_conditional, hBranches]
      have hMiddle : KeysWithin known (ofBranches scope before).2 _ :=
        (hFails.vars_eq ▸ hKeys).mono (scope_subset_ofBranches scope before)
      have hUses := usesOfBranch_subset before condition inner after scope
      refine (h.noted hMiddle).mono (List.subset_append_of_subset_left _ ?_)
      exact List.Subset.trans (List.subset_append_left _ _) hUses
  | @branch first condition part body earlier later node branches before after _ _ _ _ _ _ _ _ _ _
      hBranches hFails hCondition _ hEarlier _ ih =>
      rw [usesOfNode_conditional, hBranches]
      have hMiddle : KeysWithin known (ofBranches scope before).2 _ :=
        (hFails.vars_eq ▸ hKeys).mono (scope_subset_ofBranches scope before)
      have hStart := keys_of_renderNodes hEarlier (vars_of_eval hCondition ▸ hMiddle)
      have hUses := usesOfBranch_subset before condition (earlier ++ node :: later) after scope
      refine (ih hPart hStart).mono (List.subset_append_of_subset_left _ ?_)
      have hBody := usesOfNode_subset earlier node later (ofBranches scope before).2
      exact List.Subset.trans hBody (List.Subset.trans (List.subset_append_right _ _) hUses)
  | @otherwise first part body earlier later node branches _ _ _ _ _ _ _ hFails hEarlier _ ih =>
      rw [usesOfNode_conditional, usesOfOtherwise]
      have hMiddle : KeysWithin known (ofBranches scope ((first, body) :: branches)).2 _ :=
        (hFails.vars_eq ▸ hKeys).mono (scope_subset_ofBranches scope _)
      have hStart := keys_of_renderNodes hEarlier hMiddle
      refine (ih hPart hStart).mono (List.subset_append_of_subset_right _ ?_)
      exact usesOfNode_subset earlier node later _
  | iterable h =>
      subst hPart
      rw [usesOfNode]
      exact (h.noted hKeys).mono (List.subset_append_left _ _)
  | @turn iterator iterable part body earlier later node _ _ _ _ _ _ _ items past future item _ _
      hIterable _ hPast hBody hEarlier _ ih =>
      rw [usesOfNode, hBody]
      have hBehind := (vars_of_turns hPast).trans (vars_of_eval hIterable)
      have hTurn := (hBehind ▸ hKeys).bind iterator item past.length items.length
      have hStart := keys_of_renderNodes hEarlier hTurn
      refine (ih hPart hStart).mono (List.subset_append_of_subset_right _ ?_)
      exact usesOfNode_subset earlier node later _

theorem ReachesIn.noted {nodes : List Node} {name : String} {place : Place} {pass there : Pass σ}
    (h : ReachesIn context nodes pass (.identifier name place) there)
    (hKeys : KeysWithin known scope pass.vars) :
    Noted known (usesOfNodes scope nodes) name place there.vars := by
  obtain ⟨earlier, node, later, text, start, rfl, hEarlier, hReaches⟩ := h
  have hStart := keys_of_renderNodes hEarlier hKeys
  exact (hReaches.noted rfl hStart).mono (usesOfNode_subset earlier node later scope)

end NoteTemplate.Render
