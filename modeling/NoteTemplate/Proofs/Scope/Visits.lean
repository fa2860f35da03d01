import NoteTemplate.Proofs.Scope.Reach

/-! The parts that a rendering comes to, and in which passes. Whatever a part
comes to that is in another one, the other one comes to as well, and what holds of
all expressions in a template holds of those in the parts. -/
namespace NoteTemplate.Render

variable {σ : Type} {context : Context σ}

/-- Rendering the first part in the first pass comes to rendering the second in
the second one. -/
inductive Visits (context : Context σ) : Node → Pass σ → Node → Pass σ → Prop where
  | here (node : Node) (pass : Pass σ) : Visits context node pass node pass
  | branch {first condition : Expr} {body earlier later : List Node} {node inner : Node}
      {branches before after : List (Expr × List Node)} {otherwise : Option (List Node)}
      {trim : Trim} {place : Place} {pass middle behind start there : Pass σ} {d : Datum}
      {text : String}
      (hBranches :
        (first, body) :: branches = before ++ (condition, earlier ++ node :: later) :: after)
      (hFails : Fails context before pass middle)
      (hCondition : (eval context condition).on middle = (.ok d, behind)) (hTrue : d.truthy = true)
      (hEarlier : (renderNodes context "" earlier).on behind = (.ok text, start))
      (h : Visits context node start inner there) :
      Visits context (.conditional first body branches otherwise trim place) pass inner there
  | otherwise {first : Expr} {body earlier later : List Node} {node inner : Node}
      {branches : List (Expr × List Node)} {trim : Trim} {place : Place}
      {pass middle start there : Pass σ} {text : String}
      (hFails : Fails context ((first, body) :: branches) pass middle)
      (hEarlier : (renderNodes context "" earlier).on middle = (.ok text, start))
      (h : Visits context node start inner there) :
      Visits context
        (.conditional first body branches (some (earlier ++ node :: later)) trim place) pass inner
        there
  | turn {iterator : String} {iterable : Expr} {earlier later : List Node} {node inner : Node}
      {trim : Trim} {place : Place} {pass middle behind start there : Pass σ}
      {past future : List Value} {item : Value} {texts : List String} {text : String}
      (hIterable : (eval context iterable).on pass =
        (.ok (.plain (.arr (past ++ item :: future))), middle))
      (hPast : (turns iterator (past ++ item :: future).length
        (renderNodes context "" (earlier ++ node :: later)) 0 past).on middle = (.ok texts, behind))
      (hEarlier : (renderNodes context "" earlier).on
        { behind with
          vars := bind behind.vars
            (bindings iterator item past.length (past ++ item :: future).length) } =
        (.ok text, start))
      (h : Visits context node start inner there) :
      Visits context (.loop iterator iterable (earlier ++ node :: later) trim place) pass inner there

/-- Rendering parts one behind the other comes to rendering a part. -/
def VisitsIn (context : Context σ) (nodes : List Node) (pass : Pass σ) (inner : Node)
    (there : Pass σ) : Prop :=
  ∃ earlier node later text start, nodes = earlier ++ node :: later ∧
    (renderNodes context "" earlier).on pass = (.ok text, start) ∧
      Visits context node start inner there

/-- What the branch comes to whose condition holds, the whole condition comes to. -/
theorem VisitsIn.branch {first condition : Expr} {body inside : List Node} {inner : Node}
    {branches before after : List (Expr × List Node)} {otherwise : Option (List Node)}
    {trim : Trim} {place : Place} {pass middle behind there : Pass σ} {d : Datum}
    (h : VisitsIn context inside behind inner there)
    (hBranches : (first, body) :: branches = before ++ (condition, inside) :: after)
    (hFails : Fails context before pass middle)
    (hCondition : (eval context condition).on middle = (.ok d, behind)) (hTrue : d.truthy = true) :
    Visits context (.conditional first body branches otherwise trim place) pass inner there := by
  obtain ⟨earlier, node, later, text, start, rfl, hEarlier, hVisits⟩ := h
  exact .branch hBranches hFails hCondition hTrue hEarlier hVisits

/-- The same for the branch without a condition. -/
theorem VisitsIn.otherwise {first : Expr} {body inside : List Node} {inner : Node}
    {branches : List (Expr × List Node)} {trim : Trim} {place : Place}
    {pass middle there : Pass σ} (h : VisitsIn context inside middle inner there)
    (hFails : Fails context ((first, body) :: branches) pass middle) :
    Visits context (.conditional first body branches (some inside) trim place) pass inner there := by
  obtain ⟨earlier, node, later, text, start, rfl, hEarlier, hVisits⟩ := h
  exact .otherwise hFails hEarlier hVisits

/-- The same for a turn of a loop. -/
theorem VisitsIn.turn {iterator : String} {iterable : Expr} {body : List Node} {inner : Node}
    {trim : Trim} {place : Place} {pass middle behind there : Pass σ} {past future : List Value}
    {item : Value} {texts : List String}
    (h : VisitsIn context body
      { behind with
        vars := bind behind.vars
          (bindings iterator item past.length (past ++ item :: future).length) } inner there)
    (hIterable : (eval context iterable).on pass =
      (.ok (.plain (.arr (past ++ item :: future))), middle))
    (hPast : (turns iterator (past ++ item :: future).length (renderNodes context "" body) 0
      past).on middle = (.ok texts, behind)) :
    Visits context (.loop iterator iterable body trim place) pass inner there := by
  obtain ⟨earlier, node, later, text, start, rfl, hEarlier, hVisits⟩ := h
  exact .turn hIterable hPast hEarlier hVisits

/-- What stands in front of parts makes no difference to the passes. -/
theorem on_renderNodes_behind {output text : String} {nodes : List Node} {pass behind : Pass σ}
    (h : (renderNodes context output nodes).on pass = (.ok text, behind)) (front : String) :
    ∃ other, (renderNodes context front nodes).on pass = (.ok other, behind) := by
  induction nodes generalizing output front pass with
  | nil =>
      rw [renderNodes] at h
      cases h
      exact ⟨front, by rw [renderNodes]; rfl⟩
  | cons node rest ih =>
      rw [renderNodes] at h
      obtain ⟨_, _, hNode, h⟩ := of_on_bind h
      obtain ⟨_, _, hCut, h⟩ := of_on_bind h
      obtain ⟨_, _, hMark, h⟩ := of_on_bind h
      rw [renderNodes, Run.on_bind_ok hNode, Run.on_bind_ok hCut, Run.on_bind_ok hMark]
      exact ih h _

/-- What a later part comes to, the parts from an earlier one on come to. -/
theorem VisitsIn.cons {first : Node} {rest : List Node} {inner : Node} {text : String}
    {pass start there : Pass σ} (hFirst : (renderNodes context "" [first]).on pass = (.ok text, start))
    (h : VisitsIn context rest start inner there) :
    VisitsIn context (first :: rest) pass inner there := by
  obtain ⟨earlier, node, later, _, middle, rfl, hEarlier, hVisits⟩ := h
  obtain ⟨whole, hWhole⟩ := on_renderNodes_behind hEarlier text
  have hFront : (renderNodes context "" (first :: earlier)).on pass = (.ok whole, middle) := by
    rw [← List.singleton_append, on_renderNodes_append hFirst, hWhole]
  exact ⟨first :: earlier, node, later, whole, middle, rfl, hFront, hVisits⟩

/-- Whatever a part comes to evaluate, the part that comes to it does. -/
theorem Visits.reaches {node inner : Node} {part : Expr} {pass there later : Pass σ}
    (h : Visits context node pass inner there) (hInner : Reaches context inner there part later) :
    Reaches context node pass part later := by
  induction h with
  | here node pass => exact hInner
  | branch hBranches hFails hCondition hTrue hEarlier _ ih =>
      exact .branch hBranches hFails hCondition hTrue hEarlier (ih hInner)
  | otherwise hFails hEarlier _ ih => exact .otherwise hFails hEarlier (ih hInner)
  | turn hIterable hPast hEarlier _ ih =>
      exact .turn hIterable rfl hPast rfl hEarlier (ih hInner)

theorem VisitsIn.reaches {nodes : List Node} {inner : Node} {part : Expr} {pass there later : Pass σ}
    (h : VisitsIn context nodes pass inner there) (hInner : Reaches context inner there part later) :
    ReachesIn context nodes pass part later := by
  obtain ⟨earlier, node, rest, text, start, rfl, hEarlier, hVisits⟩ := h
  exact ⟨earlier, node, rest, text, start, rfl, hEarlier, hVisits.reaches hInner⟩

/-- What holds of all expressions in a part holds of those in the parts it comes to. -/
theorem Visits.all {P : Expr → Prop} {Q : String → Prop} {node inner : Node} {pass there : Pass σ}
    (h : Visits context node pass inner there) (hAll : node.All P Q) : inner.All P Q := by
  induction h with
  | here node pass => exact hAll
  | branch hBranches _ _ _ _ _ ih =>
      obtain ⟨hFirst, hBody, hOthers, -⟩ := hAll
      exact ih (Node.allNodes_of_append (Node.allNodes_of_branch hBranches
        ⟨hFirst, hBody, hOthers⟩)).2
  | otherwise _ _ _ ih => exact ih (Node.allNodes_of_append hAll.2.2.2).2
  | turn _ _ _ _ ih => exact ih (Node.allNodes_of_append hAll.2.2).2

theorem VisitsIn.all {P : Expr → Prop} {Q : String → Prop} {nodes : List Node} {inner : Node}
    {pass there : Pass σ} (h : VisitsIn context nodes pass inner there)
    (hAll : Node.AllNodes P Q nodes) : inner.All P Q := by
  obtain ⟨earlier, node, rest, text, start, rfl, -, hVisits⟩ := h
  exact hVisits.all (Node.allNodes_of_append hAll).2

/-- What the first parts come to, all of them come to. -/
theorem VisitsIn.append {nodes : List Node} {inner : Node} {pass there : Pass σ}
    (h : VisitsIn context nodes pass inner there) (more : List Node) :
    VisitsIn context (nodes ++ more) pass inner there := by
  obtain ⟨earlier, node, rest, text, start, rfl, hEarlier, hVisits⟩ := h
  exact ⟨earlier, node, rest ++ more, text, start, by simp, hEarlier, hVisits⟩

/-- What one part alone reaches. -/
theorem ReachesIn.of_singleton {node : Node} {part : Expr} {pass there : Pass σ}
    (h : ReachesIn context [node] pass part there) : Reaches context node pass part there := by
  obtain ⟨earlier, found, later, text, start, hNodes, hEarlier, hReaches⟩ := h
  obtain ⟨rfl, hRest⟩ | ⟨_, hRest⟩ := List.singleton_eq_append_iff.mp hNodes
  · cases hRest
    rw [renderNodes] at hEarlier
    cases hEarlier
    exact hReaches
  · cases hRest

/-- What is visited in one part alone. -/
theorem VisitsIn.of_singleton {node inner : Node} {pass there : Pass σ}
    (h : VisitsIn context [node] pass inner there) : Visits context node pass inner there := by
  obtain ⟨earlier, found, later, text, start, hNodes, hEarlier, hVisits⟩ := h
  obtain ⟨rfl, hRest⟩ | ⟨_, hRest⟩ := List.singleton_eq_append_iff.mp hNodes
  · cases hRest
    rw [renderNodes] at hEarlier
    cases hEarlier
    exact hVisits
  · cases hRest

theorem visitsIn_first {node inner : Node} {rest : List Node} {pass there : Pass σ}
    (h : Visits context node pass inner there) : VisitsIn context (node :: rest) pass inner there :=
  ⟨[], node, rest, "", pass, rfl, by rw [renderNodes]; rfl, h⟩

end NoteTemplate.Render
