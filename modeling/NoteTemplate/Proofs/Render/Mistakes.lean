import NoteTemplate.Proofs.Render.Parametric
import NoteTemplate.Proofs.Scope.Reach

/-! A part whose own evaluation ends in a mistake. It yields no text and leaves
the variables and the pending cut as they are, so that the parts around it are
rendered as they would be without it, and one note more is made in its place. -/
namespace NoteTemplate.Render

variable {σ : Type} {context : Context σ} {R : σ → σ → Prop}

/-- A pass behind another one that differs at most in what was put off and in the
state of the resolver, where the states are related. -/
def Pass.Follows (R : σ → σ → Prop) (pass behind : Pass σ) : Prop :=
  ∃ deferred world, R pass.world world ∧ behind = { pass with deferred, world }

theorem Pass.Follows.trans (hR : Equivalence R) {pass middle behind : Pass σ}
    (hFirst : pass.Follows R middle) (hSecond : middle.Follows R behind) : pass.Follows R behind := by
  obtain ⟨put, world, hWorld, rfl⟩ := hFirst
  obtain ⟨deferred, last, hLast, rfl⟩ := hSecond
  exact ⟨deferred, last, hR.trans hWorld hLast, rfl⟩

/-- Evaluating leaves the variables, and moves the world. -/
theorem follows_of_eval {e : Expr} (hMoves : Moves R (eval context e)) {outcome : Except Stop Datum}
    {pass behind : Pass σ} (h : (eval context e).on pass = (outcome, behind)) :
    pass.Follows R behind := by
  obtain ⟨core, hCore⟩ : Detached (eval context e) := eval_detached e
  have hWorld := hMoves pass
  rw [h] at hWorld
  rw [hCore] at h
  obtain ⟨-, rfl⟩ := Prod.mk.inj h
  exact ⟨_, _, hWorld, rfl⟩

/-- Rendering a part ends in a mistake of its own: the expression to print or to
assign, a condition that is come to, or the list of a loop fails, or the loop is
over something else than a list. The message is the one to be noted, and the last
pass is the one behind the mistake. -/
inductive Mistaken (context : Context σ) : Node → Pass σ → String → Pass σ → Prop where
  | print {e : Expr} {trim : Trim} {place : Place} {pass behind : Pass σ} {message : String}
      (hNoPrompt : e.promptSource? = none)
      (h : (eval context e).on pass = (.error (.failed message), behind)) :
      Mistaken context (.print e trim place) pass ("Error evaluating variable: " ++ message) behind
  | assign {name : String} {e : Expr} {trim : Trim} {place : Place} {pass behind : Pass σ}
      {message : String} (h : (eval context e).on pass = (.error (.failed message), behind)) :
      Mistaken context (.assign name e trim place) pass ("Error in set: " ++ message) behind
  | condition {first condition : Expr} {body inner : List Node}
      {branches before after : List (Expr × List Node)} {otherwise : Option (List Node)}
      {trim : Trim} {place : Place} {pass middle behind : Pass σ} {message : String}
      (hBranches : (first, body) :: branches = before ++ (condition, inner) :: after)
      (hFails : Fails context before pass middle)
      (h : (eval context condition).on middle = (.error (.failed message), behind)) :
      Mistaken context (.conditional first body branches otherwise trim place) pass
        ("Error evaluating if condition: " ++ message) behind
  | iterable {iterator : String} {iterable : Expr} {body : List Node} {trim : Trim} {place : Place}
      {pass behind : Pass σ} {message : String}
      (h : (eval context iterable).on pass = (.error (.failed message), behind)) :
      Mistaken context (.loop iterator iterable body trim place) pass message behind
  | noList {iterator : String} {iterable : Expr} {body : List Node} {trim : Trim} {place : Place}
      {pass behind : Pass σ} {d : Datum} (h : (eval context iterable).on pass = (.ok d, behind))
      (hSome : d.isNull = false) (hNoList : ∀ items, d ≠ .plain (.arr items)) :
      Mistaken context (.loop iterator iterable body trim place) pass
        ("For loop iterable is not an array: " ++ d.kind) behind

/-- A condition with its branches in a row. -/
theorem on_conditional (first : Expr) (body : List Node) (branches : List (Expr × List Node))
    (otherwise : Option (List Node)) (trim : Trim) (place : Place) :
    renderNode context (.conditional first body branches otherwise trim place) =
      guarded ("Error evaluating if condition: " ++ ·) place
        (renderBranches context (renderOtherwise context otherwise) ((first, body) :: branches)) := by
  rw [renderNode, renderBranches]

/-- A mistaken part yields no text and notes its mistake. -/
theorem Mistaken.on_renderNode {node : Node} {pass behind : Pass σ} {message : String}
    (h : Mistaken context node pass message behind) : (renderNode context node).on pass =
      (.ok "", { behind with errors := ⟨message, some node.place⟩ :: behind.errors }) := by
  cases h with
  | print hNoPrompt h => simp only [renderNode, on_guarded, printed, hNoPrompt, Run.on_bind, h, Node.place]
  | assign h => simp only [renderNode, on_guarded, Render.assign, Run.on_bind, h, Node.place]
  | condition hBranches hFails h =>
      rw [on_conditional, hBranches, on_guarded, on_renderBranches_of_fails hFails, renderBranches,
        Run.on_bind, h]
      rfl
  | iterable h => simp only [renderNode, on_guarded, Run.on_bind, h, Node.place, id]
  | @noList _ _ _ _ _ _ _ d h hSome hNoList =>
      rw [renderNode, on_guarded, Run.on_bind, h]
      rcases d with v | source
      · cases v with
        | null => cases hSome
        | arr items => exact absurd rfl (hNoList items)
        | _ => rfl
      · rfl

theorem Fails.follows (hR : Equivalence R) (hMoves : ∀ e, Moves R (eval context e))
    {branches : List (Expr × List Node)} {pass behind : Pass σ}
    (h : Fails context branches pass behind) : pass.Follows R behind := by
  induction h with
  | nil pass => exact ⟨pass.deferred, pass.world, hR.refl pass.world, rfl⟩
  | cons hCondition _ _ ih => exact (follows_of_eval (hMoves _) hCondition).trans hR ih

/-- Behind a mistake, the variables, the notes and the pending cut are those
before it. -/
theorem Mistaken.follows (hR : Equivalence R) (hMoves : ∀ e, Moves R (eval context e))
    {node : Node} {pass behind : Pass σ} {message : String}
    (h : Mistaken context node pass message behind) : pass.Follows R behind := by
  cases h with
  | print _ h => exact follows_of_eval (hMoves _) h
  | assign h => exact follows_of_eval (hMoves _) h
  | condition _ hFails h =>
      exact (hFails.follows hR hMoves).trans hR (follows_of_eval (hMoves _) h)
  | iterable h => exact follows_of_eval (hMoves _) h
  | noList h => exact follows_of_eval (hMoves _) h

/-- Behind a mistaken part that cuts no blanks, the other parts go on with the text
so far, and with the note. -/
theorem Mistaken.on_renderNodes {node : Node} {start behind : Pass σ} {message : String}
    (h : Mistaken context node start message behind) (hTrim : node.trim = ⟨false, false⟩)
    (text : String) (after : List Node) : (renderNodes context text (node :: after)).on start =
      (renderNodes context text after).on
        { behind with errors := ⟨message, some node.place⟩ :: behind.errors } := by
  rw [renderNodes, Run.on_bind_ok h.on_renderNode, Run.on_bind, on_cutBehind]
  simp [hTrim, cutBefore, Run.on_bind]

/-- Two outcomes that are the same but for a note, which the second one has in
front of the earlier notes. -/
structure SameBut (entry : RenderError) (earlier : List RenderError)
    (shorter longer : Except Stop String × Pass σ) : Prop where
  outcome : longer.1 = shorter.1
  vars : longer.2.vars = shorter.2.vars
  pendingTrim : longer.2.pendingTrim = shorter.2.pendingTrim
  errors : ∃ later, shorter.2.errors = later ++ earlier ∧ longer.2.errors = later ++ entry :: earlier

/-- Neither the note nor what was put off makes a difference to what follows. -/
theorem Resumes.sameBut {act : Run σ String} (hAct : Resumes act) (entry : RenderError)
    {start behind : Pass σ} (hBehind : start.Follows R behind) :
    SameBut entry start.errors (act.on { start with world := behind.world })
      (act.on { behind with errors := entry :: behind.errors }) := by
  obtain ⟨deferred, world, -, rfl⟩ := hBehind
  let fresh : Pass σ := { start with errors := [], deferred := false, world }
  have hShorter : { start with world } = fresh.behind start.errors start.deferred := by
    simp [fresh, Pass.behind]
  have hLonger : { start with errors := entry :: start.errors, deferred, world } =
      fresh.behind (entry :: start.errors) deferred := by
    simp [fresh, Pass.behind]
  rw [hShorter, hLonger, hAct, hAct]
  exact ⟨rfl, rfl, rfl, (act.on fresh).2.errors, rfl, rfl⟩

/-- Related states of the resolver make no difference to the shorter outcome. -/
theorem SameBut.of_alike {act : Run σ String} (hAct : Parametric R act) {entry : RenderError}
    {earlier : List RenderError} {p q : Pass σ} {longer : Except Stop String × Pass σ}
    (h : SameBut entry earlier (act.on p) longer) (hPass : p.Alike Eq R q) :
    SameBut entry earlier (act.on q) longer := by
  have hAgree := hAct p q hPass
  generalize act.on p = first, act.on q = second at h hAgree
  cases hAgree with
  | intro outcome hBehind =>
      obtain ⟨_, world, rfl, -, rfl⟩ := hBehind
      exact ⟨h.outcome, h.vars, h.pendingTrim, h.errors⟩

/-- A resolver whose answers do not depend on what it was asked before: it answers
alike in related states, and a question leads to a related state. -/
structure Context.Steady (context : Context σ) (R : σ → σ → Prop) : Prop where
  equivalence : Equivalence R
  respects : context.Respects Eq R
  moves : ∀ resolver, context.resolver = some resolver →
    ∀ name vars world, R world ((resolver name vars).run world).2

/-- Two results that are the same but for an error, which the second one has behind
the earlier ones, and for the flag of what was put off. -/
inductive Result.SameBut (entry : RenderError) (earlier : List RenderError) :
    Except Fault Result → Except Fault Result → Prop where
  | result (output : String) (later : List RenderError) (first second : Bool) :
      SameBut entry earlier (.ok ⟨output, earlier ++ later, first⟩)
        (.ok ⟨output, earlier ++ entry :: later, second⟩)
  | fault (f : Fault) : SameBut entry earlier (.error f) (.error f)

/-- Two outputs that are the same but for an entry give results that are. -/
theorem SameBut.result {entry : RenderError} {earlier : List RenderError} {shorter longer : List Node}
    {vars : Variables} {world : σ}
    (h : SameBut entry earlier ((renderNodes context "" shorter).on { vars, world })
      ((renderNodes context "" longer).on { vars, world })) (trimOutput : Bool) :
    (render context trimOutput longer vars world).2.1 =
        (render context trimOutput shorter vars world).2.1 ∧
      Result.SameBut entry earlier.reverse (render context trimOutput shorter vars world).1
        (render context trimOutput longer vars world).1 := by
  rw [Run.on, Run.on] at h
  simp only [render]
  generalize (renderNodes context "" shorter).run { vars, world } = first,
    (renderNodes context "" longer).run { vars, world } = second at h
  obtain ⟨result, p⟩ := first
  obtain ⟨_, q⟩ := second
  obtain ⟨hResult, hVars, -, later, hShorter, hLonger⟩ := h
  dsimp only at hResult hVars hShorter hLonger ⊢
  rw [hResult, hShorter, hLonger]
  refine ⟨hVars, ?_⟩
  rcases result with (message | f) | output
  · simpa using Result.SameBut.result "" (later.reverse ++ [⟨message, none⟩]) _ _
  · exact .fault f
  · simpa using Result.SameBut.result (finish trimOutput output) later.reverse _ _

/-- A mistake concerns its part only. Without the part, which cuts no blanks, the
parts around it come to the same text and the same variables, and to the same notes
but for the one of the part, which stands behind those of the parts before it. With
a resolver whose answers depend on what it was asked before, this holds of the later
parts from the state on in which the part leaves it. -/
theorem mistake_is_local {before : List Node} {node : Node} {output text message : String}
    {pass start behind : Pass σ}
    (hBefore : (renderNodes context output before).on pass = (.ok text, start))
    (hNode : Mistaken context node start message behind) (hTrim : node.trim = ⟨false, false⟩)
    (after : List Node) :
    let entry : RenderError := ⟨message, some node.place⟩
    let longer := (renderNodes context output (before ++ node :: after)).on pass
    SameBut entry start.errors
        ((renderNodes context text after).on { start with world := behind.world }) longer ∧
      ∀ R, context.Steady R →
        SameBut entry start.errors ((renderNodes context output (before ++ after)).on pass) longer ∧
        ∀ trimOutput vars world, output = "" → pass = { vars, world } →
          (render context trimOutput (before ++ node :: after) vars world).2.1 =
              (render context trimOutput (before ++ after) vars world).2.1 ∧
            Result.SameBut entry start.errors.reverse
              (render context trimOutput (before ++ after) vars world).1
              (render context trimOutput (before ++ node :: after) vars world).1 := by
  intro entry longer
  have hAfter : Resumes (renderNodes context text after) := renderNodes_resumes text after
  have hLonger : longer = (renderNodes context text after).on
      { behind with errors := entry :: behind.errors } := by
    rw [← hNode.on_renderNodes hTrim]
    exact on_renderNodes_append hBefore
  rw [hLonger]
  constructor
  · have hAny : Equivalence fun _ _ : σ => True :=
      ⟨fun _ => trivial, fun _ => trivial, fun _ _ => trivial⟩
    have hBehind : start.Follows (fun _ _ => True) behind := hNode.follows hAny fun _ _ => trivial
    exact hAfter.sameBut entry hBehind
  · intro R hSteady
    have hEval (e : Expr) : Moves R (eval context e) :=
      (moves_compositional hSteady.equivalence.refl hSteady.equivalence.trans).eval
        (resolveOutside_moves hSteady.equivalence.refl hSteady.moves) e
    have hBehind : start.Follows R behind :=
      hNode.follows hSteady.equivalence hEval
    have hSame := hAfter.sameBut entry hBehind
    have hParametric : Parametric R (renderNodes context text after) :=
      renderNodes_parametric hSteady.respects text after
    -- The later parts start in two related states: in front of the part and behind it.
    obtain ⟨deferred, world, hWorld, rfl⟩ := hBehind
    have hShorter := hSame.of_alike hParametric
      ⟨start.vars, start.world, rfl, hSteady.equivalence.symm hWorld, rfl⟩
    rw [← hLonger, ← on_renderNodes_append hBefore] at *
    refine ⟨hShorter, ?_⟩
    rintro trimOutput vars world rfl rfl
    exact hShorter.result trimOutput

/-- A resolver that keeps the names it was asked for, knows the page's title and
fails for everything else. -/
def keepingNames : Context (List String) :=
  { resolver := some fun name _ => do
      modify (name :: ·)
      return if name = "selector:h1" then .value (.str "Title") else .failed "no such element" }

theorem keepingNames_steady : keepingNames.Steady fun _ _ => True where
  equivalence := ⟨fun _ => trivial, fun _ => trivial, fun _ _ => trivial⟩
  respects := by
    rintro _ ⟨⟩ name vars _ rfl a b -
    exact .intro _ trivial
  moves := fun _ _ _ _ _ => trivial

/-- Behind a branch whose condition fails to hold, a condition that fails. -/
def failingBranch : Node :=
  .conditional (.identifier "missing" ⟨1, 30⟩) [.text "x" ⟨1, 40⟩]
    [(.identifier "selector:h2" ⟨1, 52⟩, [.text "y" ⟨1, 66⟩])] none ⟨false, false⟩ ⟨1, 24⟩

/-- A title that lets blanks behind it be cut. -/
def titleParts : List Node :=
  [.text "# " ⟨1, 1⟩, .print (.identifier "selector:h1" ⟨1, 5⟩) ⟨true, true⟩ ⟨1, 3⟩]

/-- The cut of the title reaches past the condition to the item, and the note of the
condition stands in front of the one of the item. -/
theorem mistake_is_local_behind_title :
    let after : List Node := [.text "\n- a" ⟨1, 78⟩,
      .print (.identifier "selector:p" ⟨2, 4⟩) ⟨false, false⟩ ⟨2, 2⟩]
    let entry : RenderError := ⟨"Error evaluating if condition: " ++
      "Resolver failed for selector:h2: no such element", some ⟨1, 24⟩⟩
    let shorter := render keepingNames false (titleParts ++ after) [] []
    let longer := render keepingNames false (titleParts ++ failingBranch :: after) [] []
    shorter.1 = .ok ⟨"#Title- a", [⟨"Error evaluating variable: " ++
        "Resolver failed for selector:p: no such element", some ⟨2, 2⟩⟩], false⟩ ∧
      longer.2.1 = shorter.2.1 ∧ Result.SameBut entry [] shorter.1 longer.1 := by
  intro after entry shorter longer
  have hBefore : (renderNodes keepingNames "" titleParts).on { vars := [], world := [] } =
      (.ok "#Title", { vars := [], pendingTrim := true, world := ["selector:h1"] }) := by rfl
  have hBranches : (.identifier "missing" ⟨1, 30⟩, [.text "x" ⟨1, 40⟩]) ::
        [(.identifier "selector:h2" ⟨1, 52⟩, [.text "y" ⟨1, 66⟩])] =
      [(Expr.identifier "missing" ⟨1, 30⟩, [Node.text "x" ⟨1, 40⟩])] ++
        (.identifier "selector:h2" ⟨1, 52⟩, [.text "y" ⟨1, 66⟩]) :: [] := rfl
  have hNode : Mistaken keepingNames failingBranch
      { vars := [], pendingTrim := true, world := ["selector:h1"] } entry.message
      { vars := [], pendingTrim := true, world := ["selector:h2", "selector:h1"] } :=
    .condition hBranches (.cons rfl rfl (.nil _)) rfl
  exact ⟨by rfl, ((mistake_is_local hBefore hNode rfl after).2 _ keepingNames_steady).2 false [] []
    rfl rfl⟩

end NoteTemplate.Render
