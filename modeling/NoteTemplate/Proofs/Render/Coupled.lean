import NoteTemplate.Proofs.Render.Run
import NoteTemplate.Proofs.Scope.Use

/-! Relations between computations in two contexts, with resolvers and states of
their own, that carry over from their steps to the whole. Such a relation is proved
of the steps alone; that it then relates every expression and every part is proved
here once for all. -/
namespace NoteTemplate.Render

variable {σ ρ : Type}

/-- A relation of computations that holds of those that look at nothing and carries
over from two computations to one behind the other. -/
structure Coupling (R : ∀ {α : Type}, Run σ α → Run ρ α → Prop) : Prop where
  done {α : Type} (a : α) : R (pure a) (pure a)
  bind {α β : Type} {act : Run σ α} {other : Run ρ α} {next : α → Run σ β} {after : α → Run ρ β} :
    R act other → (∀ a, R (next a) (after a)) → R (act >>= next) (other >>= after)
  faulty {α : Type} (result : Except Fault α) : R (ofFault result) (ofFault result)
  failed {α : Type} (message : String) :
    R (throw (.failed message) : Run σ α) (throw (.failed message))

/-- Such a relation that holds of looking at the same variables as well. -/
structure VarsCoupling (R : ∀ {α : Type}, Run σ α → Run ρ α → Prop) : Prop extends
    Coupling R where
  readVars {α : Type} {next : Pass σ → Run σ α} {after : Pass ρ → Run ρ α} :
    (∀ p q, p.vars = q.vars → R (next p) (after q)) → R (get >>= next) (get >>= after)

/-- Two contexts that differ at most in the resolver. -/
structure Context.Fits (context : Context σ) (other : Context ρ) : Prop where
  url : context.url = other.url
  filters : context.filters = other.filters
  registry : context.registry = other.registry

theorem Context.Fits.refl (context : Context σ) : context.Fits context := ⟨rfl, rfl, rfl⟩

variable {R : ∀ {α : Type}, Run σ α → Run ρ α → Prop} {context : Context σ} {other : Context ρ}

/-! Expressions. -/

/-- Filters are applied alike in fitting contexts. -/
theorem Coupling.applyFilter (h : Coupling R) (hFits : context.Fits other) (name : String)
    (d : Datum) (args : List Value) (param : Option String) :
    R (applyFilter context name d args param) (applyFilter other name d args param) := by
  cases d with
  | deferred source => exact h.done _
  | plain v =>
      simp only [Render.applyFilter, hFits.url, hFits.filters, hFits.registry]
      split
      · split
        · exact h.done _
        · exact h.failed _
      · exact h.faulty _

mutual

/-- What relates the names in an expression relates the expression. -/
theorem Coupling.eval (h : Coupling R) (hFits : context.Fits other) :
    ∀ e, (∀ o ∈ e.occurrences, R (evalName context o.1) (evalName other o.1)) →
      R (eval context e) (eval other e)
  | .literal _ _, _ => by
      rw [Render.eval, Render.eval]
      exact h.done _
  | .identifier name place, hNames => by
      rw [Render.eval, Render.eval]
      rw [Expr.occurrences] at hNames
      exact hNames (name, place) (List.mem_singleton.mpr rfl)
  | .binary operator left right _, hNames => by
      rw [Render.eval, Render.eval]
      rw [Expr.occurrences, List.forall_mem_append] at hNames
      refine h.bind (h.eval hFits left hNames.1) fun a => ?_
      split
      · split
        · exact h.eval hFits right hNames.2
        · exact h.done _
      · refine h.bind (h.eval hFits right hNames.2) fun b => ?_
        exact h.bind (h.faulty _) fun _ => h.done _
  | .not e _, hNames => by
      rw [Render.eval, Render.eval]
      rw [Expr.occurrences] at hNames
      exact h.bind (h.eval hFits e hNames) fun _ => h.done _
  | .filter value name args separators parenthesized _, hNames => by
      rw [Render.eval, Render.eval]
      rw [Expr.occurrences, List.forall_mem_append] at hNames
      refine h.bind (h.eval hFits value hNames.1) fun d => ?_
      refine h.bind (h.evalArgs hFits args hNames.2) fun values => ?_
      exact h.bind (h.faulty _) fun param => h.applyFilter hFits name d values param
  | .group inner _, hNames => by
      rw [Render.eval, Render.eval]
      rw [Expr.occurrences] at hNames
      exact h.eval hFits inner hNames
  | .member object name _, hNames => by
      rw [Render.eval, Render.eval]
      rw [Expr.occurrences] at hNames
      exact h.bind (h.eval hFits object hNames) fun _ => h.faulty _
  | .index object key _, hNames => by
      rw [Render.eval, Render.eval]
      rw [Expr.occurrences, List.forall_mem_append] at hNames
      refine h.bind (h.eval hFits object hNames.1) fun d => ?_
      exact h.bind (h.eval hFits key hNames.2) fun _ => h.faulty _

/-- Arguments are coupled if the names in them are. -/
theorem Coupling.evalArgs (h : Coupling R) (hFits : context.Fits other) :
    ∀ args, (∀ o ∈ Expr.occurrencesAll args, R (evalName context o.1) (evalName other o.1)) →
      R (evalArgs context args) (evalArgs other args)
  | [], _ => by
      rw [Render.evalArgs, Render.evalArgs]
      exact h.done _
  | e :: rest, hNames => by
      rw [Render.evalArgs, Render.evalArgs]
      rw [Expr.occurrencesAll, List.forall_mem_append] at hNames
      refine h.bind (h.eval hFits e hNames.1) fun d => ?_
      exact h.bind (h.evalArgs hFits rest hNames.2) fun _ => h.done _

end

/-- What relates the questions to the resolvers relates all names. -/
theorem VarsCoupling.evalName (h : VarsCoupling R)
    (hOutside : ∀ name, R (resolveOutside context name) (resolveOutside other name))
    (name : String) : R (evalName context name) (evalName other name) := by
  simp only [Render.evalName]
  split
  · refine h.readVars fun p q hVars => ?_
    rw [hVars]
    refine h.bind (h.faulty _) fun found => ?_
    split
    · exact hOutside name
    · exact h.done _
  · split
    · exact hOutside name
    · refine h.readVars fun p q hVars => ?_
      rw [hVars]
      exact h.faulty _

/-! Parts. -/

/-- One turn of a loop. -/
def turn (iterator : String) (length : Nat) (body : Run σ String) (index : Nat) (item : Value) :
    Run σ String := do
  withVariables (bind (← get).vars (bindings iterator item index length)) body

theorem turns_cons (iterator : String) (length : Nat) (body : Run σ String) (index : Nat)
    (item : Value) (rest : List Value) : turns iterator length body index (item :: rest) = do
      let text ← turn iterator length body index item
      let later ← turns iterator length body (index + 1) rest
      return Text.strip text :: later := by
  rw [turns, turn, bind_assoc]

/-- The steps of rendering beyond those of evaluating. Of a pass itself only the
pending cut is read. -/
structure StepsCoupling (R : ∀ {α : Type}, Run σ α → Run ρ α → Prop) : Prop extends
    Coupling R where
  guarded {act : Run σ String} {other : Run ρ String} (describe : String → String) (place : Place) :
    R act other → R (guarded describe place act) (guarded describe place other)
  turn {body : Run σ String} {other : Run ρ String} (iterator : String) (length index : Nat)
    (item : Value) :
    R body other → R (turn iterator length body index item) (turn iterator length other index item)
  readPending {α : Type} {next : Pass σ → Run σ α} {after : Pass ρ → Run ρ α} :
    (∀ p q, p.pendingTrim = q.pendingTrim → R (next p) (after q)) → R (get >>= next) (get >>= after)
  setPending (pending : Bool) :
    R (modify fun pass => { pass with pendingTrim := pending } : Run σ PUnit)
      (modify fun pass => { pass with pendingTrim := pending })
  assignVar (name : String) (d : Datum) :
    R (modify fun pass => { pass with vars := pass.vars.assign name d } : Run σ PUnit)
      (modify fun pass => { pass with vars := pass.vars.assign name d })
  cutBehind (output : String) : R (cutBehind output) (cutBehind output)
  defer (source : String) : R (defer source) (defer source)

/-- Turns are coupled if the body of the loop is. -/
theorem StepsCoupling.turns (h : StepsCoupling R) {body : Run σ String} {other : Run ρ String}
    (hBody : R body other) (iterator : String) (length : Nat) (index : Nat) (items : List Value) :
    R (turns iterator length body index items) (turns iterator length other index items) := by
  induction items generalizing index with
  | nil => exact h.done _
  | cons item rest ih =>
      rw [turns_cons, turns_cons]
      refine h.bind (h.turn iterator length index item hBody) fun text => ?_
      exact h.bind (ih (index + 1)) fun _ => h.done _

/-- A loop is coupled with another one over the same items if their bodies are. -/
theorem StepsCoupling.loopText (h : StepsCoupling R) {body : Run σ String} {other : Run ρ String}
    (hBody : R body other) (iterator : String) (items : List Value) :
    R (loopText iterator items body) (loopText iterator items other) := by
  rw [Render.loopText, Render.loopText]
  refine h.readPending fun p q hPending => ?_
  rw [hPending]
  refine h.bind (h.turns hBody iterator items.length 0 items) fun texts => ?_
  exact h.bind (h.setPending q.pendingTrim) fun _ => h.done _

theorem StepsCoupling.markBehind (h : StepsCoupling R) (trim : Trim) :
    R (Render.markBehind trim) (Render.markBehind trim) := by
  rw [Render.markBehind, Render.markBehind]
  split
  · exact h.setPending true
  · exact h.done _

/-- What is printed of an expression is coupled if its evaluation is. -/
theorem StepsCoupling.printed (h : StepsCoupling R) {e : Expr}
    (hEval : R (Render.eval context e) (Render.eval other e)) :
    R (printed context e) (printed other e) := by
  rw [Render.printed, Render.printed]
  split
  · refine h.bind (h.faulty _) fun source => ?_
    exact h.bind (h.defer source) fun _ => h.done _
  · exact h.bind hEval fun _ => h.faulty _

section Parts

variable {Q : String → Prop}

mutual

/-- What relates the expressions of a part relates the part. -/
theorem StepsCoupling.node (h : StepsCoupling R) : ∀ node,
    Node.All (fun e => R (Render.eval context e) (Render.eval other e)) Q node →
      R (renderNode context node) (renderNode other node)
  | .text _ _, _ => by
      rw [renderNode, renderNode]
      exact h.done _
  | .print e _ place, hEval => by
      rw [renderNode, renderNode]
      exact h.guarded _ place (h.printed hEval)
  | .conditional condition body branches otherwise _ place, hEval => by
      obtain ⟨hCondition, hBody, hBranches, hOtherwise⟩ := hEval
      rw [renderNode, renderNode]
      refine h.guarded _ place (h.bind hCondition fun d => ?_)
      split
      · exact h.nodes "" body hBody
      · exact h.branches (h.otherwise otherwise hOtherwise) branches hBranches
  | .loop iterator iterable body _ place, hEval => by
      obtain ⟨-, hIterable, hBody⟩ := hEval
      rw [renderNode, renderNode]
      refine h.guarded _ place (h.bind hIterable fun d => ?_)
      split
      · exact h.done _
      · exact h.loopText (h.nodes "" body hBody) iterator _
      · exact h.failed _
  | .assign name e _ place, hEval => by
      rw [renderNode, renderNode]
      refine h.guarded _ place (h.bind hEval.2 fun d => ?_)
      exact h.bind (h.assignVar name d) fun _ => h.done _

/-- A branch without a condition is coupled if the expressions in it are. -/
theorem StepsCoupling.otherwise (h : StepsCoupling R) : ∀ body,
    Node.AllOtherwise (fun e => R (Render.eval context e) (Render.eval other e)) Q body →
      R (renderOtherwise context body) (renderOtherwise other body)
  | some body, hEval => by
      rw [renderOtherwise, renderOtherwise]
      exact h.nodes "" body hEval
  | none, _ => by
      rw [renderOtherwise, renderOtherwise]
      exact h.done _

/-- Branches are coupled if the expressions in them are. -/
theorem StepsCoupling.branches (h : StepsCoupling R) {first : Run σ String} {second : Run ρ String}
    (hLast : R first second) : ∀ branches,
      Node.AllBranches (fun e => R (Render.eval context e) (Render.eval other e)) Q branches →
        R (renderBranches context first branches) (renderBranches other second branches)
  | [], _ => by
      rw [renderBranches, renderBranches]
      exact hLast
  | (condition, body) :: rest, hEval => by
      obtain ⟨hCondition, hBody, hRest⟩ := hEval
      rw [renderBranches, renderBranches]
      refine h.bind hCondition fun d => ?_
      split
      · exact h.nodes "" body hBody
      · exact h.branches hLast rest hRest

/-- By induction on the parts: they are coupled if the expressions in them are. -/
theorem StepsCoupling.nodes (h : StepsCoupling R) (output : String) : ∀ nodes,
    Node.AllNodes (fun e => R (Render.eval context e) (Render.eval other e)) Q nodes →
      R (renderNodes context output nodes) (renderNodes other output nodes)
  | [], _ => by
      rw [renderNodes, renderNodes]
      exact h.done _
  | node :: rest, hEval => by
      rw [renderNodes, renderNodes]
      refine h.bind (h.node node hEval.1) fun text => ?_
      refine h.bind (h.cutBehind text) fun text => ?_
      refine h.bind (h.markBehind node.trim) fun _ => ?_
      exact h.nodes _ rest hEval.2

end

end Parts

end NoteTemplate.Render
