import NoteTemplate.Proofs.Render.Coupled

/-! Properties of computations that carry over from their steps to the whole.
Such a property is proved of the steps alone; that it then holds of every
expression and of every part is the case of two equal contexts in which every
computation with the property is related to itself. -/
namespace NoteTemplate.Render

variable {σ : Type}

/-- A property of computations that holds of those that look at nothing and carries
over from two computations to one behind the other. -/
structure Sequential (P : ∀ {α : Type}, Run σ α → Prop) : Prop where
  done {α : Type} (a : α) : P (pure a : Run σ α)
  bind {α β : Type} {act : Run σ α} {next : α → Run σ β} :
    P act → (∀ a, P (next a)) → P (act >>= next)
  faulty {α : Type} (result : Except Fault α) : P (ofFault result)
  failed {α : Type} (message : String) : P (throw (.failed message) : Run σ α)

/-- Such a property that holds of looking at the variables as well. -/
structure Compositional (P : ∀ {α : Type}, Run σ α → Prop) : Prop extends Sequential P where
  readVars {α : Type} {next : Pass σ → Run σ α} : (∀ pass, P (next pass)) →
    (∀ p q : Pass σ, p.vars = q.vars → next p = next q) → P (get >>= next)

/-- The steps of rendering beyond those of evaluating. Of a pass itself only the
pending cut is read. -/
structure Steps (P : ∀ {α : Type}, Run σ α → Prop) : Prop extends Sequential P where
  guarded {act : Run σ String} (describe : String → String) (place : Place) :
    P act → P (guarded describe place act)
  turn {body : Run σ String} (iterator : String) (length index : Nat) (item : Value) :
    P body → P (turn iterator length body index item)
  readPending {α : Type} {next : Pass σ → Run σ α} : (∀ pass, P (next pass)) →
    (∀ p q : Pass σ, p.pendingTrim = q.pendingTrim → next p = next q) → P (get >>= next)
  setPending (pending : Bool) :
    P (modify fun pass => { pass with pendingTrim := pending } : Run σ PUnit)
  assignVar (name : String) (d : Datum) :
    P (modify fun pass => { pass with vars := pass.vars.assign name d } : Run σ PUnit)
  cutBehind (output : String) : P (cutBehind output)
  defer (source : String) : P (defer source : Run σ Datum)

variable {P : ∀ {α : Type}, Run σ α → Prop} {context : Context σ}

/-- A property relates the computations that have it to themselves. -/
def Diagonal (P : ∀ {α : Type}, Run σ α → Prop) {α : Type} (act other : Run σ α) : Prop :=
  act = other ∧ P act

/-- What looks at a part of the pass only, and has the property whatever it finds, is
related to nothing but itself. -/
theorem diagonal_get {β : Type} (seen : Pass σ → β)
    (hGet : ∀ {α : Type} {next : Pass σ → Run σ α}, (∀ pass, P (next pass)) →
      (∀ p q, seen p = seen q → next p = next q) → P (get >>= next))
    {α : Type} {next after : Pass σ → Run σ α}
    (h : ∀ p q, seen p = seen q → Diagonal P (next p) (after q)) :
    Diagonal P (get >>= next) (get >>= after) := by
  have hEq : next = after := funext fun pass => (h pass pass rfl).1
  subst hEq
  exact ⟨rfl, hGet (fun pass => (h pass pass rfl).2) fun p q hSeen => (h p q hSeen).1⟩

theorem Sequential.coupling (h : Sequential P) : Coupling (@Diagonal σ P) where
  done a := ⟨rfl, h.done a⟩
  bind := by
    rintro α β act _ next after ⟨rfl, hAct⟩ hNext
    exact ⟨congrArg (act >>= ·) (funext fun a => (hNext a).1), h.bind hAct fun a => (hNext a).2⟩
  faulty result := ⟨rfl, h.faulty result⟩
  failed message := ⟨rfl, h.failed message⟩

theorem Compositional.coupling (h : Compositional P) : VarsCoupling (@Diagonal σ P) where
  toCoupling := h.toSequential.coupling
  readVars := diagonal_get Pass.vars h.readVars

/-- A property of single runs is a coupling of each run with itself. -/
theorem Steps.coupling (h : Steps P) : StepsCoupling (@Diagonal σ P) where
  toCoupling := h.toSequential.coupling
  guarded describe place := by
    rintro ⟨rfl, hAct⟩
    exact ⟨rfl, h.guarded describe place hAct⟩
  turn iterator length index item := by
    rintro ⟨rfl, hBody⟩
    exact ⟨rfl, h.turn iterator length index item hBody⟩
  readPending := diagonal_get Pass.pendingTrim h.readPending
  setPending pending := ⟨rfl, h.setPending pending⟩
  assignVar name d := ⟨rfl, h.assignVar name d⟩
  cutBehind output := ⟨rfl, h.cutBehind output⟩
  defer source := ⟨rfl, h.defer source⟩

theorem Sequential.applyFilter (h : Sequential P) (name : String) (d : Datum)
    (args : List Value) (param : Option String) : P (applyFilter context name d args param) :=
  (h.coupling.applyFilter (.refl context) name d args param).2

/-- What holds of the names in an expression holds of the expression. -/
theorem Sequential.eval (h : Sequential P) (e : Expr)
    (hNames : ∀ o ∈ e.occurrences, P (evalName context o.1)) : P (eval context e) :=
  (h.coupling.eval (.refl context) e fun o hMem => ⟨rfl, hNames o hMem⟩).2

theorem Sequential.evalArgs (h : Sequential P) (args : List Expr)
    (hNames : ∀ o ∈ Expr.occurrencesAll args, P (evalName context o.1)) :
    P (evalArgs context args) :=
  (h.coupling.evalArgs (.refl context) args fun o hMem => ⟨rfl, hNames o hMem⟩).2

theorem Compositional.evalName (h : Compositional P)
    (hOutside : ∀ name, P (resolveOutside context name)) (name : String) :
    P (evalName context name) :=
  (h.coupling.evalName (fun name => ⟨rfl, hOutside name⟩) name).2

/-- What holds of the questions to the resolver holds of every expression. -/
theorem Compositional.eval (h : Compositional P) (hOutside : ∀ name, P (resolveOutside context name))
    (e : Expr) : P (eval context e) :=
  h.toSequential.eval e fun o _ => h.evalName hOutside o.1

theorem Compositional.evalArgs (h : Compositional P)
    (hOutside : ∀ name, P (resolveOutside context name)) (args : List Expr) :
    P (evalArgs context args) :=
  h.toSequential.evalArgs args fun o _ => h.evalName hOutside o.1

theorem Steps.turns (h : Steps P) {body : Run σ String} (hBody : P body)
    (iterator : String) (length : Nat) (index : Nat) (items : List Value) :
    P (turns iterator length body index items) :=
  (h.coupling.turns ⟨rfl, hBody⟩ iterator length index items).2

theorem Steps.loopText (h : Steps P) {body : Run σ String} (hBody : P body)
    (iterator : String) (items : List Value) : P (loopText iterator items body) :=
  (h.coupling.loopText ⟨rfl, hBody⟩ iterator items).2

theorem Steps.markBehind (h : Steps P) (trim : Trim) : P (Render.markBehind trim : Run σ Unit) :=
  (h.coupling.markBehind trim).2

theorem Steps.printed (h : Steps P) {e : Expr} (hEval : P (Render.eval context e)) :
    P (printed context e) :=
  (h.coupling.printed ⟨rfl, hEval⟩).2

section Parts

variable {Q : String → Prop}

/-- What holds of the expressions of parts holds of the parts. -/
theorem Steps.nodes (h : Steps P) (output : String) (nodes : List Node)
    (hEval : Node.AllNodes (fun e => P (Render.eval context e)) Q nodes) :
    P (renderNodes context output nodes) :=
  (h.coupling.nodes output nodes (hEval.imp (fun _ h => ⟨rfl, h⟩) fun _ => id)).2

theorem Steps.otherwise (h : Steps P) (body : Option (List Node))
    (hEval : Node.AllOtherwise (fun e => P (Render.eval context e)) Q body) :
    P (renderOtherwise context body) :=
  (h.coupling.otherwise body (hEval.imp (fun _ h => ⟨rfl, h⟩) fun _ => id)).2

theorem Steps.branches (h : Steps P) {otherwise : Run σ String} (hLast : P otherwise)
    (branches : List (Expr × List Node))
    (hEval : Node.AllBranches (fun e => P (Render.eval context e)) Q branches) :
    P (renderBranches context otherwise branches) :=
  (h.coupling.branches ⟨rfl, hLast⟩ branches (hEval.imp (fun _ h => ⟨rfl, h⟩) fun _ => id)).2

end Parts

/-- The steps of rendering when looking at the variables is one of them. -/
structure Renders (P : ∀ {α : Type}, Run σ α → Prop) : Prop extends Compositional P where
  guarded {act : Run σ String} (describe : String → String) (place : Place) :
    P act → P (guarded describe place act)
  withVariables {act : Run σ String} (vars : Variables) : P act → P (withVariables vars act)
  readPending {α : Type} {next : Pass σ → Run σ α} : (∀ pass, P (next pass)) →
    (∀ p q : Pass σ, p.pendingTrim = q.pendingTrim → next p = next q) → P (get >>= next)
  setPending (pending : Bool) :
    P (modify fun pass => { pass with pendingTrim := pending } : Run σ PUnit)
  assignVar (name : String) (d : Datum) :
    P (modify fun pass => { pass with vars := pass.vars.assign name d } : Run σ PUnit)
  cutBehind (output : String) : P (cutBehind output)
  defer (source : String) : P (defer source : Run σ Datum)

/-- Properties of rendering are properties of its steps. -/
theorem Renders.steps (h : Renders P) : Steps P where
  toSequential := h.toSequential
  guarded := h.guarded
  turn iterator length index item hBody :=
    h.readVars (fun _ => h.withVariables _ hBody) fun p q hVars => by rw [hVars]
  readPending := h.readPending
  setPending := h.setPending
  assignVar := h.assignVar
  cutBehind := h.cutBehind
  defer := h.defer

theorem Renders.branches (h : Renders P) (hEval : ∀ e, P (Render.eval context e))
    {otherwise : Run σ String} (hLast : P otherwise) (branches : List (Expr × List Node)) :
    P (renderBranches context otherwise branches) :=
  h.steps.branches hLast branches (Node.allBranches_of_forall hEval branches)

theorem Renders.otherwise (h : Renders P) (hEval : ∀ e, P (Render.eval context e))
    (body : Option (List Node)) : P (renderOtherwise context body) :=
  h.steps.otherwise body (Node.allOtherwise_of_forall hEval body)

theorem Renders.nodes (h : Renders P) (hEval : ∀ e, P (Render.eval context e)) (output : String)
    (nodes : List Node) : P (renderNodes context output nodes) :=
  h.steps.nodes output nodes (Node.allNodes_of_forall hEval nodes)

end NoteTemplate.Render
