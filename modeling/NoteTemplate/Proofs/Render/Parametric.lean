import NoteTemplate.Proofs.Render.Frame

/-! Two renderings side by side. When the variables and the states of the resolver
on the two sides are related, names stand for the same, and what relates the sides
is kept by assigning and asking, then whole templates are rendered alike. -/
namespace NoteTemplate

/-- Two outcomes that are the same, with related states behind them. -/
inductive Agree {α σ : Type} (R : σ → σ → Prop) : α × σ → α × σ → Prop where
  | intro (outcome : α) {a b : σ} (h : R a b) : Agree R (outcome, a) (outcome, b)

/-- A function of a state whose outcome is the same in related states. -/
def Uniform {α σ : Type} (R : σ → σ → Prop) (f : σ → α × σ) : Prop :=
  ∀ a b, R a b → Agree R (f a) (f b)

namespace Render

variable {σ : Type} {context : Context σ} {V : Variables → Variables → Prop} {R : σ → σ → Prop}

/-- A computation with the same outcome in related passes. -/
def Lockstep (related : Pass σ → Pass σ → Prop) {α : Type} (act : Run σ α) : Prop :=
  Uniform related act.on

theorem lockstep_of_result {related : Pass σ → Pass σ → Prop} {α : Type} {act : Run σ α}
    (result : Except Stop α) (h : ∀ pass, act.on pass = (result, pass)) : Lockstep related act := by
  intro p q hPass
  rw [h, h]
  exact .intro result hPass

/-- What looks at no pass runs alike in related passes, whatever relates them. -/
theorem lockstep_sequential (related : Pass σ → Pass σ → Prop) :
    Sequential (@Lockstep σ related) where
  done a := lockstep_of_result (.ok a) fun _ => rfl
  faulty result := lockstep_of_result _ fun pass => on_ofFault result pass
  failed message := lockstep_of_result (.error (.failed message)) fun _ => rfl
  bind {α β act next} hAct hNext := by
    intro p q hPass
    have hAgree := hAct p q hPass
    rw [Run.on_bind, Run.on_bind]
    generalize act.on p = first, act.on q = second at hAgree
    cases hAgree with
    | intro outcome hBehind =>
        cases outcome with
        | error stop => exact .intro _ hBehind
        | ok a => exact hNext a _ _ hBehind

/-- Two passes that differ at most in the variables and in the state of the
resolver, where these are related. -/
def Pass.Alike (V : Variables → Variables → Prop) (R : σ → σ → Prop) (p q : Pass σ) : Prop :=
  ∃ vars world, V p.vars vars ∧ R p.world world ∧ q = { p with vars, world }

/-- A computation that goes on with the pass, but takes the same from the variables
of both sides and does not look at the state of the resolver itself. -/
theorem lockstep_get {α : Type} {next : Pass σ → Run σ α}
    (hNext : ∀ pass, Lockstep (Pass.Alike V R) (next pass))
    (hSame : ∀ (pass : Pass σ) vars world, V pass.vars vars →
      next { pass with vars, world } = next pass) : Lockstep (Pass.Alike V R) (get >>= next) := by
  rintro p q ⟨vars, world, hVars, hWorld, rfl⟩
  rw [Run.on_bind_ok (Run.on_get p), Run.on_bind_ok (Run.on_get _), hSame p vars world hVars]
  exact hNext p p _ ⟨vars, world, hVars, hWorld, rfl⟩

/-- What assigning keeps is kept by the variables of a turn of a loop. -/
theorem bind_related (hAssign : ∀ {vars other} name d, V vars other →
      V (Variables.assign vars name d) (Variables.assign other name d))
    {vars other : Variables} (h : V vars other) (added : List (String × Value)) :
    V (bind vars added) (bind other added) := by
  rw [bind, bind]
  induction added generalizing vars other with
  | nil => exact h
  | cons entry rest ih => exact ih (hAssign entry.1 (.plain entry.2) h)

/-- Relations of variables that assigning keeps are kept by every step. -/
theorem lockstep_steps (hAssign : ∀ {vars other} name d, V vars other →
      V (Variables.assign vars name d) (Variables.assign other name d)) :
    Steps (@Lockstep σ (Pass.Alike V R)) where
  toSequential := lockstep_sequential (Pass.Alike V R)
  guarded {act} describe place hAct := by
    intro p q hPass
    have hAgree := hAct p q hPass
    rw [on_guarded, on_guarded]
    generalize act.on p = first, act.on q = second at hAgree
    cases hAgree with
    | intro outcome hBehind =>
        obtain ⟨vars, world, hVars, hWorld, rfl⟩ := hBehind
        rcases outcome with (message | f) | text <;>
          exact .intro _ ⟨vars, world, hVars, hWorld, rfl⟩
  turn {body} iterator length index item hBody := by
    rintro p q ⟨vars, world, hVars, hWorld, rfl⟩
    have hInside := bind_related hAssign hVars (bindings iterator item index length)
    have hAgree := hBody { p with vars := bind p.vars (bindings iterator item index length) }
      { p with vars := bind vars (bindings iterator item index length), world }
      ⟨_, world, hInside, hWorld, rfl⟩
    rw [turn, Run.on_bind_ok (Run.on_get p), Run.on_bind_ok (Run.on_get _), on_withVariables,
      on_withVariables]
    dsimp only
    generalize body.on { p with vars := bind p.vars _ } = first,
      body.on { p with vars := bind vars _, world } = second at hAgree
    cases hAgree with
    | intro outcome hBehind =>
        obtain ⟨_, world, -, hWorld, rfl⟩ := hBehind
        exact .intro _ ⟨vars, world, hVars, hWorld, rfl⟩
  readPending hNext hSame := lockstep_get hNext fun _ _ _ _ => hSame _ _ rfl
  setPending pending := by
    rintro p q ⟨vars, world, hVars, hWorld, rfl⟩
    exact .intro _ ⟨vars, world, hVars, hWorld, rfl⟩
  assignVar name d := by
    rintro p q ⟨vars, world, hVars, hWorld, rfl⟩
    exact .intro _ ⟨_, world, hAssign name d hVars, hWorld, rfl⟩
  cutBehind output := by
    rintro p q ⟨vars, world, hVars, hWorld, rfl⟩
    rw [on_cutBehind, on_cutBehind]
    split <;> exact .intro _ ⟨vars, world, hVars, hWorld, rfl⟩
  defer source := by
    rintro p q ⟨vars, world, hVars, hWorld, rfl⟩
    exact .intro _ ⟨vars, world, hVars, hWorld, rfl⟩

/-- A resolver that gives the same answers among related variables and in related
states, and keeps the states related. -/
def Context.Respects (context : Context σ) (V : Variables → Variables → Prop)
    (R : σ → σ → Prop) : Prop :=
  ∀ resolver, context.resolver = some resolver → ∀ name vars other, V vars other →
    ∀ a b, R a b → Agree R ((resolver name vars).run a) ((resolver name other).run b)

/-- A resolver that respects a relation is asked in lockstep. -/
theorem resolveOutside_lockstep (h : context.Respects V R) (name : String) :
    Lockstep (Pass.Alike V R) (resolveOutside context name) := by
  rintro p q ⟨vars, world, hVars, hWorld, rfl⟩
  rw [on_resolveOutside, on_resolveOutside]
  cases hResolver : context.resolver with
  | none => exact .intro _ ⟨vars, world, hVars, hWorld, rfl⟩
  | some resolver =>
      have hAgree := h resolver hResolver name p.vars vars hVars p.world world hWorld
      dsimp only
      generalize (resolver name p.vars).run p.world = first,
        (resolver name vars).run world = second at hAgree
      cases hAgree with
      | intro resolution hBehind =>
          cases resolution <;> exact .intro _ ⟨vars, _, hVars, hBehind, rfl⟩

/-- A name that is looked up with the same result among related variables. -/
theorem evalName_lockstep (h : context.Respects V R) {name : String}
    (hLookup : Schema.isName name = true → ∀ vars other, V vars other →
      Schema.lookup name vars = Schema.lookup name other)
    (hResolve : ∀ vars other, V vars other →
      Variables.resolve vars name = Variables.resolve other name) :
    Lockstep (Pass.Alike V R) (evalName context name) := by
  have hSteps := lockstep_sequential (Pass.Alike V R)
  simp only [evalName]
  split
  · next hSchema =>
    refine lockstep_get (fun pass => ?_) fun pass vars world hVars => ?_
    · refine hSteps.bind (hSteps.faulty _) fun found => ?_
      split
      · exact resolveOutside_lockstep h name
      · exact hSteps.done found
    · rw [hLookup hSchema _ _ hVars]
  · split
    · exact resolveOutside_lockstep h name
    · refine lockstep_get (fun pass => hSteps.faulty _) fun pass vars world hVars => ?_
      rw [hResolve _ _ hVars]

/-- When the names of a template stand for the same on both sides, it is rendered
with the same outcome, and behind it the sides are related as before. -/
theorem render_lockstep (hAssign : ∀ {vars other} name d, V vars other →
      V (Variables.assign vars name d) (Variables.assign other name d))
    {nodes : List Node} (hNames : ∀ u ∈ Validate.usesOfNodes [] nodes,
      Lockstep (Pass.Alike V R) (evalName context u.name))
    (trimOutput : Bool) {vars other : Variables} {a b : σ} (hVars : V vars other) (hWorld : R a b) :
    ∃ outcome first second, render context trimOutput nodes vars a = (outcome, first) ∧
      render context trimOutput nodes other b = (outcome, second) ∧
      V first.1 second.1 ∧ R first.2 second.2 := by
  have hAll : Node.AllNodes (Validate.NamesAll fun name =>
      Lockstep (Pass.Alike V R) (evalName context name)) (fun _ => True) nodes :=
    (Validate.nodes_all_iff [] nodes).mpr hNames
  have hNodes := (lockstep_steps hAssign).nodes "" nodes
    (hAll.imp (fun e => (lockstep_sequential (Pass.Alike V R)).eval e) fun _ => id)
  have hAgree := hNodes { vars, world := a } { vars := other, world := b }
    ⟨other, b, hVars, hWorld, rfl⟩
  simp only [render]
  rw [Run.on, Run.on] at hAgree
  generalize (renderNodes context "" nodes).run { vars, world := a } = first,
    (renderNodes context "" nodes).run { vars := other, world := b } = second at hAgree
  cases hAgree with
  | intro outcome hBehind =>
      obtain ⟨later, world, hVars, hWorld, rfl⟩ := hBehind
      exact ⟨_, _, _, rfl, rfl, hVars, hWorld⟩

/-- A computation with the same outcome in passes with the same variables and
related states of the resolver. -/
def Parametric (R : σ → σ → Prop) {α : Type} (act : Run σ α) : Prop :=
  Lockstep (Pass.Alike Eq R) act

theorem evalName_parametric (h : context.Respects Eq R) (name : String) :
    Parametric R (evalName context name) :=
  evalName_lockstep h (fun _ _ _ hVars => by rw [hVars]) fun _ _ hVars => by rw [hVars]

theorem renderNodes_parametric (h : context.Respects Eq R) (output : String) (nodes : List Node) :
    Parametric R (renderNodes context output nodes) :=
  (lockstep_steps fun _ _ hVars => by rw [hVars]).nodes output nodes
    (Node.allNodes_of_forall (fun e =>
      (lockstep_sequential _).eval e fun o _ => evalName_parametric h o.1) nodes)

/-- In related states of the resolver a template is rendered with the same outcome
and the same variables, and the states behind it are related. -/
theorem render_parametric (h : context.Respects Eq R) (trimOutput : Bool) (nodes : List Node)
    (vars : Variables) {a b : σ} (hWorld : R a b) : ∃ outcome later first second,
      render context trimOutput nodes vars a = (outcome, later, first) ∧
      render context trimOutput nodes vars b = (outcome, later, second) ∧ R first second := by
  obtain ⟨outcome, ⟨later, first⟩, ⟨_, second⟩, hFirst, hSecond, hVars, hBehind⟩ :=
    render_lockstep (fun _ _ hVars => by rw [hVars]) (fun u _ => evalName_parametric h u.name)
      trimOutput (rfl : vars = vars) hWorld
  cases hVars
  exact ⟨outcome, later, first, second, hFirst, hSecond, hBehind⟩

end Render

end NoteTemplate
