import Mathlib.Tactic.Choose
import NoteTemplate.Proofs.Render.Compositional

/-! What evaluating and rendering leave alone: evaluating knows nothing of the
notes and the pending cut, rendering nothing of the notes before it, and
neither changes the state of a resolver that keeps none. -/
namespace NoteTemplate.Render

variable {σ : Type} {context : Context σ}

/-- Evaluating reads nothing but the variables and the state of the resolver,
and changes nothing but that state and the flag of what was put off. -/
def Detached {α : Type} (act : Run σ α) : Prop :=
  ∃ core : Variables → σ → Except Stop α × Bool × σ, ∀ pass, act.on pass =
    ((core pass.vars pass.world).1,
      { pass with
        deferred := pass.deferred || (core pass.vars pass.world).2.1
        world := (core pass.vars pass.world).2.2 })

theorem detached_of_result {α : Type} {act : Run σ α} (result : Except Stop α)
    (h : ∀ pass, act.on pass = (result, pass)) : Detached act :=
  ⟨fun _ world => (result, false, world), fun pass => by simp [h]⟩

/-- To be detached from what the pass holds is kept by composition. -/
theorem detached_compositional : Compositional (@Detached σ) where
  done a := detached_of_result (.ok a) fun _ => rfl
  faulty result := detached_of_result _ fun pass => on_ofFault result pass
  failed message := detached_of_result (.error (.failed message)) fun _ => rfl
  readVars {α next} hNext hSame := by
    choose core hCore using hNext
    refine ⟨fun vars world => core { vars, world } vars world, fun pass => ?_⟩
    rw [Run.on_bind_ok (Run.on_get pass), hSame pass { vars := pass.vars, world := pass.world } rfl]
    exact hCore { vars := pass.vars, world := pass.world } pass
  bind {α β act next} hAct hNext := by
    obtain ⟨first, hFirst⟩ := hAct
    choose second hSecond using hNext
    refine ⟨fun vars world => match first vars world with
      | (.ok a, put, world) =>
          ((second a vars world).1, put || (second a vars world).2.1, (second a vars world).2.2)
      | (.error stop, put, world) => (.error stop, put, world), fun pass => ?_⟩
    rw [Run.on_bind, hFirst]
    rcases hCore : first pass.vars pass.world with ⟨stop | a, put, world⟩
    · simp only [hCore]
    · simp only [hCore, hSecond, Bool.or_assoc]

/-- What a resolver is asked and what becomes of its answer. -/
theorem on_resolveOutside (name : String) (pass : Pass σ) :
    (resolveOutside context name).on pass =
      match context.resolver with
      | none => (.ok (.deferred name), { pass with deferred := true })
      | some resolver =>
          match (resolver name pass.vars).run pass.world with
          | (.value v, world) => (.ok (.plain v), { pass with world })
          | (.declined, world) => (.ok (.deferred name), { pass with deferred := true, world })
          | (.failed message, world) =>
              (.error (.failed ("Resolver failed for " ++ name ++ ": " ++ message)),
                { pass with world }) := by
  simp only [resolveOutside]
  cases context.resolver with
  | none => rfl
  | some resolver =>
      simp only [Run.on_bind, Run.on_get]
      rcases (resolver name pass.vars).run pass.world with ⟨v | _ | message, world⟩ <;> rfl

/-- A resolver sees the variables of a pass and its world, and nothing else. -/
theorem resolveOutside_detached (name : String) : Detached (resolveOutside context name) := by
  cases hResolver : context.resolver with
  | none =>
      refine ⟨fun _ world => (.ok (.deferred name), true, world), fun pass => ?_⟩
      simp [on_resolveOutside, hResolver]
  | some resolver =>
      refine ⟨fun vars world => match (resolver name vars).run world with
        | (.value v, world) => (.ok (.plain v), false, world)
        | (.declined, world) => (.ok (.deferred name), true, world)
        | (.failed message, world) =>
            (.error (.failed ("Resolver failed for " ++ name ++ ": " ++ message)), false, world),
        fun pass => ?_⟩
      rw [on_resolveOutside, hResolver]
      rcases hAnswer : (resolver name pass.vars).run pass.world with ⟨v | _ | message, world⟩ <;>
        simp [hAnswer]

/-- No expression looks at the notes or at the pending cut. -/
theorem eval_detached (e : Expr) : Detached (eval context e) :=
  detached_compositional.eval resolveOutside_detached e

theorem defer_detached (source : String) : Detached (defer source : Run σ Datum) :=
  ⟨fun _ world => (.ok (.deferred source), true, world), fun pass => by simp⟩

/-- Nor does the text of an expression that is printed. -/
theorem printed_detached (e : Expr) : Detached (printed context e) := by
  rw [printed]
  split
  · refine detached_compositional.bind (detached_compositional.faulty _) fun source => ?_
    exact detached_compositional.bind (defer_detached source) fun _ => detached_compositional.done _
  · exact detached_compositional.bind (eval_detached e) fun _ => detached_compositional.faulty _

/-- A pass with an earlier part of the same rendering before it: its notes,
and whether something was put off in it. -/
def Pass.behind (pass : Pass σ) (errors : List RenderError) (deferred : Bool) : Pass σ :=
  { pass with errors := pass.errors ++ errors, deferred := deferred || pass.deferred }

/-- What came earlier makes no difference to a computation, which only adds
to it. -/
def Resumes {α : Type} (act : Run σ α) : Prop :=
  ∀ pass errors deferred, act.on (pass.behind errors deferred) =
    ((act.on pass).1, (act.on pass).2.behind errors deferred)

theorem Detached.resumes {α : Type} {act : Run σ α} (h : Detached act) : Resumes act := by
  obtain ⟨core, hCore⟩ := h
  intro pass errors deferred
  simp only [hCore, Pass.behind, Bool.or_assoc]

theorem Resumes.bind {α β : Type} {act : Run σ α} {next : α → Run σ β} (hAct : Resumes act)
    (hNext : ∀ a, Resumes (next a)) : Resumes (act >>= next) := by
  intro pass errors deferred
  rw [Run.on_bind, Run.on_bind, hAct]
  rcases act.on pass with ⟨stop | a, behind⟩
  · rfl
  · exact hNext a behind errors deferred

/-- To resume where another run stopped is kept by composition. -/
theorem resumes_compositional : Compositional (@Resumes σ) where
  done a := (detached_compositional.done a).resumes
  faulty result := (detached_compositional.faulty result).resumes
  failed message := (detached_compositional.failed message).resumes
  bind := Resumes.bind
  readVars {α next} hNext hSame := by
    intro pass errors deferred
    rw [Run.on_bind_ok (Run.on_get _), Run.on_bind_ok (Run.on_get _),
      hSame (pass.behind errors deferred) pass rfl]
    exact hNext pass pass errors deferred

/-- Rendering resumes where another run stopped. -/
theorem resumes_renders : Renders (@Resumes σ) where
  toCompositional := resumes_compositional
  guarded {act} describe place hAct := by
    intro pass errors deferred
    rw [on_guarded, on_guarded, hAct]
    rcases act.on pass with ⟨(message | f) | text, behind⟩ <;> rfl
  withVariables vars hAct := by
    intro pass errors deferred
    have h := hAct { pass with vars } errors deferred
    simp only [Pass.behind] at h
    simp only [on_withVariables, Pass.behind, h]
  readPending {α next} hNext hSame := by
    intro pass errors deferred
    rw [Run.on_bind_ok (Run.on_get _), Run.on_bind_ok (Run.on_get _),
      hSame (pass.behind errors deferred) pass rfl]
    exact hNext pass pass errors deferred
  setPending pending := fun _ _ _ => rfl
  assignVar name d := fun _ _ _ => rfl
  cutBehind output := by
    intro pass errors deferred
    have hPending : (pass.behind errors deferred).pendingTrim = pass.pendingTrim := rfl
    rw [on_cutBehind, on_cutBehind, hPending]
    split <;> rfl
  defer source := fun pass errors deferred => by simp [Pass.behind]

/-- Rendering parts adds to the notes of the pass and is the same whatever
notes there are already. -/
theorem renderNodes_resumes (output : String) (nodes : List Node) :
    Resumes (renderNodes context output nodes) :=
  resumes_renders.nodes (fun e => (eval_detached e).resumes) output nodes

/-- A computation behind which the state of the resolver is related to the one
before it. -/
def Moves (R : σ → σ → Prop) {α : Type} (act : Run σ α) : Prop :=
  ∀ pass, R pass.world (act.on pass).2.world

section Moves

variable {R : σ → σ → Prop}

/-- To move the world along a preorder is kept by composition. -/
theorem moves_compositional (hRefl : ∀ a, R a a) (hTrans : ∀ {a b c}, R a b → R b c → R a c) :
    Compositional (@Moves σ R) where
  done a := fun pass => hRefl pass.world
  faulty result := fun pass => by
    rw [on_ofFault]
    exact hRefl pass.world
  failed message := fun pass => hRefl pass.world
  bind {α β act next} hAct hNext := by
    intro pass
    rw [Run.on_bind]
    have h := hAct pass
    rcases hOn : act.on pass with ⟨stop | a, behind⟩ <;> rw [hOn] at h
    · exact h
    · exact hTrans h (hNext a behind)
  readVars {α next} hNext _ := fun pass => by
    rw [Run.on_bind_ok (Run.on_get pass)]
    exact hNext pass pass

/-- Rendering moves the world as its steps do. -/
theorem moves_renders (hRefl : ∀ a, R a a) (hTrans : ∀ {a b c}, R a b → R b c → R a c) :
    Renders (@Moves σ R) where
  toCompositional := moves_compositional hRefl hTrans
  guarded {act} describe place hAct := by
    intro pass
    have h := hAct pass
    rw [on_guarded]
    rcases hOn : act.on pass with ⟨(message | f) | text, behind⟩ <;> rw [hOn] at h <;> exact h
  withVariables vars hAct := fun pass => by
    rw [on_withVariables]
    exact hAct { pass with vars }
  readPending {α next} hNext _ := fun pass => by
    rw [Run.on_bind_ok (Run.on_get pass)]
    exact hNext pass pass
  setPending pending := fun pass => hRefl pass.world
  assignVar name d := fun pass => hRefl pass.world
  cutBehind output := fun pass => by
    rw [on_cutBehind]
    split <;> exact hRefl pass.world
  defer source := fun pass => hRefl pass.world

/-- What holds of each answer of the resolver holds of each question put to it. -/
theorem resolveOutside_moves (hRefl : ∀ a, R a a)
    (hAnswer : ∀ resolver, context.resolver = some resolver →
      ∀ name vars world, R world ((resolver name vars).run world).2) (name : String) :
    Moves R (resolveOutside context name) := by
  intro pass
  rw [on_resolveOutside]
  cases hResolver : context.resolver with
  | none => exact hRefl pass.world
  | some resolver =>
      have h := hAnswer resolver hResolver name pass.vars pass.world
      dsimp only
      rcases hOn : (resolver name pass.vars).run pass.world with ⟨v | _ | message, world⟩ <;>
        rw [hOn] at h <;> exact h

end Moves

/-- A resolver without a state of its own. -/
def Context.Stateless (context : Context σ) : Prop :=
  ∀ resolver, context.resolver = some resolver →
    ∀ name vars world, ((resolver name vars).run world).2 = world

/-- A computation that leaves the state of the resolver as it is. -/
def KeepsWorld {α : Type} (act : Run σ α) : Prop := ∀ pass, (act.on pass).2.world = pass.world

theorem keepsWorld_compositional : Compositional (@KeepsWorld σ) :=
  moves_compositional (R := fun a b => b = a) (fun _ => rfl) fun hFirst hSecond => hSecond.trans hFirst

theorem keepsWorld_renders : Renders (@KeepsWorld σ) :=
  moves_renders (R := fun a b => b = a) (fun _ => rfl) fun hFirst hSecond => hSecond.trans hFirst

theorem resolveOutside_keepsWorld (hStateless : context.Stateless) (name : String) :
    KeepsWorld (resolveOutside context name) :=
  resolveOutside_moves (R := fun a b => b = a) (fun _ => rfl) hStateless name

theorem eval_keepsWorld (hStateless : context.Stateless) (e : Expr) :
    KeepsWorld (eval context e) :=
  keepsWorld_compositional.eval (resolveOutside_keepsWorld hStateless) e

theorem renderNodes_keepsWorld (hStateless : context.Stateless) (output : String)
    (nodes : List Node) : KeepsWorld (renderNodes context output nodes) :=
  keepsWorld_renders.nodes (eval_keepsWorld hStateless) output nodes

end NoteTemplate.Render
