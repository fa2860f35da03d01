import NoteTemplate.Render

/-! A computation in a pass as a function from the pass before it to its
outcome and the pass behind it. The equations below unfold a computation
step by step; what a computation changed stays changed when it stops. -/
namespace NoteTemplate.Render

variable {σ α β : Type}

/-- The outcome of a computation, and the pass behind it. -/
def Run.on (act : Run σ α) (pass : Pass σ) : Except Stop α × Pass σ := act.run pass

namespace Run

@[simp] theorem on_pure (a : α) (pass : Pass σ) :
    Run.on (pure a) pass = (.ok a, pass) := rfl

@[simp] theorem on_throw (stop : Stop) (pass : Pass σ) :
    Run.on (throw stop : Run σ α) pass = (.error stop, pass) := rfl

@[simp] theorem on_get (pass : Pass σ) :
    Run.on (get : Run σ (Pass σ)) pass = (.ok pass, pass) := rfl

@[simp] theorem on_set (pass next : Pass σ) :
    Run.on (set next : Run σ PUnit) pass = (.ok ⟨⟩, next) := rfl

@[simp] theorem on_modify (f : Pass σ → Pass σ) (pass : Pass σ) :
    Run.on (modify f : Run σ PUnit) pass = (.ok ⟨⟩, f pass) := rfl

/-- The rest of a computation runs on the pass behind its first part, and a
stop of the first part is a stop of the whole. -/
theorem on_bind (act : Run σ α) (next : α → Run σ β) (pass : Pass σ) :
    Run.on (act >>= next) pass =
      match act.on pass with
      | (.ok a, behind) => (next a).on behind
      | (.error stop, behind) => (.error stop, behind) := by
  show ExceptT.bindCont next (act.on pass).1 (act.on pass).2 = _
  rcases act.on pass with ⟨stop | a, behind⟩ <;> rfl

theorem on_bind_ok {act : Run σ α} {next : α → Run σ β} {pass behind : Pass σ} {a : α}
    (h : act.on pass = (.ok a, behind)) : Run.on (act >>= next) pass = (next a).on behind := by
  rw [on_bind, h]

/-- A handler runs on the pass behind the stop. -/
theorem on_tryCatch (act : Run σ α) (handle : Stop → Run σ α) (pass : Pass σ) :
    Run.on (tryCatch act handle) pass =
      match act.on pass with
      | (.ok a, behind) => (.ok a, behind)
      | (.error stop, behind) => (handle stop).on behind := by
  show StateT.run (ExceptT.run (tryCatch act handle)) pass = _
  rw [ExceptT.run_tryCatch, StateT.run_bind, show StateT.run act.run pass = act.on pass from rfl]
  rcases act.on pass with ⟨stop | a, behind⟩ <;> rfl

end Run

/-- A run that ends well consists of two that end well. -/
theorem of_on_bind {act : Run σ α} {next : α → Run σ β} {pass last : Pass σ} {b : β}
    (h : Run.on (act >>= next) pass = (.ok b, last)) :
    ∃ a middle, act.on pass = (.ok a, middle) ∧ (next a).on middle = (.ok b, last) := by
  rw [Run.on_bind] at h
  rcases hAct : act.on pass with ⟨stop | a, middle⟩
  · rw [hAct] at h
    cases h
  · rw [hAct] at h
    exact ⟨a, middle, rfl, h⟩

variable {context : Context σ}

/-- A result without a fault goes on, a fault stops. -/
theorem on_ofFault (result : Except Fault α) (pass : Pass σ) :
    (ofFault result).on pass =
      (match result with | .ok a => .ok a | .error f => .error (.fault f), pass) := by
  cases result <;> rfl

/-- A computation that is a result or a fault says which. -/
theorem on_ofFault_inj (first second : Except Fault α) (pass : Pass σ) :
    (ofFault first).on pass = (ofFault second).on pass ↔ first = second := by
  rw [on_ofFault, on_ofFault]
  cases first <;> cases second <;> simp

@[simp] theorem on_defer (source : String) (pass : Pass σ) :
    (defer source).on pass = (.ok (.deferred source), { pass with deferred := true }) := rfl

@[simp] theorem on_note (message : String) (place : Place) (pass : Pass σ) :
    (note message place).on pass =
      (.ok (), { pass with errors := ⟨message, some place⟩ :: pass.errors }) := rfl

/-- A guarded computation turns a mistake into a note and no text. -/
theorem on_guarded (describe : String → String) (place : Place) (act : Run σ String)
    (pass : Pass σ) :
    (guarded describe place act).on pass =
      match act.on pass with
      | (.ok text, behind) => (.ok text, behind)
      | (.error (.failed message), behind) =>
        (.ok "", { behind with errors := ⟨describe message, some place⟩ :: behind.errors })
      | (.error (.fault f), behind) => (.error (.fault f), behind) := by
  rw [guarded, Run.on_tryCatch]
  rcases act.on pass with ⟨(message | f) | text, behind⟩ <;> rfl

/-- On other variables a computation runs as it would in a pass that has
them, and the pass behind it has the present ones again. -/
theorem on_withVariables (vars : Variables) (act : Run σ α) (pass : Pass σ) :
    (withVariables vars act).on pass =
      ((act.on { pass with vars }).1, { (act.on { pass with vars }).2 with vars := pass.vars }) := by
  simp only [withVariables, Run.on_bind, Run.on_get, Run.on_modify, Run.on_tryCatch]
  rcases act.on { pass with vars } with ⟨stop | a, behind⟩ <;> rfl

/-- A pending cut is made in the next text that is not empty. -/
theorem on_cutBehind (output : String) (pass : Pass σ) :
    (cutBehind output).on pass =
      if pass.pendingTrim && output ≠ "" then
        (.ok (String.ofList (Text.cutMarginStart output.toList)), { pass with pendingTrim := false })
      else (.ok output, pass) := by
  rw [cutBehind, Run.on_bind_ok (Run.on_get pass)]
  split <;> rfl

@[simp] theorem on_markBehind (trim : Trim) (pass : Pass σ) :
    (markBehind trim).on pass =
      (.ok (), { pass with pendingTrim := trim.right || pass.pendingTrim }) := by
  rw [markBehind]
  cases trim.right <;> rfl

/-- The parts behind others are rendered behind the text of those. -/
theorem on_renderNodes_append {output text : String} {earlier rest : List Node}
    {pass start : Pass σ} (h : (renderNodes context output earlier).on pass = (.ok text, start)) :
    (renderNodes context output (earlier ++ rest)).on pass = (renderNodes context text rest).on start := by
  induction earlier generalizing output pass with
  | nil =>
      rw [renderNodes] at h
      cases h
      rfl
  | cons node later ih =>
      rw [renderNodes] at h
      obtain ⟨_, _, hNode, h⟩ := of_on_bind h
      obtain ⟨_, _, hCut, h⟩ := of_on_bind h
      obtain ⟨_, _, hMark, h⟩ := of_on_bind h
      rw [List.cons_append, renderNodes, Run.on_bind_ok hNode, Run.on_bind_ok hCut,
        Run.on_bind_ok hMark]
      exact ih h

end NoteTemplate.Render
