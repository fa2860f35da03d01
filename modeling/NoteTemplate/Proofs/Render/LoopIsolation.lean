import NoteTemplate.Proofs.Render.PendingCut

/-! The turns of a loop do not see each other. Each comes to what it comes to
in a pass of its own, with no notes and no pending cut; the loop joins the
texts without the blanks around them, adds the notes turn by turn, and leaves
the variables and the pending cut as it found them. -/
namespace NoteTemplate.Render

open Text

variable {σ : Type} {context : Context σ}

/-- A turn of a loop in a pass of its own. Of the pass around the loop it has
the variables, with those of the turn added, and the state of the resolver. -/
def turnAlone (context : Context σ) (iterator : String) (body : List Node) (length : Nat)
    (pass : Pass σ) (index : Nat) (item : Value) : Except Stop String × Pass σ :=
  (renderNodes context "" body).on
    { vars := bind pass.vars (bindings iterator item index length), world := pass.world }

/-- The turns of a loop over some of its items, from an index on, each in a
pass of its own. -/
def turnsAlone (context : Context σ) (iterator : String) (body : List Node) (length : Nat)
    (pass : Pass σ) (index : Nat) (items : List Value) : List (Except Stop String × Pass σ) :=
  (items.zipIdx index).map fun (item, index) =>
    turnAlone context iterator body length pass index item

/-- A turn as the loop runs it. -/
def turnInside (context : Context σ) (iterator : String) (body : List Node) (length : Nat)
    (pass : Pass σ) (index : Nat) (item : Value) : Except Stop String × Pass σ :=
  (withVariables (bind pass.vars (bindings iterator item index length))
    (renderNodes context "" body)).on pass

section Turn

variable (context) (iterator : String) (body : List Node) (length index : Nat) (item : Value)
  (pass : Pass σ)

/-- The turn of its own with the earlier notes put behind it differs from the
turn inside the loop at most in the pending cut at its beginning. -/
theorem turnAlone_alike :
    Alike ((turnAlone context iterator body length pass index item).1,
        (turnAlone context iterator body length pass index item).2.behind pass.errors pass.deferred)
      ((renderNodes context "" body).on
        { pass with vars := bind pass.vars (bindings iterator item index length) }) := by
  let fresh : Pass σ :=
    { vars := bind pass.vars (bindings iterator item index length), world := pass.world }
  have hLoose : Loose (renderNodes context "" body) := renderNodes_loose body
  have hAlike := hLoose (fresh.behind pass.errors pass.deferred) { pass with vars := fresh.vars }
    ⟨pass.pendingTrim, by simp [fresh, Pass.behind]⟩
  rw [renderNodes_resumes] at hAlike
  exact hAlike

variable {context iterator body length index item pass}

/-- A turn that ends well on its own ends well inside of the loop, with the same
variables, and with its errors in front of the earlier ones. -/
theorem turnInside_of_ok (hStateless : context.Stateless) {text : String} {alone : Pass σ}
    (h : turnAlone context iterator body length pass index item = (.ok text, alone)) :
    ∃ s pending, turnInside context iterator body length pass index item =
      (.ok s, { pass with
        errors := alone.errors ++ pass.errors
        deferred := pass.deferred || alone.deferred
        pendingTrim := pending }) ∧ strip s = strip text := by
  have hAlike := turnAlone_alike context iterator body length index item pass
  have hWorld : alone.world = pass.world := by
    rw [← congrArg (fun outcome => outcome.2.world) h]
    exact renderNodes_keepsWorld hStateless "" body _
  rw [h] at hAlike
  rw [turnInside, on_withVariables]
  generalize (renderNodes context "" body).on { pass with vars := _ } = inside at hAlike ⊢
  cases hAlike with
  | @text _ s _ _ hText hPass =>
      obtain ⟨pending, rfl⟩ := hPass
      refine ⟨s, pending, ?_, (strip_congr hText).symm⟩
      simp [Pass.behind, hWorld]

/-- A turn that stops on its own stops inside of the loop. -/
theorem turnInside_of_error {stop : Stop} {alone : Pass σ}
    (h : turnAlone context iterator body length pass index item = (.error stop, alone)) :
    (turnInside context iterator body length pass index item).1 = .error stop := by
  have hAlike := turnAlone_alike context iterator body length index item pass
  rw [h] at hAlike
  rw [turnInside, on_withVariables]
  generalize (renderNodes context "" body).on { pass with vars := _ } = inside at hAlike ⊢
  cases hAlike with
  | stop hPass => rfl

end Turn

variable {iterator : String} {body : List Node} {length : Nat}

theorem turnsAlone_cons (pass : Pass σ) (index : Nat) (item : Value) (rest : List Value) :
    turnsAlone context iterator body length pass index (item :: rest) =
      turnAlone context iterator body length pass index item ::
        turnsAlone context iterator body length pass (index + 1) rest := rfl

/-- Of the pass around the loop, a turn of its own has the variables and the
state of the resolver only. -/
theorem turnsAlone_of_same {p q : Pass σ} (hVars : p.vars = q.vars) (hWorld : p.world = q.world) :
    turnsAlone context iterator body length p = turnsAlone context iterator body length q := by
  funext index items
  simp only [turnsAlone, turnAlone, hVars, hWorld]

/-- When every turn of its own ends with a text, the loop has those texts
without the blanks around them, and the notes of all turns. -/
theorem turns_of_ok (hStateless : context.Stateless) (items : List Value) {texts : List String}
    (index : Nat) (pass : Pass σ)
    (h : (turnsAlone context iterator body length pass index items).map (·.1) = texts.map .ok) :
    ∃ pending,
      (turns iterator length (renderNodes context "" body) index items).on pass =
        (.ok (texts.map strip), { pass with
          errors := (turnsAlone context iterator body length pass index items).reverse.flatMap
            (·.2.errors) ++ pass.errors
          deferred := pass.deferred ||
            (turnsAlone context iterator body length pass index items).any (·.2.deferred)
          pendingTrim := pending }) := by
  induction items generalizing texts index pass with
  | nil =>
      cases texts with
      | nil => exact ⟨pass.pendingTrim, by simp [turns, turnsAlone]⟩
      | cons text texts => cases h
  | cons item rest ih =>
      cases texts with
      | nil => cases h
      | cons text texts =>
          rw [turnsAlone_cons, List.map_cons, List.map_cons, List.cons.injEq] at h
          obtain ⟨hFirst, hRest⟩ := h
          rcases hAlone : turnAlone context iterator body length pass index item with ⟨_, alone⟩
          rw [hAlone] at hFirst
          cases hFirst
          obtain ⟨s, pending, hInside, hStrip⟩ := turnInside_of_ok hStateless hAlone
          rw [turnInside] at hInside
          -- The next turn starts from the variables and the state this one started from.
          let next : Pass σ := { pass with
            errors := alone.errors ++ pass.errors
            deferred := pass.deferred || alone.deferred
            pendingTrim := pending }
          have hSame : turnsAlone context iterator body length next =
              turnsAlone context iterator body length pass := turnsAlone_of_same rfl rfl
          obtain ⟨last, hLater⟩ := ih (index + 1) next hRest
          rw [hSame] at hLater
          refine ⟨last, ?_⟩
          simp only [turns, Run.on_bind, Run.on_get, hInside, hLater, Run.on_pure, hStrip, next]
          simp [turnsAlone_cons, hAlone, Bool.or_assoc]

/-- The first turn of its own that stops is where the loop stops. -/
theorem turns_of_error (hStateless : context.Stateless) (items : List Value) {texts : List String}
    {stop : Stop} {rest : List (Except Stop String)} (index : Nat) (pass : Pass σ)
    (h : (turnsAlone context iterator body length pass index items).map (·.1) =
      texts.map .ok ++ .error stop :: rest) :
    ((turns iterator length (renderNodes context "" body) index items).on pass).1 =
      .error stop := by
  induction items generalizing texts index pass with
  | nil => cases texts <;> cases h
  | cons item later ih =>
      rcases hAlone : turnAlone context iterator body length pass index item with ⟨_, alone⟩
      rw [turnsAlone_cons, List.map_cons, hAlone] at h
      cases texts with
      | nil =>
          obtain ⟨rfl, -⟩ := List.cons.inj h
          have hInside := turnInside_of_error hAlone
          rw [turnInside] at hInside
          simp only [turns, Run.on_bind, Run.on_get]
          generalize (withVariables _ _).on pass = inside at hInside
          rcases inside with ⟨_, behind⟩
          cases hInside
          rfl
      | cons text texts =>
          obtain ⟨rfl, hRest⟩ := List.cons.inj h
          obtain ⟨s, pending, hInside, -⟩ := turnInside_of_ok hStateless hAlone
          rw [turnInside] at hInside
          have hLater := ih (index + 1) { pass with
            errors := alone.errors ++ pass.errors
            deferred := pass.deferred || alone.deferred
            pendingTrim := pending } hRest
          simp only [turns, Run.on_bind, Run.on_get, hInside]
          generalize (turns iterator length (renderNodes context "" body) (index + 1) later).on _ =
            outcome at hLater
          rcases outcome with ⟨_, behind⟩
          cases hLater
          rfl

/-- Mistakes are noted within a part, so that only a fault ends a rendering. -/
theorem renderNode_not_failed (node : Node) (pass : Pass σ) (message : String) :
    ((renderNode context node).on pass).1 ≠ .error (.failed message) := by
  have hGuarded (describe : String → String) (place : Place) (act : Run σ String) :
      ((guarded describe place act).on pass).1 ≠ .error (.failed message) := by
    rw [on_guarded]
    rcases act.on pass with ⟨(text | f) | text, behind⟩ <;> simp
  cases node <;> rw [renderNode]
  case text => simp
  all_goals exact hGuarded _ _ _

/-- Rendering parts never stops for a mistake: mistakes are noted. -/
theorem renderNodes_not_failed (output : String) (nodes : List Node) (pass : Pass σ)
    (message : String) : ((renderNodes context output nodes).on pass).1 ≠ .error (.failed message) := by
  induction nodes generalizing output pass with
  | nil =>
      rw [renderNodes]
      simp
  | cons node rest ih =>
      have hNode : ((renderNode context node).on pass).1 ≠ .error (.failed message) :=
        renderNode_not_failed node pass message
      simp only [renderNodes, Run.on_bind]
      generalize (renderNode context node).on pass = outcome at hNode
      rcases outcome with ⟨stop | text, behind⟩
      · exact hNode
      · obtain ⟨cut, pending, hCut, -⟩ := on_cutBehind_cases text behind
        simp only [hCut, on_markBehind]
        exact ih _ _

/-- A stop of a turn is a fault. -/
theorem stop_of_turnsAlone {pass : Pass σ} {index : Nat} {items : List Value} {stop : Stop}
    (h : .error stop ∈ (turnsAlone context iterator body length pass index items).map (·.1)) :
    ∃ f, stop = .fault f := by
  obtain ⟨outcome, hTurn, hStop⟩ := List.mem_map.mp h
  obtain ⟨⟨item, index⟩, -, rfl⟩ := List.mem_map.mp hTurn
  cases stop with
  | fault f => exact ⟨f, rfl⟩
  | failed message => exact absurd hStop (renderNodes_not_failed _ _ _ _)

/-- A loop over a list is its turns, each in a pass of its own: their texts
without the blanks around them, and their notes in order. A fault in a turn is
a fault of the loop. A cut pending before the body shows in nothing that is
kept of its text. -/
theorem loop_isolated (hStateless : context.Stateless) (iterator : String) (iterable : Expr)
    (body : List Node) (trim : Trim) (place : Place) (pass behind : Pass σ) (items : List Value)
    (hItems : (eval context iterable).on pass = (.ok (.plain (.arr items)), behind)) :
    let alone := turnsAlone context iterator body items.length pass 0 items
    let outcome := (renderNode context (.loop iterator iterable body trim place)).on pass
    (∀ texts : List String, alone.map (·.1) = texts.map .ok →
      outcome = (.ok (String.intercalate "\n" (texts.map strip)), { pass with
        errors := (alone.flatMap (·.2.errors.reverse)).reverse ++ pass.errors
        deferred := behind.deferred || alone.any (·.2.deferred) })) ∧
    (∀ (texts : List String) (stop : Stop) (rest : List (Except Stop String)),
      alone.map (·.1) = texts.map .ok ++ .error stop :: rest → outcome.1 = .error stop) ∧
    ∀ (start : Pass σ) (pending : Bool),
      ((renderNodes context "" body).on { start with pendingTrim := pending }).1.map strip =
        ((renderNodes context "" body).on start).1.map strip := by
  -- Evaluating the list leaves all but the flag of what was put off.
  have hBehind : behind = { pass with deferred := behind.deferred } := by
    obtain ⟨core, hCore⟩ : Detached (eval context iterable) := eval_detached iterable
    have hWorld := eval_keepsWorld hStateless iterable pass
    rw [hItems] at hWorld
    rw [hCore] at hItems
    obtain ⟨-, rfl⟩ := Prod.mk.inj hItems
    simpa using hWorld
  have hSame : turnsAlone context iterator body items.length behind =
      turnsAlone context iterator body items.length pass := by
    rw [hBehind]
    exact turnsAlone_of_same rfl rfl
  intro alone outcome
  refine ⟨fun texts hTexts => ?_, fun texts stop rest hTurns => ?_, fun start pending => ?_⟩
  · obtain ⟨pending, hLoop⟩ := turns_of_ok hStateless items 0 behind (by rw [hSame]; exact hTexts)
    rw [hSame] at hLoop
    simp only [outcome, renderNode, on_guarded, Run.on_bind_ok hItems]
    simp only [loopText, Run.on_bind_ok (Run.on_get behind), Run.on_bind_ok hLoop]
    simp only [Run.on_bind, Run.on_modify, Run.on_pure]
    rw [hBehind]
    simp [List.reverse_flatMap, Function.comp_def, alone]
  · have hStop : .error stop ∈ alone.map (·.1) := by
      rw [hTurns]
      simp
    obtain ⟨f, rfl⟩ := stop_of_turnsAlone hStop
    have hLoop := turns_of_error hStateless items 0 behind (by rw [hSame]; exact hTurns)
    simp only [outcome, renderNode, on_guarded, Run.on_bind_ok hItems]
    simp only [loopText, Run.on_bind_ok (Run.on_get behind), Run.on_bind]
    generalize (turns iterator items.length (renderNodes context "" body) 0 items).on behind =
      result at hLoop
    rcases result with ⟨_, last⟩
    cases hLoop
    rfl
  · have hLoose : Loose (renderNodes context "" body) := renderNodes_loose body
    have hAlike := hLoose { start with pendingTrim := pending } start ⟨start.pendingTrim, rfl⟩
    generalize (renderNodes context "" body).on { start with pendingTrim := pending } = first,
      (renderNodes context "" body).on start = second at hAlike
    cases hAlike with
    | text hText hPass => exact congrArg Except.ok (strip_congr hText)
    | stop hPass => rfl

/-- The cut that the variable asks for reaches the text of the second turn, and
is no longer seen once the blanks around that text are gone. -/
theorem loop_isolated_two_turns :
    let context : Context Unit := {}
    let place : Place := ⟨1, 1⟩
    let body : List Node :=
      [.text " - " place, .print (.identifier "item" place) ⟨false, true⟩ place]
    let items : List Value := [.str "a", .str "b"]
    let pass : Pass Unit := { vars := [(.text "items", .plain (.arr items))], world := () }
    ((renderNode context (.loop "item" (.identifier "items" place) body ⟨false, false⟩ place)).on
      pass) = (.ok "- a\n- b", pass) := by
  intro context place body items pass
  have hStateless : context.Stateless := fun _ h => by cases h
  have hItems : (eval context (.identifier "items" place)).on pass =
      (.ok (.plain (.arr items)), pass) := by rfl
  exact (loop_isolated hStateless "item" (.identifier "items" place) body ⟨false, false⟩ place
    pass pass items hItems).1 [" - a", " - b"] (by rfl)

end NoteTemplate.Render
