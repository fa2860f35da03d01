import NoteTemplate.Proofs.Deferred.Flag
import NoteTemplate.Proofs.Scope.Visits

/-! Invariants of a rendering that speak of its variables, and of its flag as long
as it is down. Only an assignment changes the variables that a rendering goes on
with, so that what every assignment keeps to which a rendering comes holds
wherever it comes to. -/
namespace NoteTemplate.Render

variable {σ α β : Type} {context : Context σ} {I : Pass σ → Prop}

/-- What may be said of a pass: it stays true while the variables stay the same
and the flag is not taken down, and for the variables of a turn of a loop. -/
structure Invariant (I : Pass σ → Prop) : Prop where
  steady {pass behind : Pass σ} (h : I pass) (hVars : behind.vars = pass.vars)
    (hFlag : pass.deferred = true → behind.deferred = true) : I behind
  bound {pass : Pass σ} (h : I pass) (added : List (String × Value)) :
    I { pass with vars := bind pass.vars added }

/-- An assignment in this pass keeps what is said of it. -/
def AssignKeeps (I : Pass σ → Prop) (context : Context σ) (node : Node) (there : Pass σ) : Prop :=
  ∀ name e trim place, node = .assign name e trim place → I there →
    ∀ d behind, (eval context e).on there = (.ok d, behind) →
      I { behind with vars := behind.vars.assign name d }

/-- Every assignment to which a part comes keeps what is said of a pass. -/
def Keeps (I : Pass σ → Prop) (context : Context σ) (node : Node) (pass : Pass σ) : Prop :=
  ∀ inner there, Visits context node pass inner there → AssignKeeps I context inner there

/-- The same for parts one behind the other. -/
def KeepsIn (I : Pass σ → Prop) (context : Context σ) (nodes : List Node) (pass : Pass σ) : Prop :=
  ∀ inner there, VisitsIn context nodes pass inner there → AssignKeeps I context inner there

namespace Invariant

variable (hInvariant : Invariant I) {pass : Pass σ}

include hInvariant

theorem of_steady {act : Run σ α} (hFlag : KeepsFlag act)
    (hVars : ∀ pass, (act.on pass).2.vars = pass.vars) (hPass : I pass) : I (act.on pass).2 :=
  hInvariant.steady hPass (hVars pass) (hFlag pass)

theorem of_eval {e : Expr} {d : Datum} {behind : Pass σ} (hPass : I pass)
    (h : (eval context e).on pass = (.ok d, behind)) : I behind := by
  have hBehind : I ((eval context e).on pass).2 :=
    hInvariant.of_steady (eval_keepsFlag e) (eval_vars e) hPass
  rwa [h] at hBehind

/-- An invariant is kept by a step that leaves the variables as they are, and then by
what follows it. -/
theorem bind {act : Run σ α} {next : α → Run σ β} (hFlag : KeepsFlag act)
    (hVars : ∀ pass, (act.on pass).2.vars = pass.vars) (hPass : I pass)
    (hNext : ∀ a behind, act.on pass = (.ok a, behind) → I behind → I ((next a).on behind).2) :
    I (Run.on (act >>= next) pass).2 := by
  have hBehind := hInvariant.of_steady hFlag hVars hPass
  rw [Run.on_bind]
  rcases hOn : act.on pass with ⟨stop | a, behind⟩ <;> rw [hOn] at hBehind
  · exact hBehind
  · exact hNext a behind hOn hBehind

theorem guarded {describe : String → String} {place : Place} {act : Run σ String}
    (h : I (act.on pass).2) : I ((Render.guarded describe place act).on pass).2 := by
  rw [on_guarded]
  rcases hOn : act.on pass with ⟨(message | f) | text, behind⟩ <;> rw [hOn] at h
  · exact hInvariant.steady h rfl id
  · exact h
  · exact h

end Invariant

mutual

/-- An invariant holds behind a part if the assignments keep it to which the part
comes. -/
theorem holds_of_renderNode (hInvariant : Invariant I) : ∀ node {pass : Pass σ}, I pass →
    Keeps I context node pass → I ((renderNode context node).on pass).2
  | .text _ _, pass, hPass, _ => by
      rw [renderNode]
      exact hPass
  | .print e _ place, pass, hPass, _ => by
      rw [renderNode]
      exact hInvariant.guarded (hInvariant.of_steady
        (keepsFlag_renders.steps.printed (eval_keepsFlag e)) (printed_vars e) hPass)
  | .assign name e trim place, pass, hPass, hKeeps => by
      rw [renderNode]
      refine hInvariant.guarded (hInvariant.bind (eval_keepsFlag e) (eval_vars e) hPass ?_)
      intro d behind hOn _
      exact hKeeps _ _ (.here _ pass) name e trim place rfl hPass d behind hOn
  | .loop iterator iterable body _ place, pass, hPass, _ => by
      rw [renderNode]
      refine hInvariant.guarded
        (hInvariant.bind (eval_keepsFlag iterable) (eval_vars iterable) hPass ?_)
      intro d behind _ hBehind
      split
      · exact hBehind
      · -- The turns have variables of their own, so that those of the pass stay.
        exact hInvariant.of_steady
          (keepsFlag_renders.steps.loopText (renderNodes_keepsFlag "" body) iterator _)
          (loopText_vars iterator _ _) hBehind
      · exact hBehind
  | .conditional condition body branches otherwise trim place, pass, hPass, hKeeps => by
      rw [renderNode]
      refine hInvariant.guarded
        (hInvariant.bind (eval_keepsFlag condition) (eval_vars condition) hPass ?_)
      intro d middle hOn hMiddle
      split
      · next hTrue =>
        exact holds_of_renderNodes hInvariant "" body hMiddle fun inner there hVisits =>
          hKeeps inner there (hVisits.branch (List.nil_append _).symm (.nil pass) hOn hTrue)
      · next hFalse =>
        have hFails := Bool.eq_false_iff.mpr hFalse
        refine holds_of_renderBranches hInvariant branches hMiddle ?_ ?_
        · rintro before later inside after behind start last rfl hBefore hLater hTrue inner there
            hVisits
          exact hKeeps inner there (hVisits.branch (List.cons_append).symm
            (.cons hOn hFails hBefore) hLater hTrue)
        · intro behind hBefore hBehind
          refine holds_of_renderOtherwise hInvariant otherwise hBehind ?_
          rintro inside rfl inner there hVisits
          exact hKeeps inner there (hVisits.otherwise (.cons hOn hFails hBefore))

/-- A branch without a condition keeps an invariant if its body does. -/
theorem holds_of_renderOtherwise (hInvariant : Invariant I) : ∀ otherwise {pass : Pass σ}, I pass →
    (∀ body, otherwise = some body → KeepsIn I context body pass) →
    I ((renderOtherwise context otherwise).on pass).2
  | some body, pass, hPass, hKeeps => by
      rw [renderOtherwise]
      exact holds_of_renderNodes hInvariant "" body hPass (hKeeps body rfl)
  | none, pass, hPass, _ => by
      rw [renderOtherwise]
      exact hPass

/-- Branches keep an invariant if the body of the one that is taken does, wherever it
is. -/
theorem holds_of_renderBranches (hInvariant : Invariant I) {otherwise : Run σ String} :
    ∀ branches {pass : Pass σ}, I pass →
    (∀ before condition body after middle start d,
      branches = before ++ (condition, body) :: after → Fails context before pass middle →
      (eval context condition).on middle = (.ok d, start) → d.truthy = true →
      KeepsIn I context body start) →
    (∀ middle, Fails context branches pass middle → I middle → I (otherwise.on middle).2) →
    I ((renderBranches context otherwise branches).on pass).2
  | [], pass, hPass, _, hLast => by
      rw [renderBranches]
      exact hLast pass (.nil pass) hPass
  | (condition, body) :: rest, pass, hPass, hBodies, hLast => by
      rw [renderBranches]
      refine hInvariant.bind (eval_keepsFlag condition) (eval_vars condition) hPass ?_
      intro d middle hOn hMiddle
      split
      · next hTrue =>
        exact holds_of_renderNodes hInvariant "" body hMiddle
          (hBodies [] condition body rest pass middle d rfl (.nil pass) hOn hTrue)
      · next hFalse =>
        have hFails := Bool.eq_false_iff.mpr hFalse
        refine holds_of_renderBranches hInvariant rest hMiddle ?_ fun last hRest => ?_
        · rintro before later inside after behind start last rfl hBefore
          exact hBodies ((condition, body) :: before) later inside after behind start last rfl
            (.cons hOn hFails hBefore)
        · exact hLast last (.cons hOn hFails hRest)

/-- Parts keep an invariant if every expression does that they reach. -/
theorem holds_of_renderNodes (hInvariant : Invariant I) : ∀ output nodes {pass : Pass σ}, I pass →
    KeepsIn I context nodes pass → I ((renderNodes context output nodes).on pass).2
  | output, [], pass, hPass, _ => by
      rw [renderNodes]
      exact hPass
  | output, node :: rest, pass, hPass, hKeeps => by
      have hNode : I ((renderNode context node).on pass).2 :=
        holds_of_renderNode hInvariant node hPass fun inner there hVisits =>
          hKeeps inner there (visitsIn_first hVisits)
      rw [renderNodes, Run.on_bind]
      rcases hOn : (renderNode context node).on pass with ⟨stop | text, behind⟩ <;> rw [hOn] at hNode
      · exact hNode
      refine hInvariant.bind (keepsFlag_renders.cutBehind text) (cutBehind_vars text) hNode ?_
      intro cut middle hCut hMiddle
      refine hInvariant.bind (keepsFlag_renders.steps.markBehind node.trim)
        (markBehind_vars node.trim) hMiddle ?_
      intro _ start hMark hStart
      -- The parts behind the first one begin where rendering that part alone ends.
      have hFirst : (renderNodes context "" [node]).on pass =
          (.ok (cutBefore node.trim "" ++ cut), start) := by
        rw [renderNodes, Run.on_bind_ok hOn, Run.on_bind_ok hCut, Run.on_bind_ok hMark, renderNodes]
        rfl
      exact holds_of_renderNodes hInvariant _ rest hStart fun inner there hVisits =>
        hKeeps inner there (hVisits.cons hFirst)

end

variable {earlier later : List Node} {pass start : Pass σ} {text : String}

theorem KeepsIn.behind {nodes : List Node} {output : String} (hInvariant : Invariant I)
    (h : KeepsIn I context nodes pass) (hPass : I pass)
    (hOn : (renderNodes context output nodes).on pass = (.ok text, start)) : I start := by
  have hBehind := holds_of_renderNodes hInvariant output nodes hPass h
  rwa [hOn] at hBehind

theorem KeepsIn.front (h : KeepsIn I context (earlier ++ later) pass) :
    KeepsIn I context earlier pass :=
  fun inner there hVisits => h inner there (hVisits.append later)

theorem KeepsIn.node {node : Node} (h : KeepsIn I context (earlier ++ node :: later) pass)
    (hEarlier : (renderNodes context "" earlier).on pass = (.ok text, start)) :
    Keeps I context node start :=
  fun inner there hVisits => h inner there ⟨earlier, node, later, text, start, rfl, hEarlier, hVisits⟩

/-! The flag that is up stays up. -/

theorem evalArgs_keepsFlag (args : List Expr) : KeepsFlag (evalArgs context args) :=
  keepsFlag_compositional.evalArgs (fun _ => (resolveOutside_detached _).keepsFlag) args

theorem Fails.deferred {branches : List (Expr × List Node)} {pass behind : Pass σ}
    (h : Fails context branches pass behind) (hUp : pass.deferred = true) :
    behind.deferred = true := by
  induction h with
  | nil pass => exact hUp
  | cons hCondition _ _ ih => exact ih ((eval_keepsFlag _).up hCondition hUp)

/-- A flag that is up stays up until a part of an expression is reached. -/
theorem EvalReaches.deferred {e part : Expr} {pass there : Pass σ}
    (h : EvalReaches context e pass part there) (hUp : pass.deferred = true) :
    there.deferred = true := by
  induction h with
  | here e pass => exact hUp
  | negated _ ih => exact ih hUp
  | grouped _ ih => exact ih hUp
  | left _ ih => exact ih hUp
  | right hLeft _ _ ih => exact ih ((eval_keepsFlag _).up hLeft hUp)
  | object _ ih => exact ih hUp
  | indexed _ ih => exact ih hUp
  | key hObject _ ih => exact ih ((eval_keepsFlag _).up hObject hUp)
  | filtered _ ih => exact ih hUp
  | argument hValue hBefore _ ih =>
      exact ih ((evalArgs_keepsFlag _).up hBefore ((eval_keepsFlag _).up hValue hUp))

theorem deferred_of_turns {iterator : String} {length : Nat} {nodes : List Node} {past : List Value}
    {texts : List String} {middle behind : Pass σ}
    (h : (turns iterator length (renderNodes context "" nodes) 0 past).on middle =
      (.ok texts, behind)) (hUp : middle.deferred = true) : behind.deferred = true :=
  (keepsFlag_renders.steps.turns (renderNodes_keepsFlag "" nodes) iterator _ _ past).up h hUp

namespace Invariant

variable (hInvariant : Invariant I) {pass middle behind there : Pass σ}

include hInvariant

theorem of_fails {branches : List (Expr × List Node)} (hPass : I pass)
    (h : Fails context branches pass behind) : I behind :=
  hInvariant.steady hPass h.vars_eq h.deferred

theorem of_turns {iterator : String} {length : Nat} {nodes : List Node} {past : List Value}
    {texts : List String} (hPass : I middle)
    (h : (turns iterator length (renderNodes context "" nodes) 0 past).on middle =
      (.ok texts, behind)) (added : List (String × Value)) :
    I { behind with vars := Render.bind behind.vars added } :=
  hInvariant.bound (hInvariant.steady hPass (vars_of_turns h) (deferred_of_turns h)) added

end Invariant

/-! Wherever a rendering comes to. -/

/-- What every assignment keeps holds of the parts to which a part comes. -/
theorem Keeps.there (hInvariant : Invariant I) {node inner : Node} {pass there : Pass σ}
    (h : Keeps I context node pass) (hPass : I pass) (hVisits : Visits context node pass inner there) :
    I there := by
  induction hVisits with
  | here node pass => exact hPass
  | branch hBranches hFails hCondition hTrue hEarlier _ ih =>
      have hInside : KeepsIn I context _ _ := fun part place hPart =>
        h part place (hPart.branch hBranches hFails hCondition hTrue)
      have hStart := hInvariant.of_eval (hInvariant.of_fails hPass hFails) hCondition
      exact ih (hInside.node hEarlier) (hInside.front.behind hInvariant hStart hEarlier)
  | otherwise hFails hEarlier _ ih =>
      have hInside : KeepsIn I context _ _ := fun part place hPart =>
        h part place (hPart.otherwise hFails)
      have hStart := hInvariant.of_fails hPass hFails
      exact ih (hInside.node hEarlier) (hInside.front.behind hInvariant hStart hEarlier)
  | turn hIterable hPast hEarlier _ ih =>
      have hInside : KeepsIn I context _ _ := fun part place hPart =>
        h part place (hPart.turn hIterable hPast)
      have hStart := hInvariant.of_turns (hInvariant.of_eval hPass hIterable) hPast
      exact ih (hInside.node hEarlier) (hInside.front.behind hInvariant (hStart _) hEarlier)

theorem KeepsIn.there (hInvariant : Invariant I) {nodes : List Node} {inner : Node}
    {pass there : Pass σ} (h : KeepsIn I context nodes pass) (hPass : I pass)
    (hVisits : VisitsIn context nodes pass inner there) : I there := by
  obtain ⟨earlier, node, later, text, start, rfl, hEarlier, hVisits⟩ := hVisits
  exact (h.node hEarlier).there hInvariant (h.front.behind hInvariant hPass hEarlier) hVisits

/-- An expression is evaluated where a part is rendered, with the variables of
that part. -/
theorem Reaches.exists_visit {node : Node} {part : Expr} {pass there : Pass σ}
    (h : Reaches context node pass part there) :
    ∃ inner middle, Visits context node pass inner middle ∧ there.vars = middle.vars ∧
      (middle.deferred = true → there.deferred = true) := by
  induction h with
  | print _ h => exact ⟨_, _, .here _ _, h.vars_eq, h.deferred⟩
  | assign h => exact ⟨_, _, .here _ _, h.vars_eq, h.deferred⟩
  | condition _ hFails h =>
      exact ⟨_, _, .here _ _, h.vars_eq.trans hFails.vars_eq, fun hUp =>
        h.deferred (hFails.deferred hUp)⟩
  | branch hBranches hFails hCondition hTrue hEarlier _ ih =>
      obtain ⟨inner, middle, hVisits, hThere⟩ := ih
      exact ⟨inner, middle, .branch hBranches hFails hCondition hTrue hEarlier hVisits, hThere⟩
  | otherwise hFails hEarlier _ ih =>
      obtain ⟨inner, middle, hVisits, hThere⟩ := ih
      exact ⟨inner, middle, .otherwise hFails hEarlier hVisits, hThere⟩
  | iterable h => exact ⟨_, _, .here _ _, h.vars_eq, h.deferred⟩
  | turn hIterable hItems hPast hBody hEarlier _ ih =>
      subst hItems hBody
      obtain ⟨inner, middle, hVisits, hThere⟩ := ih
      exact ⟨inner, middle, .turn hIterable hPast hEarlier hVisits, hThere⟩

/-- What every assignment keeps holds wherever an expression is evaluated. -/
theorem KeepsIn.reached (hInvariant : Invariant I) {nodes : List Node} {part : Expr}
    {pass there : Pass σ} (h : KeepsIn I context nodes pass) (hPass : I pass)
    (hReaches : ReachesIn context nodes pass part there) : I there := by
  obtain ⟨earlier, node, later, text, start, rfl, hEarlier, hReaches⟩ := hReaches
  obtain ⟨inner, middle, hVisits, hVars, hFlag⟩ := hReaches.exists_visit
  have hMiddle := h.there hInvariant hPass ⟨earlier, node, later, text, start, rfl, hEarlier, hVisits⟩
  exact hInvariant.steady hMiddle hVars hFlag

end NoteTemplate.Render
