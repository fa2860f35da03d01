import NoteTemplate.Proofs.Deferred.Invariant

/-! The flag of a rendering against everything that happens in it. A part or an
expression that a rendering comes to raises the flag of the whole rendering, and
as long as the flag is down there is no variable but with a value. -/
namespace NoteTemplate.Render

variable {σ α β : Type} {context : Context σ}

/-- The flag is up, or no variable holds an expression that was put off. -/
def Pass.Candid (pass : Pass σ) : Prop := pass.deferred = false → Settled pass.vars

/-- That a pass is candid is kept by every step, since a deferred datum raises the flag
as it comes up. -/
theorem candid_invariant : Invariant (@Pass.Candid σ) where
  steady {pass behind} h hVars hFlag := by
    intro hDown
    rw [hVars]
    refine h (Bool.eq_false_iff.mpr fun hUp => ?_)
    rw [hFlag hUp] at hDown
    cases hDown
  bound h added := fun hDown => (h hDown).bind added

/-- What is assigned is a value, or the flag is up. -/
theorem keepsIn_candid (nodes : List Node) (pass : Pass σ) :
    KeepsIn Pass.Candid context nodes pass := by
  intro inner there _ name e trim place _ hThere d behind hOn hDown
  have hBehind := candid_invariant.of_eval hThere hOn hDown
  -- The flag was down as well when the expression was evaluated, so that it gave a value.
  have hBefore := (eval_keepsFlag e).down hOn hDown
  exact hBehind.assign (eval_yieldsValue e _ _ _ (hThere hBefore) hOn hDown) name

/-- The pass behind the turns of a loop is the one behind the later turns. -/
theorem on_turns_append {iterator : String} {length index : Nat} {body : Run σ String}
    {past : List Value} {texts : List String} {pass behind : Pass σ}
    (h : (turns iterator length body index past).on pass = (.ok texts, behind)) (rest : List Value) :
    ((turns iterator length body index (past ++ rest)).on pass).2 =
      ((turns iterator length body (index + past.length) rest).on behind).2 := by
  induction past generalizing index pass texts with
  | nil =>
      rw [turns] at h
      cases h
      rfl
  | cons item later ih =>
      rw [turns, Run.on_bind_ok (Run.on_get pass)] at h
      obtain ⟨_, _, hTurn, h⟩ := of_on_bind h
      obtain ⟨_, _, hLater, h⟩ := of_on_bind h
      cases h
      have hRest := ih hLater
      rw [Nat.add_right_comm index 1, Nat.add_assoc index] at hRest
      rw [List.cons_append, turns, Run.on_bind_ok (Run.on_get pass), Run.on_bind_ok hTurn,
        List.length_cons, ← hRest, Run.on_bind]
      rcases (turns iterator length body (index + 1) (later ++ rest)).on _ with ⟨stop | _, last⟩ <;> rfl

/-- The flag that the beginning of a computation raises is up behind the whole. -/
theorem flag_of_first {act : Run σ α} {next : α → Run σ β} {pass : Pass σ}
    (hNext : ∀ a, KeepsFlag (next a)) (hFlag : (act.on pass).2.deferred = true) :
    (Run.on (act >>= next) pass).2.deferred = true := by
  rw [Run.on_bind]
  rcases hOn : act.on pass with ⟨stop | a, behind⟩ <;> rw [hOn] at hFlag
  · exact hFlag
  · exact hNext a behind hFlag

theorem flag_of_later {act : Run σ α} {next : α → Run σ β} {pass middle : Pass σ} {a : α}
    (hAct : act.on pass = (.ok a, middle)) (hFlag : ((next a).on middle).2.deferred = true) :
    (Run.on (act >>= next) pass).2.deferred = true := by
  rw [Run.on_bind_ok hAct]
  exact hFlag

/-- The flag is up behind parts when it is up behind one of them. -/
theorem flag_of_node {earlier later : List Node} {node : Node} {text : String} {pass start : Pass σ}
    (hEarlier : (renderNodes context "" earlier).on pass = (.ok text, start))
    (hFlag : ((renderNode context node).on start).2.deferred = true) :
    ((renderNodes context "" (earlier ++ node :: later)).on pass).2.deferred = true := by
  rw [on_renderNodes_append hEarlier, renderNodes]
  refine flag_of_first (fun text => ?_) hFlag
  refine keepsFlag_compositional.bind (keepsFlag_renders.cutBehind text) fun text => ?_
  exact keepsFlag_compositional.bind (keepsFlag_renders.steps.markBehind node.trim) fun _ =>
    renderNodes_keepsFlag _ later

/-- A condition with all its branches in a row. -/
theorem flag_conditional (first : Expr) (body : List Node) (branches : List (Expr × List Node))
    (otherwise : Option (List Node)) (trim : Trim) (place : Place) (pass : Pass σ) :
    ((renderNode context (.conditional first body branches otherwise trim place)).on
      pass).2.deferred =
      ((renderBranches context (renderOtherwise context otherwise) ((first, body) :: branches)).on
        pass).2.deferred := by
  rw [renderNode, guarded_flag, renderBranches]

theorem renderBranches_keepsFlag (otherwise : Option (List Node))
    (branches : List (Expr × List Node)) :
    KeepsFlag (renderBranches context (renderOtherwise context otherwise) branches) :=
  keepsFlag_renders.branches eval_keepsFlag (keepsFlag_renders.otherwise eval_keepsFlag otherwise)
    branches

/-- A condition that raises the flag raises it for the whole block. -/
theorem flag_of_condition {first condition : Expr} {body inner : List Node}
    {branches before after : List (Expr × List Node)} {otherwise : Option (List Node)}
    {trim : Trim} {place : Place} {pass middle : Pass σ}
    (hBranches : (first, body) :: branches = before ++ (condition, inner) :: after)
    (hFails : Fails context before pass middle)
    (hFlag : ((eval context condition).on middle).2.deferred = true) :
    ((renderNode context (.conditional first body branches otherwise trim place)).on
      pass).2.deferred = true := by
  rw [flag_conditional, hBranches, on_renderBranches_of_fails hFails, renderBranches]
  refine flag_of_first (fun d => ?_) hFlag
  split
  · exact renderNodes_keepsFlag "" inner
  · exact renderBranches_keepsFlag otherwise after

/-- The body of the branch that is taken raises the flag for the whole block. -/
theorem flag_of_branch {first condition : Expr} {body inner : List Node}
    {branches before after : List (Expr × List Node)} {otherwise : Option (List Node)}
    {trim : Trim} {place : Place} {pass middle behind : Pass σ} {d : Datum}
    (hBranches : (first, body) :: branches = before ++ (condition, inner) :: after)
    (hFails : Fails context before pass middle)
    (hCondition : (eval context condition).on middle = (.ok d, behind)) (hTrue : d.truthy = true)
    (hFlag : ((renderNodes context "" inner).on behind).2.deferred = true) :
    ((renderNode context (.conditional first body branches otherwise trim place)).on
      pass).2.deferred = true := by
  rw [flag_conditional, hBranches, on_renderBranches_of_fails hFails, renderBranches]
  refine flag_of_later hCondition ?_
  rw [hTrue]
  exact hFlag

/-- A branch without a condition that raises the flag raises it for the whole block. -/
theorem flag_of_otherwise {first : Expr} {body inner : List Node}
    {branches : List (Expr × List Node)} {trim : Trim} {place : Place} {pass middle : Pass σ}
    (hFails : Fails context ((first, body) :: branches) pass middle)
    (hFlag : ((renderNodes context "" inner).on middle).2.deferred = true) :
    ((renderNode context (.conditional first body branches (some inner) trim place)).on
      pass).2.deferred = true := by
  have hLast :
      (renderBranches context (renderOtherwise context (some inner)) ((first, body) :: branches)).on
        pass = (renderBranches context (renderOtherwise context (some inner)) []).on middle := by
    rw [← on_renderBranches_of_fails hFails [], List.append_nil]
  rw [flag_conditional, hLast, renderBranches, renderOtherwise]
  exact hFlag

/-- What a loop runs over raises the flag for the loop. -/
theorem flag_of_iterable {iterator : String} {iterable : Expr} {body : List Node} {trim : Trim}
    {place : Place} {pass : Pass σ} (hFlag : ((eval context iterable).on pass).2.deferred = true) :
    ((renderNode context (.loop iterator iterable body trim place)).on pass).2.deferred = true := by
  rw [renderNode, guarded_flag]
  refine flag_of_first (fun d => ?_) hFlag
  split
  · exact keepsFlag_compositional.done ""
  · exact keepsFlag_renders.steps.loopText (renderNodes_keepsFlag "" body) iterator _
  · exact keepsFlag_compositional.failed _

/-- A turn that raises the flag raises it for the whole loop. -/
theorem flag_of_turn {iterator : String} {iterable : Expr} {body : List Node} {trim : Trim}
    {place : Place} {pass middle behind : Pass σ} {items past future : List Value} {item : Value}
    {texts : List String}
    (hIterable : (eval context iterable).on pass = (.ok (.plain (.arr items)), middle))
    (hItems : items = past ++ item :: future)
    (hPast : (turns iterator items.length (renderNodes context "" body) 0 past).on middle =
      (.ok texts, behind))
    (hFlag : ((renderNodes context "" body).on
      { behind with
        vars := bind behind.vars (bindings iterator item past.length items.length) }).2.deferred =
        true) :
    ((renderNode context (.loop iterator iterable body trim place)).on pass).2.deferred = true := by
  subst hItems
  rw [renderNode, guarded_flag]
  refine flag_of_later hIterable ?_
  show ((loopText iterator _ (renderNodes context "" body)).on middle).2.deferred = true
  rw [loopText]
  refine flag_of_later (Run.on_get middle) (flag_of_first (fun _ => ?_) ?_)
  · exact keepsFlag_compositional.bind (keepsFlag_renders.setPending _) fun _ =>
      keepsFlag_compositional.done _
  · rw [on_turns_append hPast, Nat.zero_add, turns]
    refine flag_of_later (Run.on_get behind) (flag_of_first (fun _ => ?_) ?_)
    · exact keepsFlag_compositional.bind
        (keepsFlag_renders.steps.turns (renderNodes_keepsFlag "" body) iterator _ _ future) fun _ =>
        keepsFlag_compositional.done _
    · rw [on_withVariables]
      exact hFlag

/-- A part that raises the flag raises it for the part that comes to it. -/
theorem Visits.flag {node inner : Node} {pass there : Pass σ} (h : Visits context node pass inner there)
    (hFlag : ((renderNode context inner).on there).2.deferred = true) :
    ((renderNode context node).on pass).2.deferred = true := by
  induction h with
  | here node pass => exact hFlag
  | branch hBranches hFails hCondition hTrue hEarlier _ ih =>
      exact flag_of_branch hBranches hFails hCondition hTrue (flag_of_node hEarlier (ih hFlag))
  | otherwise hFails hEarlier _ ih => exact flag_of_otherwise hFails (flag_of_node hEarlier (ih hFlag))
  | turn hIterable hPast hEarlier _ ih =>
      exact flag_of_turn hIterable rfl hPast (flag_of_node hEarlier (ih hFlag))

/-- An argument that raises the flag raises it for all arguments. -/
theorem flag_of_argument {before after : List Expr} {arg : Expr} {values : List Value}
    {pass behind : Pass σ} (hBefore : (evalArgs context before).on pass = (.ok values, behind))
    (hFlag : ((eval context arg).on behind).2.deferred = true) :
    ((evalArgs context (before ++ arg :: after)).on pass).2.deferred = true := by
  induction before generalizing pass values with
  | nil =>
      rw [evalArgs] at hBefore
      cases hBefore
      rw [List.nil_append, evalArgs]
      refine flag_of_first (fun d => ?_) hFlag
      exact keepsFlag_compositional.bind (evalArgs_keepsFlag after) fun _ =>
        keepsFlag_compositional.done _
  | cons first rest ih =>
      rw [evalArgs] at hBefore
      obtain ⟨_, _, hFirst, hBefore⟩ := of_on_bind hBefore
      obtain ⟨_, _, hRest, hBefore⟩ := of_on_bind hBefore
      cases hBefore
      rw [List.cons_append, evalArgs]
      exact flag_of_later hFirst (flag_of_first (fun _ => keepsFlag_compositional.done _) (ih hRest))

/-- An expression that raises the flag raises it for the expression that comes
to it. -/
theorem EvalReaches.flag {e part : Expr} {pass there : Pass σ}
    (h : EvalReaches context e pass part there)
    (hFlag : ((eval context part).on there).2.deferred = true) :
    ((eval context e).on pass).2.deferred = true := by
  induction h with
  | here e pass => exact hFlag
  | negated _ ih =>
      rw [eval]
      exact flag_of_first (fun _ => keepsFlag_compositional.done _) (ih hFlag)
  | grouped _ ih =>
      rw [eval]
      exact ih hFlag
  | @left operator left right part place pass there _ ih =>
      rw [eval]
      refine flag_of_first (fun d => ?_) (ih hFlag)
      split
      · split
        · exact eval_keepsFlag right
        · exact keepsFlag_compositional.done _
      · exact keepsFlag_compositional.bind (eval_keepsFlag right) fun _ =>
          keepsFlag_compositional.bind (keepsFlag_compositional.faulty _) fun _ =>
            keepsFlag_compositional.done _
  | right hLeft hFallback _ ih =>
      rw [eval]
      refine flag_of_later hLeft ?_
      split
      · next hOperator =>
          rw [hFallback hOperator]
          exact ih hFlag
      · exact flag_of_first (fun _ => keepsFlag_compositional.bind (keepsFlag_compositional.faulty _)
          fun _ => keepsFlag_compositional.done _) (ih hFlag)
  | object _ ih =>
      rw [eval]
      exact flag_of_first (fun _ => keepsFlag_compositional.faulty _) (ih hFlag)
  | @indexed object key part place pass there _ ih =>
      rw [eval]
      exact flag_of_first (fun _ => keepsFlag_compositional.bind (eval_keepsFlag key)
        fun _ => keepsFlag_compositional.faulty _) (ih hFlag)
  | key hObject _ ih =>
      rw [eval]
      exact flag_of_later hObject (flag_of_first (fun _ => keepsFlag_compositional.faulty _) (ih hFlag))
  | @filtered value part name args separators parenthesized place pass there _ ih =>
      rw [eval]
      exact flag_of_first (fun _ => keepsFlag_compositional.bind (evalArgs_keepsFlag args)
        fun _ => filtered_keepsFlag _ _ _ _ _) (ih hFlag)
  | argument hValue hBefore _ ih =>
      rw [eval]
      exact flag_of_later hValue (flag_of_first
        (fun _ => filtered_keepsFlag _ _ _ _ _) (flag_of_argument hBefore (ih hFlag)))

/-- An expression that raises the flag raises it for the part that comes to it. -/
theorem Reaches.flag {node : Node} {part : Expr} {pass there : Pass σ}
    (h : Reaches context node pass part there)
    (hFlag : ((eval context part).on there).2.deferred = true) :
    ((renderNode context node).on pass).2.deferred = true := by
  induction h with
  | print hNoPrompt h =>
      rw [renderNode, guarded_flag, printed, hNoPrompt]
      exact flag_of_first (fun _ => keepsFlag_compositional.faulty _) (h.flag hFlag)
  | assign h =>
      rw [renderNode, guarded_flag, Render.assign]
      refine flag_of_first (fun _ => ?_) (h.flag hFlag)
      exact keepsFlag_compositional.bind (keepsFlag_renders.assignVar _ _) fun _ =>
        keepsFlag_compositional.done _
  | condition hBranches hFails h => exact flag_of_condition hBranches hFails (h.flag hFlag)
  | branch hBranches hFails hCondition hTrue hEarlier _ ih =>
      exact flag_of_branch hBranches hFails hCondition hTrue (flag_of_node hEarlier (ih hFlag))
  | otherwise hFails hEarlier _ ih => exact flag_of_otherwise hFails (flag_of_node hEarlier (ih hFlag))
  | iterable h => exact flag_of_iterable (h.flag hFlag)
  | turn hIterable hItems hPast hBody hEarlier _ ih =>
      subst hBody
      exact flag_of_turn hIterable hItems hPast (flag_of_node hEarlier (ih hFlag))

/-! A whole rendering. -/

theorem ReachesIn.flag {nodes : List Node} {part : Expr} {pass there : Pass σ}
    (h : ReachesIn context nodes pass part there)
    (hFlag : ((eval context part).on there).2.deferred = true) :
    ((renderNodes context "" nodes).on pass).2.deferred = true := by
  obtain ⟨earlier, node, later, text, start, rfl, hEarlier, hReaches⟩ := h
  exact flag_of_node hEarlier (hReaches.flag hFlag)

theorem VisitsIn.flag {nodes : List Node} {inner : Node} {pass there : Pass σ}
    (h : VisitsIn context nodes pass inner there)
    (hFlag : ((renderNode context inner).on there).2.deferred = true) :
    ((renderNodes context "" nodes).on pass).2.deferred = true := by
  obtain ⟨earlier, node, later, text, start, rfl, hEarlier, hVisits⟩ := h
  exact flag_of_node hEarlier (hVisits.flag hFlag)

theorem VisitsIn.candid {nodes : List Node} {inner : Node} {pass there : Pass σ}
    (h : VisitsIn context nodes pass inner there) (hCandid : pass.Candid) : there.Candid :=
  (keepsIn_candid nodes pass).there candid_invariant hCandid h

/-- The flag of a rendering is the one of its pass. -/
theorem flag_of_render {trimOutput : Bool} {nodes : List Node} {vars : Variables} {world : σ}
    {r : Result} (h : (render context trimOutput nodes vars world).1 = .ok r) :
    ((renderNodes context "" nodes).on { vars, world }).2.deferred = r.deferred := by
  rw [render, show (renderNodes context "" nodes).run { vars, world } =
    (renderNodes context "" nodes).on { vars, world } from rfl] at h
  rcases hOn : (renderNodes context "" nodes).on { vars, world } with ⟨(message | f) | text, behind⟩ <;>
    rw [hOn] at h <;> cases h <;> rfl

/-- What is printed with the flag down is the text of a value. -/
theorem printed_value {e : Expr} {text : String} {pass behind : Pass σ} (hCandid : pass.Candid)
    (hOn : (printed context e).on pass = (.ok text, behind)) (hDown : behind.deferred = false) :
    ∃ v, (eval context e).on pass = (.ok (.plain v), behind) ∧ text = v.text := by
  rw [printed] at hOn
  split at hOn
  · obtain ⟨source, middle, -, hRest⟩ := of_on_bind hOn
    cases hRest
    cases hDown
  · obtain ⟨d, middle, hEval, hRest⟩ := of_on_bind hOn
    obtain ⟨hText, rfl⟩ := of_on_ofFault hRest
    have hVars := hCandid ((eval_keepsFlag e).down hEval hDown)
    obtain ⟨v, rfl⟩ := Datum.exists_of_isPlain (eval_yieldsValue e _ _ _ hVars hEval hDown)
    exact ⟨v, hEval, (Datum.text_of_written hText).symm⟩

/-- When the flag is down behind a rendering whose variables were values, every
expression that it came to evaluate gave a value, all that it came to print is
the text of a value, and the variables are values. -/
theorem deferred_flag_sound {trimOutput : Bool} {nodes : List Node} {vars : Variables} {world : σ}
    {r : Result} (hVars : Settled vars)
    (hResult : (render context trimOutput nodes vars world).1 = .ok r) (hDown : r.deferred = false) :
    (∀ part there, ReachesIn context nodes { vars, world } part there →
      ∀ d behind, (eval context part).on there = (.ok d, behind) → d.isPlain = true) ∧
    (∀ e trim place there, VisitsIn context nodes { vars, world } (.print e trim place) there →
      ∀ text behind, (printed context e).on there = (.ok text, behind) →
        ∃ v, (eval context e).on there = (.ok (.plain v), behind) ∧ text = v.text) ∧
    Settled (render context trimOutput nodes vars world).2.1 := by
  have hStart : Pass.Candid { vars, world } := fun _ => hVars
  have hLast : ((renderNodes context "" nodes).on { vars, world }).2.deferred = false := by
    rw [flag_of_render hResult, hDown]
  refine ⟨fun part there hReaches d behind hOn => ?_,
    fun e trim place there hVisits text behind hOn => ?_, ?_⟩
  · have hBehind : behind.deferred = false := by
      refine Bool.eq_false_iff.mpr fun hUp => ?_
      rw [hReaches.flag (by rw [hOn]; exact hUp)] at hLast
      cases hLast
    have hCandid := (keepsIn_candid nodes _).reached candid_invariant hStart hReaches
    have hThere := hCandid ((eval_keepsFlag part).down hOn hBehind)
    exact eval_yieldsValue part _ _ _ hThere hOn hBehind
  · have hBehind : behind.deferred = false := by
      refine Bool.eq_false_iff.mpr fun hUp => ?_
      rw [hVisits.flag (by rw [renderNode, guarded_flag, hOn]; exact hUp)] at hLast
      cases hLast
    exact printed_value (hVisits.candid hStart) hOn hBehind
  · exact holds_of_renderNodes candid_invariant "" nodes hStart (keepsIn_candid nodes _) hLast

/-- A page whose answer to every question is its heading. -/
def headingContext : Context Unit := { resolver := some fun _ _ => pure (.value (.str "Head")) }

/-- The heading of the page, kept under a name and printed. -/
def headingNodes : List Node :=
  [.assign "h" (.identifier "selector:h1" ⟨1, 12⟩) ⟨false, false⟩ ⟨1, 1⟩,
    .print (.identifier "h" ⟨1, 29⟩) ⟨false, false⟩ ⟨1, 27⟩]

/-- The pass behind the assignment. -/
def headingPass : Pass Unit := { vars := [(.text "h", .plain (.str "Head"))], world := () }

theorem deferred_flag_sound_heading :
    (render headingContext false headingNodes [] ()).1 = .ok ⟨"Head", [], false⟩ ∧
    ReachesIn headingContext headingNodes { vars := [], world := () } (.identifier "h" ⟨1, 29⟩)
      headingPass ∧
    (∃ v, (eval headingContext (.identifier "h" ⟨1, 29⟩)).on headingPass =
      (.ok (.plain v), headingPass) ∧ "Head" = v.text) ∧
    Settled (render headingContext false headingNodes [] ()).2.1 := by
  have hVars : Settled [] := fun _ h => nomatch h
  have hRender : (render headingContext false headingNodes [] ()).1 = .ok ⟨"Head", [], false⟩ := by
    decide +kernel
  have hSet : (renderNodes headingContext "" (headingNodes.take 1)).on { vars := [], world := () } =
      (.ok "", headingPass) := by rfl
  obtain ⟨-, hPrinted, hSettled⟩ := deferred_flag_sound hVars hRender rfl
  refine ⟨hRender, ⟨[_], _, [], "", headingPass, rfl, hSet, .print rfl (.here _ _)⟩, ?_, hSettled⟩
  exact hPrinted _ _ _ headingPass ⟨[_], _, [], "", headingPass, rfl, hSet, .here _ _⟩ "Head"
    headingPass rfl

end NoteTemplate.Render
