import NoteTemplate.Proofs.Render.Frame
import NoteTemplate.Proofs.Text.Margin

/-! The pending cut at the beginning of a rendering shows in nothing but the
leading blanks of its text. Two runs that differ in that cut are compared.
While they differ in it, neither has printed anything but blanks; as soon as
one prints another character, both have used the cut up. -/
namespace NoteTemplate.Render

open Text

variable {σ : Type} {context : Context σ}

/-- Two passes that differ at most in the pending cut. -/
def Pass.SameButCut (p q : Pass σ) : Prop := ∃ pending, q = { p with pendingTrim := pending }

theorem Pass.SameButCut.eq_of_pendingTrim {p q : Pass σ} (h : p.SameButCut q)
    (hPending : p.pendingTrim = q.pendingTrim) : p = q := by
  obtain ⟨pending, rfl⟩ := h
  rw [show pending = p.pendingTrim from hPending.symm]

/-- Two outcomes that differ at most in the leading blanks of the text and in
the pending cut behind it. -/
inductive Alike : Except Stop String × Pass σ → Except Stop String × Pass σ → Prop where
  | text {s t : String} {p q : Pass σ} (hText : trimStart s.toList = trimStart t.toList)
      (hPass : p.SameButCut q) : Alike (.ok s, p) (.ok t, q)
  | stop {stop : Stop} {p q : Pass σ} (hPass : p.SameButCut q) :
      Alike (.error stop, p) (.error stop, q)

/-- A computation in which the pending cut shows in leading blanks only. -/
def Loose (act : Run σ String) : Prop :=
  ∀ p q : Pass σ, p.SameButCut q → Alike (act.on p) (act.on q)

theorem loose_done (s : String) : Loose (pure s : Run σ String) := fun _ _ h => .text rfl h

theorem loose_throw (stop : Stop) : Loose (throw stop : Run σ String) := fun _ _ h => .stop h

/-- What evaluating yields does not depend on the pending cut. -/
theorem Detached.loose_bind {α : Type} {act : Run σ α} {next : α → Run σ String}
    (hAct : Detached act) (hNext : ∀ a, Loose (next a)) : Loose (act >>= next) := by
  obtain ⟨core, hCore⟩ := hAct
  rintro p q ⟨pending, rfl⟩
  rw [Run.on_bind, Run.on_bind, hCore, hCore]
  rcases core p.vars p.world with ⟨stop | a, put, world⟩
  · exact .stop ⟨pending, rfl⟩
  · exact hNext a _ _ ⟨pending, rfl⟩

/-- A guarded run is as loose about a pending cut as the run itself. -/
theorem Loose.guarded {act : Run σ String} (hAct : Loose act) (describe : String → String)
    (place : Place) : Loose (guarded describe place act) := by
  intro p q h
  have hAlike := hAct p q h
  rw [on_guarded, on_guarded]
  generalize act.on p = first, act.on q = second at hAlike
  cases hAlike with
  | text hText hPass => exact .text hText hPass
  | @stop stop p q hPass =>
      cases stop with
      | fault f => exact .stop hPass
      | failed message =>
          obtain ⟨pending, rfl⟩ := hPass
          exact .text rfl ⟨pending, rfl⟩

theorem strip_congr {s t : String} (h : trimStart s.toList = trimStart t.toList) :
    strip s = strip t := by
  have hTrim : trim s.toList = trim t.toList := congrArg trimEnd h
  rw [strip, strip, hTrim]

/-- The texts of the turns of a loop have no leading blanks, so they are the
same in both runs. -/
theorem Loose.turns {body : Run σ String} (hBody : Loose body) (iterator : String)
    (length index : Nat) (items : List Value) (p q : Pass σ) (h : p.SameButCut q) :
    ((turns iterator length body index items).on p).1 =
        ((turns iterator length body index items).on q).1 ∧
      ((turns iterator length body index items).on p).2.SameButCut
        ((turns iterator length body index items).on q).2 := by
  induction items generalizing index p q with
  | nil => exact ⟨rfl, h⟩
  | cons item rest ih =>
      obtain ⟨pending, rfl⟩ := h
      simp only [Render.turns, Run.on_bind, Run.on_get, on_withVariables]
      have hAlike := hBody { p with vars := bind p.vars (bindings iterator item index length) }
        { p with vars := bind p.vars (bindings iterator item index length), pendingTrim := pending }
        ⟨pending, rfl⟩
      generalize body.on { p with vars := _ } = first,
        body.on { p with vars := _, pendingTrim := pending } = second at hAlike
      cases hAlike with
      | stop hPass =>
          obtain ⟨pending, rfl⟩ := hPass
          exact ⟨rfl, pending, rfl⟩
      | @text s t inner _ hText hPass =>
          obtain ⟨pending, rfl⟩ := hPass
          obtain ⟨hSame, hBehind⟩ := ih (index + 1) { inner with vars := p.vars }
            { inner with vars := p.vars, pendingTrim := pending } ⟨pending, rfl⟩
          simp only [strip_congr hText]
          generalize (Render.turns iterator length body (index + 1) rest).on
            { inner with vars := p.vars } = first, (Render.turns iterator length body (index + 1) rest).on
            { inner with vars := p.vars, pendingTrim := pending } = second at hSame hBehind
          rcases first with ⟨stop | later, behind⟩ <;> rcases second with ⟨_, last⟩ <;> cases hSame
          · exact ⟨rfl, hBehind⟩
          · exact ⟨rfl, hBehind⟩

/-- A loop does not see a pending cut, since it strips what its turns give. -/
theorem Loose.loopText {body : Run σ String} (hBody : Loose body) (iterator : String)
    (items : List Value) : Loose (loopText iterator items body) := by
  intro p q h
  obtain ⟨hSame, hBehind⟩ := hBody.turns iterator items.length 0 items p q h
  simp only [Render.loopText, Run.on_bind, Run.on_get]
  generalize (Render.turns iterator items.length body 0 items).on p = first,
    (Render.turns iterator items.length body 0 items).on q = second at hSame hBehind
  rcases first with ⟨stop | texts, behind⟩ <;> rcases second with ⟨_, last⟩ <;> cases hSame
  · exact .stop hBehind
  · obtain ⟨pending, rfl⟩ := hBehind
    exact .text rfl ⟨q.pendingTrim, rfl⟩

theorem toList_cutBefore (cut : Trim) (output : String) :
    (cutBefore cut output).toList =
      if cut.left then cutMarginEnd output.toList else output.toList := by
  by_cases hEmpty : output = ""
  · subst hEmpty
    simp [cutBefore, cutMarginEnd, dropLineBreakBackwards]
  · cases hLeft : cut.left <;> simp [cutBefore, hLeft, hEmpty]

/-- A cut at the end of the text so far leaves the difference in its leading
blanks, and more text behind it does. -/
theorem trimStart_cutBefore_append {s t : String} (h : trimStart s.toList = trimStart t.toList)
    (cut : Trim) (tail : String) :
    trimStart (cutBefore cut s ++ tail).toList = trimStart (cutBefore cut t ++ tail).toList := by
  rw [String.toList_append, String.toList_append, toList_cutBefore, toList_cutBefore]
  split
  · exact trimStart_cutMarginEnd_append h tail.toList
  · exact trimStart_append_congr h tail.toList

theorem trimStart_cutBefore_of_blank {s : String} (h : trimStart s.toList = []) (cut : Trim) :
    trimStart (cutBefore cut s).toList = [] := by
  rw [toList_cutBefore]
  split
  · exact trimStart_cutMarginEnd_of_blank h
  · exact h

theorem ne_empty_of_trimStart {s : String} (h : trimStart s.toList ≠ []) : s ≠ "" := by
  rintro rfl
  exact h rfl

/-- A text that is not blank uses the pending cut up. -/
theorem on_cutBehind_cases (s : String) (pass : Pass σ) :
    ∃ text pending, (cutBehind s).on pass = (.ok text, { pass with pendingTrim := pending }) ∧
      trimStart text.toList = trimStart s.toList ∧
      (trimStart s.toList ≠ [] → pending = false) := by
  rw [on_cutBehind]
  split
  · refine ⟨_, false, rfl, ?_, fun _ => rfl⟩
    rw [String.toList_ofList]
    exact trimStart_cutMarginStart s.toList
  · next hCut =>
      refine ⟨s, pass.pendingTrim, rfl, rfl, fun hText => ?_⟩
      simpa [ne_empty_of_trimStart hText] using hCut

/-- Two accumulated texts with the passes behind them. While the passes differ,
the texts are blank. -/
structure Pending (s t : String) (p q : Pass σ) : Prop where
  text : trimStart s.toList = trimStart t.toList
  pass : p.SameButCut q
  blank : p.pendingTrim = q.pendingTrim ∨ trimStart s.toList = []

/-- What the texts of one part make of the texts so far. -/
theorem Pending.step {s t u v : String} {p q p' q' : Pass σ} (h : Pending s t p q)
    (hAlike : Alike (.ok u, p') (.ok v, q'))
    (hEqual : p.pendingTrim = q.pendingTrim → u = v ∧ p' = q') (cut : Trim) :
    ∃ u' v' p'' q'', (cutBehind u).on p' = (.ok u', p'') ∧ (cutBehind v).on q' = (.ok v', q'') ∧
      Pending (cutBefore cut s ++ u') (cutBefore cut t ++ v')
        { p'' with pendingTrim := cut.right || p''.pendingTrim }
        { q'' with pendingTrim := cut.right || q''.pendingTrim } := by
  obtain ⟨u', pending, hU, hTextU, hUsedU⟩ := on_cutBehind_cases u p'
  obtain ⟨v', other, hV, hTextV, hUsedV⟩ := on_cutBehind_cases v q'
  refine ⟨u', v', _, _, hU, hV, ?_⟩
  rcases h.blank with hPending | hBlank
  · obtain ⟨rfl, rfl⟩ := hEqual hPending
    rw [hU] at hV
    cases hV
    exact ⟨trimStart_cutBefore_append h.text cut u', ⟨_, rfl⟩, .inl rfl⟩
  · cases hAlike with
    | text hText hPass =>
        obtain ⟨_, rfl⟩ := hPass
        have hFront (tail : String) :
            trimStart (cutBefore cut s ++ tail).toList = trimStart tail.toList := by
          rw [String.toList_append,
            trimStart_append_of_blank (trimStart_cutBefore_of_blank hBlank cut)]
        have hOther (tail : String) :
            trimStart (cutBefore cut t ++ tail).toList = trimStart tail.toList := by
          rw [String.toList_append,
            trimStart_append_of_blank (trimStart_cutBefore_of_blank (h.text.symm.trans hBlank) cut)]
        refine ⟨?_, ⟨_, rfl⟩, ?_⟩
        · rw [hFront, hOther, hTextU, hTextV, hText]
        · by_cases hU : trimStart u.toList = []
          · right
            rw [hFront, hTextU, hU]
          · left
            have hV : trimStart v.toList ≠ [] := by rwa [← hText]
            simp only [hUsedU hU, hUsedV hV]

/-- The parts behind a part, for texts and passes in any such state. -/
theorem renderNodes_alike_cons {node : Node} {rest : List Node}
    (hNode : Loose (renderNode context node))
    (hRest : ∀ (s t : String) (p q : Pass σ), Pending s t p q →
      Alike ((renderNodes context s rest).on p) ((renderNodes context t rest).on q))
    {s t : String} {p q : Pass σ} (h : Pending s t p q) :
    Alike ((renderNodes context s (node :: rest)).on p)
      ((renderNodes context t (node :: rest)).on q) := by
  have hAlike := hNode p q h.pass
  have hEqual (hPending : p.pendingTrim = q.pendingTrim) :
      (renderNode context node).on p = (renderNode context node).on q := by
    rw [h.pass.eq_of_pendingTrim hPending]
  simp only [renderNodes, Run.on_bind]
  generalize (renderNode context node).on p = first, (renderNode context node).on q = second
    at hAlike hEqual
  rcases first with ⟨stop | u, p'⟩ <;> rcases second with ⟨other | v, q'⟩
  · exact hAlike
  · cases hAlike
  · cases hAlike
  · obtain ⟨u', v', p'', q'', hU, hV, hStep⟩ := h.step hAlike (fun hPending => by
      have := hEqual hPending
      simp only [Prod.mk.injEq, Except.ok.injEq] at this
      exact this) node.trim
    simp only [hU, hV, on_markBehind]
    exact hRest _ _ _ _ hStep

theorem Detached.loose {act : Run σ String} (h : Detached act) : Loose act := by
  have hBind := h.loose_bind loose_done
  rwa [bind_pure] at hBind

theorem assign_loose (name : String) (e : Expr) : Loose (assign context name e) := by
  refine (eval_detached e).loose_bind fun d => ?_
  rintro p q ⟨pending, rfl⟩
  exact .text rfl ⟨pending, rfl⟩

theorem pending_nil {p q : Pass σ} (h : p.SameButCut q) : Pending "" "" p q :=
  ⟨rfl, h, .inr rfl⟩

mutual

/-- A part, rendered with and without a pending cut before it. -/
theorem renderNode_loose : ∀ node, Loose (renderNode context node)
  | .text s _ => by
      rw [renderNode]
      exact loose_done s
  | .print e _ place => by
      rw [renderNode]
      exact (printed_detached e).loose.guarded _ place
  | .conditional condition body branches otherwise _ place => by
      rw [renderNode]
      refine Loose.guarded ((eval_detached condition).loose_bind fun d => ?_) _ place
      split
      · exact fun p q h => renderNodes_alike body "" "" p q (pending_nil h)
      · exact renderBranches_loose (renderOtherwise_loose otherwise) branches
  | .loop iterator iterable body _ place => by
      rw [renderNode]
      refine Loose.guarded ((eval_detached iterable).loose_bind fun d => ?_) _ place
      split
      · exact loose_done ""
      · exact Loose.loopText (fun p q h => renderNodes_alike body "" "" p q (pending_nil h)) _ _
      · exact loose_throw _
  | .assign name e _ place => by
      rw [renderNode]
      exact (assign_loose name e).guarded _ place

theorem renderOtherwise_loose : ∀ body, Loose (renderOtherwise context body)
  | some body => by
      rw [renderOtherwise]
      exact fun p q h => renderNodes_alike body "" "" p q (pending_nil h)
  | none => by
      rw [renderOtherwise]
      exact loose_done ""

/-- Branches are loose about a pending cut. -/
theorem renderBranches_loose {otherwise : Run σ String} (hLast : Loose otherwise) :
    ∀ branches, Loose (renderBranches context otherwise branches)
  | [] => by
      rw [renderBranches]
      exact hLast
  | (condition, body) :: rest => by
      rw [renderBranches]
      refine (eval_detached condition).loose_bind fun d => ?_
      split
      · exact fun p q h => renderNodes_alike body "" "" p q (pending_nil h)
      · exact renderBranches_loose hLast rest

theorem renderNodes_alike : ∀ (nodes : List Node) (s t : String) (p q : Pass σ), Pending s t p q →
    Alike ((renderNodes context s nodes).on p) ((renderNodes context t nodes).on q)
  | [], s, t, p, q, h => by
      rw [renderNodes, renderNodes]
      exact .text h.text h.pass
  | node :: rest, _, _, _, _, h =>
      renderNodes_alike_cons (renderNode_loose node) (renderNodes_alike rest) h

end

/-- The text of a body without the blanks around it is the same whether a cut
is pending before the body or not. -/
theorem renderNodes_loose (nodes : List Node) : Loose (renderNodes context "" nodes) :=
  fun p q h => renderNodes_alike nodes "" "" p q (pending_nil h)

end NoteTemplate.Render
