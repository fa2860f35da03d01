import NoteTemplate.Proofs.Render.PendingCut
import NoteTemplate.Proofs.Text.Margin

/-! Trim marks move nothing but blanks. A template is compared with the same
template without its marks: the two runs evaluate the same expressions in the
same order, and what they print differs in blanks only. -/
namespace NoteTemplate

namespace Node

/-- No cut on either side. -/
def noTrim : Trim := ⟨false, false⟩

mutual

/-- A part without trim marks, its own and those inside it. -/
def unmarked : Node → Node
  | .text s place => .text s place
  | .print e _ place => .print e noTrim place
  | .conditional condition body branches otherwise _ place =>
    .conditional condition (unmarkedAll body) (unmarkedBranches branches)
      (unmarkedOtherwise otherwise) noTrim place
  | .loop iterator iterable body _ place =>
    .loop iterator iterable (unmarkedAll body) noTrim place
  | .assign name e _ place => .assign name e noTrim place

/-- Parts without trim marks. -/
def unmarkedAll : List Node → List Node
  | [] => []
  | node :: rest => unmarked node :: unmarkedAll rest

/-- Branches without trim marks. -/
def unmarkedBranches : List (Expr × List Node) → List (Expr × List Node)
  | [] => []
  | (condition, body) :: rest => (condition, unmarkedAll body) :: unmarkedBranches rest

/-- The branch without a condition, without trim marks. -/
def unmarkedOtherwise : Option (List Node) → Option (List Node)
  | some body => some (unmarkedAll body)
  | none => none

end

end Node

namespace Render

open Text Node

variable {σ : Type} {context : Context σ}

/-- Two outcomes that differ at most in the blanks of the text and in the
pending cut behind it. -/
inductive Blurred : Except Stop String × Pass σ → Except Stop String × Pass σ → Prop where
  | text {s t : String} {p q : Pass σ} (hInk : ink s.toList = ink t.toList)
      (hPass : p.SameButCut q) : Blurred (.ok s, p) (.ok t, q)
  | stop {stop : Stop} {p q : Pass σ} (hPass : p.SameButCut q) :
      Blurred (.error stop, p) (.error stop, q)

/-- Two computations that print the same but for blanks, and do the same. -/
def SameInk (act other : Run σ String) : Prop :=
  ∀ p q : Pass σ, p.SameButCut q → Blurred (act.on p) (other.on q)

theorem sameInk_done {s t : String} (h : ink s.toList = ink t.toList) :
    SameInk (pure s : Run σ String) (pure t) := fun _ _ hPass => .text h hPass

theorem sameInk_throw (stop : Stop) : SameInk (throw stop : Run σ String) (throw stop) :=
  fun _ _ hPass => .stop hPass

/-- What evaluating yields is the same in both runs. -/
theorem Detached.sameInk_bind {α : Type} {act : Run σ α} {next other : α → Run σ String}
    (hAct : Detached act) (hNext : ∀ a, SameInk (next a) (other a)) :
    SameInk (act >>= next) (act >>= other) := by
  obtain ⟨core, hCore⟩ := hAct
  rintro p q ⟨pending, rfl⟩
  rw [Run.on_bind, Run.on_bind, hCore, hCore]
  rcases core p.vars p.world with ⟨stop | a, put, world⟩
  · exact .stop ⟨pending, rfl⟩
  · exact hNext a _ _ ⟨pending, rfl⟩

/-- Guarding keeps the ink. -/
theorem SameInk.guarded {act other : Run σ String} (h : SameInk act other)
    (describe : String → String) (place : Place) :
    SameInk (guarded describe place act) (guarded describe place other) := by
  intro p q hPass
  have hBlurred := h p q hPass
  rw [on_guarded, on_guarded]
  generalize act.on p = first, other.on q = second at hBlurred
  cases hBlurred with
  | text hInk hPass => exact .text hInk hPass
  | @stop stop p q hPass =>
      cases stop with
      | fault f => exact .stop hPass
      | failed message =>
          obtain ⟨pending, rfl⟩ := hPass
          exact .text rfl ⟨pending, rfl⟩

/-- Two outcomes of the turns of a loop, text by text. -/
inductive BlurredTurns :
    Except Stop (List String) × Pass σ → Except Stop (List String) × Pass σ → Prop where
  | texts {ss ts : List String} {p q : Pass σ}
      (hInk : ss.map (fun s => ink s.toList) = ts.map fun t => ink t.toList)
      (hPass : p.SameButCut q) : BlurredTurns (.ok ss, p) (.ok ts, q)
  | stop {stop : Stop} {p q : Pass σ} (hPass : p.SameButCut q) :
      BlurredTurns (.error stop, p) (.error stop, q)

/-- Turns of bodies with the same ink have the same ink, one by one. -/
theorem SameInk.turns {body other : Run σ String} (h : SameInk body other) (iterator : String)
    (length index : Nat) (items : List Value) (p q : Pass σ) (hPass : p.SameButCut q) :
    BlurredTurns ((turns iterator length body index items).on p)
      ((turns iterator length other index items).on q) := by
  induction items generalizing index p q with
  | nil => exact .texts rfl hPass
  | cons item rest ih =>
      obtain ⟨pending, rfl⟩ := hPass
      simp only [Render.turns, Run.on_bind, Run.on_get, on_withVariables]
      have hTurn := h { p with vars := bind p.vars (bindings iterator item index length) }
        { p with vars := bind p.vars (bindings iterator item index length), pendingTrim := pending }
        ⟨pending, rfl⟩
      generalize body.on { p with vars := _ } = first,
        other.on { p with vars := _, pendingTrim := pending } = second at hTurn
      cases hTurn with
      | stop hPass =>
          obtain ⟨pending, rfl⟩ := hPass
          exact .stop ⟨pending, rfl⟩
      | @text s t inner _ hInk hPass =>
          obtain ⟨pending, rfl⟩ := hPass
          have hLater := ih (index + 1) { inner with vars := p.vars }
            { inner with vars := p.vars, pendingTrim := pending } ⟨pending, rfl⟩
          simp only
          generalize (Render.turns iterator length body (index + 1) rest).on
            { inner with vars := p.vars } = first,
            (Render.turns iterator length other (index + 1) rest).on
            { inner with vars := p.vars, pendingTrim := pending } = second at hLater
          cases hLater with
          | stop hPass => exact .stop hPass
          | texts hTexts hPass =>
              refine .texts ?_ hPass
              rw [List.map_cons, List.map_cons, ink_strip, ink_strip, hInk, hTexts]

/-- Loops over bodies with the same ink have the same ink. -/
theorem SameInk.loopText {body other : Run σ String} (h : SameInk body other) (iterator : String)
    (items : List Value) : SameInk (loopText iterator items body) (loopText iterator items other) := by
  intro p q hPass
  have hTurns := h.turns iterator items.length 0 items p q hPass
  simp only [Render.loopText, Run.on_bind, Run.on_get]
  generalize (Render.turns iterator items.length body 0 items).on p = first,
    (Render.turns iterator items.length other 0 items).on q = second at hTurns
  cases hTurns with
  | stop hPass => exact .stop hPass
  | texts hTexts hPass =>
      obtain ⟨pending, rfl⟩ := hPass
      refine .text ?_ ⟨q.pendingTrim, rfl⟩
      rw [ink_lines, ink_lines, List.flatMap_def, List.flatMap_def, hTexts]

/-- A cut of the text so far takes no ink, whether it is asked for or not. -/
theorem ink_cutBefore (trim : Trim) (output : String) :
    ink (cutBefore trim output).toList = ink output.toList := by
  rw [toList_cutBefore]
  split
  · exact ink_cutMarginEnd output.toList
  · rfl

/-- A pending cut takes no ink off a text, whether it is made or not. -/
theorem on_cutBehind_ink (s : String) (pass : Pass σ) :
    ∃ text pending, (cutBehind s).on pass = (.ok text, { pass with pendingTrim := pending }) ∧
      ink text.toList = ink s.toList := by
  rw [on_cutBehind]
  split
  · refine ⟨_, false, rfl, ?_⟩
    rw [String.toList_ofList]
    exact ink_cutMarginStart s.toList
  · exact ⟨s, pass.pendingTrim, rfl, rfl⟩

/-- A part behind the text so far, then the parts behind it. The two runs may
cut differently around the part. -/
theorem sameInk_nodes_cons {node other : Node} {rest others : List Node}
    (hNode : SameInk (renderNode context node) (renderNode context other))
    (hRest : ∀ s t : String, ink s.toList = ink t.toList →
      SameInk (renderNodes context s rest) (renderNodes context t others))
    {s t : String} (hText : ink s.toList = ink t.toList) :
    SameInk (renderNodes context s (node :: rest)) (renderNodes context t (other :: others)) := by
  intro p q hPass
  have hBlurred := hNode p q hPass
  simp only [renderNodes, Run.on_bind]
  generalize (renderNode context node).on p = first, (renderNode context other).on q = second
    at hBlurred
  cases hBlurred with
  | stop hPass => exact .stop hPass
  | @text u v p q hInk hPass =>
      obtain ⟨pending, rfl⟩ := hPass
      obtain ⟨u', _, hFirst, hInkFirst⟩ := on_cutBehind_ink u p
      obtain ⟨v', _, hSecond, hInkSecond⟩ := on_cutBehind_ink v { p with pendingTrim := pending }
      simp only [hFirst, hSecond, on_markBehind]
      refine hRest _ _ ?_ _ _ ⟨_, rfl⟩
      rw [String.toList_append, String.toList_append, ink_append, ink_append, ink_cutBefore,
        ink_cutBefore, hInkFirst, hInkSecond, hText, hInk]

theorem Detached.sameInk {act : Run σ String} (h : Detached act) : SameInk act act := by
  have hBind := h.sameInk_bind fun text => sameInk_done (rfl : ink text.toList = ink text.toList)
  rwa [bind_pure] at hBind

theorem assign_sameInk (name : String) (e : Expr) :
    SameInk (assign context name e) (assign context name e) := by
  refine (eval_detached e).sameInk_bind fun d => ?_
  rintro p q ⟨pending, rfl⟩
  exact .text rfl ⟨pending, rfl⟩

mutual

/-- A part prints the same ink with and without its marks. -/
theorem renderNode_unmarked :
    ∀ node, SameInk (renderNode context node) (renderNode context node.unmarked)
  | .text s _ => by
      rw [unmarked, renderNode]
      exact sameInk_done rfl
  | .print e _ place => by
      rw [unmarked, renderNode, renderNode]
      exact (printed_detached e).sameInk.guarded _ place
  | .conditional condition body branches otherwise _ place => by
      rw [unmarked, renderNode, renderNode]
      refine SameInk.guarded ((eval_detached condition).sameInk_bind fun d => ?_) _ place
      split
      · exact renderNodes_unmarked body "" "" rfl
      · exact renderBranches_unmarked (renderOtherwise_unmarked otherwise) branches
  | .loop iterator iterable body _ place => by
      rw [unmarked, renderNode, renderNode]
      refine SameInk.guarded ((eval_detached iterable).sameInk_bind fun d => ?_) _ place
      split
      · exact sameInk_done rfl
      · exact (renderNodes_unmarked body "" "" rfl).loopText iterator _
      · exact sameInk_throw _
  | .assign name e _ place => by
      rw [unmarked, renderNode, renderNode]
      exact (assign_sameInk name e).guarded _ place

/-- Without its marks a branch without a condition has the same ink. -/
theorem renderOtherwise_unmarked :
    ∀ body, SameInk (renderOtherwise context body) (renderOtherwise context (unmarkedOtherwise body))
  | some body => by
      rw [unmarkedOtherwise, renderOtherwise, renderOtherwise]
      exact renderNodes_unmarked body "" "" rfl
  | none => by
      rw [unmarkedOtherwise, renderOtherwise]
      exact sameInk_done rfl

/-- Without their marks branches have the same ink. -/
theorem renderBranches_unmarked {otherwise other : Run σ String} (hLast : SameInk otherwise other) :
    ∀ branches, SameInk (renderBranches context otherwise branches)
      (renderBranches context other (unmarkedBranches branches))
  | [] => by
      rw [unmarkedBranches, renderBranches, renderBranches]
      exact hLast
  | (condition, body) :: rest => by
      rw [unmarkedBranches, renderBranches, renderBranches]
      refine (eval_detached condition).sameInk_bind fun d => ?_
      split
      · exact renderNodes_unmarked body "" "" rfl
      · exact renderBranches_unmarked hLast rest

/-- By induction on the parts: without their marks they have the same ink, in front of
outputs that have. -/
theorem renderNodes_unmarked : ∀ (nodes : List Node) (s t : String), ink s.toList = ink t.toList →
    SameInk (renderNodes context s nodes) (renderNodes context t (unmarkedAll nodes))
  | [], s, t, hText => by
      rw [unmarkedAll, renderNodes, renderNodes]
      exact sameInk_done hText
  | node :: rest, s, t, hText => by
      rw [unmarkedAll]
      exact sameInk_nodes_cons (renderNode_unmarked node) (renderNodes_unmarked rest) hText

end

theorem ink_finish (trimOutput : Bool) (output : String) :
    ink (finish trimOutput output).toList = ink output.toList := by
  cases trimOutput with
  | false => rfl
  | true => exact ink_strip output

/-- Without its trim marks a template is rendered with the same characters
other than blanks, the same mistakes, and the same flag of what was put off, or
ends with the same fault; the variables and the state of the resolver are the
same behind it. -/
theorem render_unmarked (context : Context σ) (trimOutput : Bool) (nodes : List Node)
    (vars : Variables) (world : σ) :
    let marked := render context trimOutput nodes vars world
    let plain := render context trimOutput (unmarkedAll nodes) vars world
    (marked.1.map fun r => (ink r.output.toList, r.errors, r.deferred)) =
        (plain.1.map fun r => (ink r.output.toList, r.errors, r.deferred)) ∧
      marked.2 = plain.2 := by
  intro marked plain
  have hSame : SameInk (renderNodes context "" nodes) (renderNodes context "" (unmarkedAll nodes)) :=
    renderNodes_unmarked nodes "" "" rfl
  have hBlurred := hSame { vars, world } { vars, world } ⟨false, rfl⟩
  simp only [marked, plain, render]
  rw [Run.on, Run.on] at hBlurred
  generalize (renderNodes context "" nodes).run { vars, world } = first,
    (renderNodes context "" (unmarkedAll nodes)).run { vars, world } = second at hBlurred
  cases hBlurred with
  | text hInk hPass =>
      obtain ⟨pending, rfl⟩ := hPass
      simp only [Except.map, ink_finish, hInk, and_self]
  | @stop stop p q hPass =>
      obtain ⟨pending, rfl⟩ := hPass
      cases stop <;> exact ⟨rfl, rfl⟩

end Render

end NoteTemplate
