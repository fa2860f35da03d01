import NoteTemplate.Proofs.Scope.Keys

/-! What rendering may change of the variables. Only the assignments outside
of loops reach the variables behind a template; whatever happens in a turn of
a loop, and however a part ends, every other entry is the one before. -/
namespace NoteTemplate

mutual

/-- Whether a part can assign a name. A loop puts back the variables around
it, so what its body assigns is no matter behind it. -/
def Node.assigns (name : String) : Node → Bool
  | .text _ _ => false
  | .print _ _ _ => false
  | .conditional _ body branches otherwise _ _ =>
      assignsIn name body || assignsInBranches name branches || assignsInOtherwise name otherwise
  | .loop _ _ _ _ _ => false
  | .assign assigned _ _ _ => assigned == name

/-- Whether one of some parts can assign a name. -/
def Node.assignsIn (name : String) : List Node → Bool
  | [] => false
  | node :: rest => assigns name node || assignsIn name rest

/-- The same for the branches of a condition. -/
def Node.assignsInBranches (name : String) : List (Expr × List Node) → Bool
  | [] => false
  | (_, body) :: rest => assignsIn name body || assignsInBranches name rest

/-- The same for the branch without a condition. -/
def Node.assignsInOtherwise (name : String) : Option (List Node) → Bool
  | some body => assignsIn name body
  | none => false

end

section

variable {name : String} {condition : Expr} {body : List Node} {branches : List (Expr × List Node)}
  {otherwise : Option (List Node)} {trim : Trim} {place : Place}

theorem Node.assigns_conditional_eq_false :
    Node.assigns name (.conditional condition body branches otherwise trim place) = false ↔
      assignsIn name body = false ∧ assignsInBranches name branches = false ∧
        assignsInOtherwise name otherwise = false := by
  rw [assigns, Bool.or_eq_false_iff, Bool.or_eq_false_iff, and_assoc]

theorem Node.assignsIn_cons_eq_false {node : Node} {rest : List Node} :
    assignsIn name (node :: rest) = false ↔ node.assigns name = false ∧ assignsIn name rest = false := by
  rw [assignsIn, Bool.or_eq_false_iff]

theorem Node.assignsInBranches_cons_eq_false :
    assignsInBranches name ((condition, body) :: branches) = false ↔
      assignsIn name body = false ∧ assignsInBranches name branches = false := by
  rw [assignsInBranches, Bool.or_eq_false_iff]

end

namespace Render

variable {σ : Type} {context : Context σ} {key : Key}

/-- A computation behind which the entry under a key is the one before it,
also when it stops. -/
def KeepsEntry (key : Key) {α : Type} (act : Run σ α) : Prop :=
  ∀ pass, Assoc.get? (act.on pass).2.vars key = Assoc.get? pass.vars key

theorem keepsEntry_of_vars {α : Type} {act : Run σ α}
    (h : ∀ pass, (act.on pass).2.vars = pass.vars) : KeepsEntry key act := by
  intro pass
  rw [h]

/-- Two runs that keep an entry keep it one after the other. -/
theorem KeepsEntry.bind {α β : Type} {act : Run σ α} {next : α → Run σ β}
    (hAct : KeepsEntry key act) (hNext : ∀ a, KeepsEntry key (next a)) :
    KeepsEntry key (act >>= next) := by
  intro pass
  have hMiddle := hAct pass
  rw [Run.on_bind]
  rcases hOn : act.on pass with ⟨stop | a, behind⟩ <;> rw [hOn] at hMiddle
  · exact hMiddle
  · exact (hNext a behind).trans hMiddle

theorem KeepsEntry.guarded {act : Run σ String} (hAct : KeepsEntry key act)
    (describe : String → String) (place : Place) : KeepsEntry key (guarded describe place act) := by
  intro pass
  have hBehind := hAct pass
  rw [on_guarded]
  rcases hOn : act.on pass with ⟨(message | f) | text, behind⟩ <;> rw [hOn] at hBehind <;>
    exact hBehind

theorem eval_keepsEntry (e : Expr) : KeepsEntry key (eval context e) :=
  keepsEntry_of_vars (eval_vars e)

mutual

/-- A part leaves alone the entries that it does not assign. -/
theorem renderNode_keepsEntry : ∀ node, (∀ name, key = .text name → node.assigns name = false) →
    KeepsEntry key (renderNode context node)
  | .text _ _, _ => by
      rw [renderNode]
      exact fun _ => rfl
  | .print e _ place, _ => by
      rw [renderNode]
      exact (keepsEntry_of_vars (printed_vars e)).guarded _ place
  | .assign assigned e _ place, hFree => by
      rw [renderNode]
      refine ((eval_keepsEntry e).bind fun d => ?_).guarded _ place
      have hOther : key ≠ .text assigned := by
        intro hKey
        have hSame := hFree assigned hKey
        rw [Node.assigns, beq_self_eq_true] at hSame
        cases hSame
      intro pass
      exact (Assoc.get?_set pass.vars (.text assigned) key d).trans (if_neg hOther)
  | .loop iterator iterable body _ place, _ => by
      -- The turns of a loop run on variables of their own.
      rw [renderNode]
      refine ((eval_keepsEntry iterable).bind fun d => ?_).guarded _ place
      split
      · exact fun _ => rfl
      · exact keepsEntry_of_vars (loopText_vars iterator _ _)
      · exact fun _ => rfl
  | .conditional condition body branches otherwise _ place, hFree => by
      rw [renderNode]
      have hParts name hKey := Node.assigns_conditional_eq_false.mp (hFree name hKey)
      refine ((eval_keepsEntry condition).bind fun d => ?_).guarded _ place
      split
      · exact renderNodes_keepsEntry "" body fun name hKey => (hParts name hKey).1
      · have hOtherwise := renderOtherwise_keepsEntry otherwise fun name hKey => (hParts name hKey).2.2
        exact renderBranches_keepsEntry hOtherwise branches fun name hKey => (hParts name hKey).2.1

/-- A branch without a condition keeps the entries that its body does not assign. -/
theorem renderOtherwise_keepsEntry :
    ∀ body, (∀ name, key = .text name → Node.assignsInOtherwise name body = false) →
      KeepsEntry key (renderOtherwise context body)
  | some body, hFree => by
      rw [renderOtherwise]
      exact renderNodes_keepsEntry "" body hFree
  | none, _ => by
      rw [renderOtherwise]
      exact fun _ => rfl

/-- Branches keep the entries that none of their bodies assigns. -/
theorem renderBranches_keepsEntry {otherwise : Run σ String} (hLast : KeepsEntry key otherwise) :
    ∀ branches, (∀ name, key = .text name → Node.assignsInBranches name branches = false) →
      KeepsEntry key (renderBranches context otherwise branches)
  | [], _ => by
      rw [renderBranches]
      exact hLast
  | (condition, body) :: rest, hFree => by
      rw [renderBranches]
      have hParts name hKey := Node.assignsInBranches_cons_eq_false.mp (hFree name hKey)
      refine (eval_keepsEntry condition).bind fun d => ?_
      split
      · exact renderNodes_keepsEntry "" body fun name hKey => (hParts name hKey).1
      · exact renderBranches_keepsEntry hLast rest fun name hKey => (hParts name hKey).2

/-- By induction on the parts: they keep the entries that none of them assigns. -/
theorem renderNodes_keepsEntry :
    ∀ output nodes, (∀ name, key = .text name → Node.assignsIn name nodes = false) →
      KeepsEntry key (renderNodes context output nodes)
  | output, [], _ => by
      rw [renderNodes]
      exact fun _ => rfl
  | output, node :: rest, hFree => by
      rw [renderNodes]
      have hParts name hKey := Node.assignsIn_cons_eq_false.mp (hFree name hKey)
      refine (renderNode_keepsEntry node fun name hKey => (hParts name hKey).1).bind fun text => ?_
      refine (keepsEntry_of_vars (cutBehind_vars text)).bind fun text => ?_
      refine (keepsEntry_of_vars (markBehind_vars node.trim)).bind fun _ => ?_
      exact renderNodes_keepsEntry _ rest fun name hKey => (hParts name hKey).2

end

theorem render_vars (trimOutput : Bool) (nodes : List Node) (vars : Variables) (world : σ) :
    (render context trimOutput nodes vars world).2.1 =
      ((renderNodes context "" nodes).on { vars, world }).2.vars := rfl

/-- An assignment that is stopped has assigned nothing; a mistake is noted
once, in front of the earlier notes. -/
theorem renderNode_assign_of_stop {e : Expr} {pass behind : Pass σ} {stop : Stop}
    (h : (eval context e).on pass = (.error stop, behind)) (name : String) (trim : Trim)
    (place : Place) :
    ((renderNode context (.assign name e trim place)).on pass).2.vars = pass.vars ∧
      ∀ message, stop = .failed message →
        (renderNode context (.assign name e trim place)).on pass = (.ok "", { behind with
          vars := pass.vars
          errors := ⟨"Error in set: " ++ message, some place⟩ :: pass.errors }) := by
  obtain ⟨core, hCore⟩ : Detached (eval context e) := eval_detached e
  have hAssign : (assign context name e).on pass = (.error stop, behind) := by
    rw [assign, Run.on_bind, h]
  rw [hCore] at h
  obtain ⟨-, rfl⟩ := Prod.mk.inj h
  rw [renderNode, on_guarded, hAssign]
  cases stop with
  | failed message => exact ⟨rfl, fun _ hMessage => by cases hMessage; rfl⟩
  | fault f => exact ⟨rfl, fun _ hMessage => by cases hMessage⟩

/-- Rendering writes nothing but what the assignments outside of loops assign,
however it ends, and an assignment whose expression is stopped writes nothing
at all. -/
theorem render_frame (context : Context σ) (trimOutput : Bool) (nodes : List Node)
    (vars : Variables) (world : σ) :
    (∀ key, (∀ name, key = .text name → Node.assignsIn name nodes = false) →
      Assoc.get? (render context trimOutput nodes vars world).2.1 key = Assoc.get? vars key) ∧
    ∀ (name : String) (e : Expr) (trim : Trim) (place : Place) (pass behind : Pass σ) (stop : Stop),
      (eval context e).on pass = (.error stop, behind) →
      ((renderNode context (.assign name e trim place)).on pass).2.vars = pass.vars ∧
        ∀ message, stop = .failed message →
          (renderNode context (.assign name e trim place)).on pass = (.ok "", { behind with
            vars := pass.vars
            errors := ⟨"Error in set: " ++ message, some place⟩ :: pass.errors }) := by
  constructor
  · intro key hFree
    have hKeeps : KeepsEntry key (renderNodes context "" nodes) :=
      renderNodes_keepsEntry "" nodes hFree
    rw [render_vars]
    exact hKeeps { vars, world }
  · intro name e trim place pass behind stop hStop
    exact renderNode_assign_of_stop hStop name trim place

/-- A filter that always fails. -/
def failing : Context Unit := { filters := [("fail", fun _ _ => .error "no")] }

/-- An expression that always fails. -/
def failingExpr : Expr :=
  .filter (.identifier "rows" ⟨1, 1⟩) "fail" [] [] false ⟨1, 1⟩

/-- Assignments in a branch within a loop, in a branch outside of loops, and
one that fails. -/
def assignments : List Node :=
  [.loop "row" (.identifier "rows" ⟨1, 1⟩)
      [.conditional (.identifier "row" ⟨2, 1⟩)
        [.assign "seen" (.identifier "row" ⟨3, 1⟩) ⟨false, false⟩ ⟨3, 1⟩,
          .assign "row" failingExpr ⟨false, false⟩ ⟨4, 1⟩] [] none ⟨false, false⟩ ⟨2, 1⟩]
      ⟨false, false⟩ ⟨1, 1⟩,
    .conditional (.identifier "rows" ⟨5, 1⟩)
      [.assign "title" (.literal (.text "new") ⟨6, 1⟩) ⟨false, false⟩ ⟨6, 1⟩] [] none
      ⟨false, false⟩ ⟨5, 1⟩,
    .assign "rows" failingExpr ⟨false, false⟩ ⟨7, 1⟩]

/-- Two rows, and something under the name of the item. -/
def assignmentVars : Variables :=
  [(.text "rows", .plain (.arr [.str "a", .str "b"])), (.text "row", .plain (.str "old"))]

theorem render_frame_branches_and_loops :
    let outcome := render failing false assignments assignmentVars ()
    Assoc.get? outcome.2.1 (.text "row") = some (.plain (.str "old")) ∧
      Assoc.get? outcome.2.1 (.text "seen") = none ∧
      Assoc.get? outcome.2.1 (.text "title") = some (.plain (.str "new")) ∧
      outcome.1 = .ok ⟨"\n", [
        ⟨"Error in set: Filter 'fail' failed: no", some ⟨4, 1⟩⟩,
        ⟨"Error in set: Filter 'fail' failed: no", some ⟨4, 1⟩⟩,
        ⟨"Error in set: Filter 'fail' failed: no", some ⟨7, 1⟩⟩], false⟩ ∧
      ((renderNode failing (.assign "rows" failingExpr ⟨false, false⟩ ⟨7, 1⟩)).on
        { vars := assignmentVars, world := () }).2.vars = assignmentVars := by
  have hFrame := render_frame failing false assignments assignmentVars ()
  refine ⟨hFrame.1 (.text "row") ?_, hFrame.1 (.text "seen") ?_, by rfl, by rfl, ?_⟩
  · rintro _ ⟨⟩
    rfl
  · rintro _ ⟨⟩
    rfl
  · exact (hFrame.2 "rows" failingExpr ⟨false, false⟩ ⟨7, 1⟩ _ _ (.failed "Filter 'fail' failed: no")
      rfl).1

end Render

end NoteTemplate
