import NoteTemplate.Proofs.Render.Frame
import NoteTemplate.Proofs.Scope.Use

/-! The names that variables can have while a template is rendered: those
known beforehand, those that the check takes to be assigned, and the state of
a loop. Rendering a part keeps to what the check says of the part, whichever
way the rendering goes and however it ends. -/
namespace NoteTemplate.Render

open Validate

variable {σ : Type} {context : Context σ} {known scope : List String}

/-- The keys that variables may have when some names are known and others are
assigned. -/
inductive Allowed (known scope : List String) : Key → Prop where
  | known {n : String} (h : n ∈ known) : Allowed known scope (.text n)
  | wrapped {n : String} (h : n ∈ known) : Allowed known scope (.text (Value.wrapped n))
  | assigned {n : String} (h : n ∈ scope) : Allowed known scope (.text n)
  | loop : Allowed known scope (.text "loop")

/-- Variables without any other key. -/
def KeysWithin (known scope : List String) (vars : Variables) : Prop :=
  ∀ key ∈ vars.map Prod.fst, Allowed known scope key

/-- Keys stay in a scope that grows. -/
theorem KeysWithin.mono {wider : List String} {vars : Variables}
    (h : KeysWithin known scope vars) (hScope : scope ⊆ wider) : KeysWithin known wider vars := by
  intro key hKey
  cases h key hKey with
  | known hKnown => exact .known hKnown
  | wrapped hKnown => exact .wrapped hKnown
  | assigned hAssigned => exact .assigned (hScope hAssigned)
  | loop => exact .loop

/-- Storing an entry adds no key but its own. -/
theorem mem_keys_set {κ α : Type} [DecidableEq κ] (entries : Assoc κ α) (key : κ) (entry : α)
    {other : κ} (h : other ∈ (Assoc.set entries key entry).map Prod.fst) :
    other = key ∨ other ∈ entries.map Prod.fst := by
  induction entries with
  | nil => simpa [Assoc.set] using h
  | cons field rest ih =>
      rw [Assoc.set] at h
      split at h
      · rw [List.map_cons, List.mem_cons] at h
        exact h.imp_right (List.mem_cons_of_mem _)
      · rw [List.map_cons, List.mem_cons] at h
        rcases h with rfl | hRest
        · exact .inr List.mem_cons_self
        · exact (ih hRest).imp_right (List.mem_cons_of_mem _)

theorem KeysWithin.assign {vars : Variables} (h : KeysWithin known scope vars) {name : String}
    (hName : Allowed known scope (.text name)) (d : Datum) :
    KeysWithin known scope (vars.assign name d) := by
  intro key hKey
  rcases mem_keys_set vars (.text name) d hKey with rfl | hOld
  · exact hName
  · exact h key hOld

/-- The variables of a turn are those around the loop, with the item, its
index and the state of the loop. -/
theorem KeysWithin.bind {vars : Variables} (h : KeysWithin known scope vars) (iterator : String)
    (item : Value) (index length : Nat) :
    KeysWithin known (iterator :: (iterator ++ "_index") :: scope)
      (bind vars (bindings iterator item index length)) := by
  have hScope : scope ⊆ iterator :: (iterator ++ "_index") :: scope :=
    List.Subset.trans (List.subset_cons_self (iterator ++ "_index") scope)
      (List.subset_cons_self iterator _)
  have hOuter := h.mono hScope
  have hItem := hOuter.assign (.assigned List.mem_cons_self) (.plain item)
  have hIndex := hItem.assign (.assigned (List.mem_cons_of_mem iterator List.mem_cons_self))
    (.plain (.int index))
  exact hIndex.assign .loop _

/-- A computation that leads from variables of the one scope to variables of
the other, also when it stops. -/
def Assigns (known scope wider : List String) {α : Type} (act : Run σ α) : Prop :=
  ∀ pass, KeysWithin known scope pass.vars → KeysWithin known wider (act.on pass).2.vars

theorem Detached.vars_eq {α : Type} {act : Run σ α} (h : Detached act) (pass : Pass σ) :
    (act.on pass).2.vars = pass.vars := by
  obtain ⟨core, hCore⟩ := h
  rw [hCore]

theorem eval_vars (e : Expr) (pass : Pass σ) : ((eval context e).on pass).2.vars = pass.vars :=
  (eval_detached e).vars_eq pass

theorem evalArgs_vars (args : List Expr) (pass : Pass σ) :
    ((evalArgs context args).on pass).2.vars = pass.vars :=
  (detached_compositional.evalArgs resolveOutside_detached args).vars_eq pass

theorem assigns_of_vars {α : Type} {act : Run σ α} (h : ∀ pass, (act.on pass).2.vars = pass.vars) :
    Assigns known scope scope act := by
  intro pass hKeys
  rw [h]
  exact hKeys

theorem Assigns.mono {α : Type} {wider widest : List String} {act : Run σ α}
    (h : Assigns known scope wider act) (hWidest : wider ⊆ widest) :
    Assigns known scope widest act :=
  fun pass hKeys => (h pass hKeys).mono hWidest

theorem Assigns.anti {α : Type} {narrow wider : List String} {act : Run σ α}
    (h : Assigns known scope wider act) (hNarrow : narrow ⊆ scope) :
    Assigns known narrow wider act :=
  fun pass hKeys => h pass (hKeys.mono hNarrow)

/-- A run that assigns in a scope may be followed by one that assigns in what it leaves.
-/
theorem Assigns.bind {α β : Type} {middle wider : List String} {act : Run σ α}
    {next : α → Run σ β} (hAct : Assigns known scope middle act)
    (hNext : ∀ a, Assigns known middle wider (next a)) (hWider : middle ⊆ wider) :
    Assigns known scope wider (act >>= next) := by
  intro pass hKeys
  have hMiddle := hAct pass hKeys
  rw [Run.on_bind]
  rcases hOn : act.on pass with ⟨stop | a, behind⟩ <;> rw [hOn] at hMiddle
  · exact hMiddle.mono hWider
  · exact hNext a behind hMiddle

/-- A guarded run assigns what the run assigns; a mistake takes nothing back. -/
theorem Assigns.guarded {wider : List String} {act : Run σ String}
    (hAct : Assigns known scope wider act) (describe : String → String) (place : Place) :
    Assigns known scope wider (guarded describe place act) := by
  intro pass hKeys
  have hBehind := hAct pass hKeys
  rw [on_guarded]
  rcases hOn : act.on pass with ⟨(message | f) | text, behind⟩ <;> rw [hOn] at hBehind <;>
    exact hBehind

theorem printed_vars (e : Expr) (pass : Pass σ) :
    ((printed context e).on pass).2.vars = pass.vars :=
  (printed_detached e).vars_eq pass

/-- A loop puts the variables around it back behind each of its turns. -/
theorem turns_vars (iterator : String) (length : Nat) (body : Run σ String) (index : Nat)
    (items : List Value) (pass : Pass σ) :
    ((turns iterator length body index items).on pass).2.vars = pass.vars := by
  induction items generalizing index pass with
  | nil => rfl
  | cons item rest ih =>
      rw [turns, Run.on_bind_ok (Run.on_get pass), Run.on_bind, on_withVariables]
      generalize body.on _ = outcome
      rcases outcome with ⟨stop | text, behind⟩
      · rfl
      · dsimp only
        rw [Run.on_bind]
        have hLater := ih (index + 1) { behind with vars := pass.vars }
        rcases hOn : (turns iterator length body (index + 1) rest).on
          { behind with vars := pass.vars } with ⟨stop | later, last⟩ <;>
          rw [hOn] at hLater <;> exact hLater

theorem loopText_vars (iterator : String) (items : List Value) (body : Run σ String)
    (pass : Pass σ) : ((loopText iterator items body).on pass).2.vars = pass.vars := by
  rw [loopText, Run.on_bind_ok (Run.on_get pass), Run.on_bind]
  have hTurns := turns_vars iterator items.length body 0 items pass
  rcases hOn : (turns iterator items.length body 0 items).on pass with ⟨stop | texts, behind⟩ <;>
    rw [hOn] at hTurns <;> exact hTurns

theorem cutBehind_vars (output : String) (pass : Pass σ) :
    ((cutBehind output).on pass).2.vars = pass.vars := by
  rw [on_cutBehind]
  split <;> rfl

theorem markBehind_vars (trim : Trim) (pass : Pass σ) :
    ((markBehind trim).on pass).2.vars = pass.vars := by
  rw [on_markBehind]

theorem eval_assigns (e : Expr) : Assigns known scope scope (eval context e) :=
  assigns_of_vars (eval_vars e)

mutual

/-- Rendering a part assigns no name but those that the check sees assigned. -/
theorem renderNode_assigns :
    ∀ scope node, Assigns known scope (ofNode scope node).2 (renderNode context node)
  | scope, .text _ _ => by
      rw [renderNode, ofNode]
      exact assigns_of_vars fun _ => rfl
  | scope, .print e _ place => by
      rw [renderNode, ofNode]
      exact (assigns_of_vars (printed_vars e)).guarded _ place
  | scope, .assign name e _ place => by
      rw [renderNode, ofNode]
      refine ((eval_assigns e).bind (fun d => ?_) (List.subset_cons_self name scope)).guarded _ place
      intro pass hKeys
      have hWider := hKeys.mono (List.subset_cons_self name scope)
      exact hWider.assign (.assigned List.mem_cons_self) d
  | scope, .loop iterator iterable body _ place => by
      rw [renderNode, ofNode_loop]
      refine ((eval_assigns iterable).bind (fun d => ?_) (List.Subset.refl scope)).guarded _ place
      split
      · exact assigns_of_vars fun _ => rfl
      · exact assigns_of_vars (loopText_vars iterator _ _)
      · exact assigns_of_vars fun _ => rfl
  | scope, .conditional condition body branches otherwise _ place => by
      rw [renderNode, ofNode_conditional]
      have hBody := scope_subset_ofNodes scope body
      have hLater := List.Subset.trans (scope_subset_ofBranches (ofNodes scope body).2 branches)
        (scope_subset_ofOtherwise _ otherwise)
      refine ((eval_assigns condition).bind (fun d => ?_) (List.Subset.trans hBody hLater)).guarded _ place
      split
      · exact (renderNodes_assigns scope "" body).mono hLater
      · have hOtherwise := renderOtherwise_assigns (ofBranches (ofNodes scope body).2 branches).2
          otherwise
        have hBranches := renderBranches_assigns (ofNodes scope body).2 branches hOtherwise
          (scope_subset_ofOtherwise _ otherwise)
        exact hBranches.anti hBody

/-- A branch without a condition assigns what the analysis of its body says. -/
theorem renderOtherwise_assigns :
    ∀ scope body, Assigns known scope (ofOtherwise scope body).2 (renderOtherwise context body)
  | scope, some body => by
      rw [renderOtherwise, ofOtherwise]
      exact renderNodes_assigns scope "" body
  | scope, none => by
      rw [renderOtherwise, ofOtherwise]
      exact assigns_of_vars fun _ => rfl

/-- Branches assign no more than the analysis of them all says. -/
theorem renderBranches_assigns {otherwise : Run σ String} {wider : List String} :
    ∀ scope branches, Assigns known (ofBranches scope branches).2 wider otherwise →
      (ofBranches scope branches).2 ⊆ wider →
        Assigns known scope wider (renderBranches context otherwise branches)
  | scope, [] => by
      intro hOtherwise _
      rw [renderBranches]
      rwa [ofBranches] at hOtherwise
  | scope, (condition, body) :: rest => by
      intro hOtherwise hWider
      rw [ofBranches_cons] at hOtherwise hWider
      rw [renderBranches]
      have hBody := scope_subset_ofNodes scope body
      have hRest := List.Subset.trans (scope_subset_ofBranches (ofNodes scope body).2 rest) hWider
      refine (eval_assigns condition).bind (fun d => ?_) (List.Subset.trans hBody hRest)
      split
      · exact (renderNodes_assigns scope "" body).mono hRest
      · exact (renderBranches_assigns (ofNodes scope body).2 rest hOtherwise hWider).anti hBody

/-- By induction on the parts: they assign no more than the analysis says. -/
theorem renderNodes_assigns :
    ∀ scope output nodes, Assigns known scope (ofNodes scope nodes).2 (renderNodes context output nodes)
  | scope, output, [] => by
      rw [renderNodes, ofNodes]
      exact assigns_of_vars fun _ => rfl
  | scope, output, node :: rest => by
      rw [renderNodes, ofNodes_cons]
      have hRest := scope_subset_ofNodes (ofNode scope node).2 rest
      refine (renderNode_assigns scope node).bind (fun text => ?_) hRest
      refine (assigns_of_vars (cutBehind_vars text)).bind (fun text => ?_) hRest
      refine (assigns_of_vars (markBehind_vars node.trim)).bind (fun _ => ?_) hRest
      exact renderNodes_assigns _ _ rest

end

end NoteTemplate.Render
