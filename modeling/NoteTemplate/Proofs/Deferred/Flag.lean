import NoteTemplate.Proofs.Deferred.Link
import NoteTemplate.Proofs.Provenance.Exprs
import NoteTemplate.Proofs.Scope.Reach

/-! The flag of a rendering that says whether something was put off. It is
raised where an expression is put off and never taken down, so that it tells
the truth about all that was evaluated, printed and assigned: when it is down in
the end, there were values only. -/
namespace NoteTemplate

/-! Variables that hold values only. Whatever a name leads to among them is a
value, and they stay such when a value is assigned. -/

/-- Whether it is a value, and not an expression that was put off. -/
def Datum.isPlain : Datum → Bool
  | .plain _ => true
  | .deferred _ => false

theorem Datum.exists_of_isPlain {d : Datum} (h : d.isPlain = true) : ∃ v, d = .plain v := by
  cases d with
  | plain v => exact ⟨v, rfl⟩
  | deferred source => cases h

/-- Variables that hold only what they may. -/
def Variables.Hold (G : Datum → Prop) (vars : Variables) : Prop := ∀ entry ∈ vars, G entry.2

namespace Variables.Hold

variable {G : Datum → Prop} {vars : Variables} (h : vars.Hold G)

include h

/-- What holds of all data of some variables holds of them all with a datum of its kind
assigned. -/
theorem assign {d : Datum} (hDatum : G d) (name : String) : (vars.assign name d).Hold G := by
  rw [Variables.assign]
  induction vars with
  | nil => exact List.forall_mem_singleton.mpr hDatum
  | cons entry rest ih =>
      obtain ⟨hFirst, hRest⟩ := List.forall_mem_cons.mp h
      rw [Assoc.set]
      split
      · exact List.forall_mem_cons.mpr ⟨hDatum, hRest⟩
      · exact List.forall_mem_cons.mpr ⟨hFirst, ih hRest⟩

variable (hPlain : ∀ v, G (.plain v))

include hPlain

theorem get (name : String) : G (vars.get name) := by
  rw [Variables.get, Assoc.get?]
  cases hFound : vars.find? fun field => field.1 == .text name with
  | none => exact hPlain .null
  | some entry => exact h entry (List.mem_of_find?_eq_some hFound)

theorem field (name : String) : G (vars.field name) := by
  rw [Variables.field]
  split
  · exact h.get hPlain name
  · exact h.get hPlain (Value.wrapped name)

/-- What holds of all data holds of what a step of a path leads to. -/
theorem step {first : Value.Step} {d : Datum} (hStep : vars.step first = .ok d) : G d := by
  cases first with
  | key name =>
      cases hStep
      exact h.field hPlain name
  | index base index =>
      rw [Variables.step] at hStep
      split at hStep
      · cases hStep
        exact h.get hPlain _
      · split at hStep
        · cases hStep
          exact hPlain _
        · cases hStep
          exact hPlain _

/-- What holds of all data holds of what a path leads to. -/
theorem walk {path : String} {d : Datum} (hWalk : vars.walk path = .ok d) : G d := by
  rw [Variables.walk] at hWalk
  split at hWalk
  · cases hWalk
    exact hPlain _
  · split at hWalk
    · cases hWalk
      exact hPlain _
    · obtain ⟨found, hStep, hRest⟩ := Tokens.of_bind_ok hWalk
      cases found with
      | plain v =>
          obtain ⟨w, -, hEnd⟩ := Tokens.of_bind_ok hRest
          cases hEnd
          exact hPlain w
      | deferred source =>
          dsimp only at hRest
          split at hRest
          · cases hRest
            exact h.step hPlain hStep
          · cases hRest
            exact hPlain _

/-- What holds of all data holds of what a name stands for. -/
theorem resolve {name : String} {d : Datum} (hResolve : vars.resolve name = .ok d) : G d := by
  rw [Variables.resolve] at hResolve
  split at hResolve
  · cases hResolve
    exact h.field hPlain _
  · split at hResolve
    · exact h.walk hPlain hResolve
    · cases hResolve
      exact hPlain _

/-- What holds of all data holds of what is found as structured data. -/
theorem lookup {name : String} {d : Datum} (hLookup : Schema.lookup name vars = .ok d) : G d := by
  rw [Schema.lookup] at hLookup
  split at hLookup
  · cases hLookup
    exact hPlain _
  · extract_lets cut at hLookup
    clear_value cut
    split at hLookup
    · obtain ⟨key, -, hRest⟩ := Tokens.of_bind_ok hLookup
      cases key with
      | none =>
          cases hRest
          exact hPlain _
      | some key =>
          cases hRest
          exact h.get hPlain key
    · obtain ⟨key, -, hRest⟩ := Tokens.of_bind_ok hLookup
      cases key with
      | none =>
          cases hRest
          exact hPlain _
      | some key =>
          dsimp only at hRest
          split at hRest
          · obtain ⟨v, -, hEnd⟩ := Tokens.of_bind_ok hRest
            cases hEnd
            exact hPlain v
          · cases hRest
            exact hPlain _

/-- The variables of a turn of a loop are values like those around it. -/
theorem bind (added : List (String × Value)) : (Render.bind vars added).Hold G := by
  rw [Render.bind]
  induction added generalizing vars with
  | nil => exact h
  | cons entry rest ih => exact ih (h.assign (hPlain entry.2) entry.1)

end Variables.Hold

/-- Variables of which none holds an expression that was put off. -/
def Settled (vars : Variables) : Prop := ∀ entry ∈ vars, entry.2.isPlain = true

namespace Settled

variable {vars : Variables} (h : Settled vars)

include h

theorem hold : vars.Hold fun d => d.isPlain = true := h

theorem resolve {name : String} {d : Datum} (hResolve : vars.resolve name = .ok d) :
    d.isPlain = true :=
  h.hold.resolve (fun _ => rfl) hResolve

theorem lookup {name : String} {d : Datum} (hLookup : Schema.lookup name vars = .ok d) :
    d.isPlain = true :=
  h.hold.lookup (fun _ => rfl) hLookup

theorem assign {d : Datum} (hPlain : d.isPlain = true) (name : String) :
    Settled (vars.assign name d) :=
  h.hold.assign hPlain name

theorem bind (added : List (String × Value)) : Settled (Render.bind vars added) :=
  h.hold.bind (fun _ => rfl) added

end Settled

end NoteTemplate

namespace NoteTemplate.Render

variable {σ α β : Type} {context : Context σ}

/-- A computation that never takes the flag down, also when it stops. -/
def KeepsFlag (act : Run σ α) : Prop :=
  ∀ pass, pass.deferred = true → (act.on pass).2.deferred = true

theorem Detached.keepsFlag {act : Run σ α} (h : Detached act) : KeepsFlag act := by
  obtain ⟨core, hCore⟩ := h
  intro pass hFlag
  rw [hCore, hFlag, Bool.true_or]

/-- Nothing that a pass is composed of takes the flag back. -/
theorem keepsFlag_compositional : Compositional (@KeepsFlag σ) where
  done a := (detached_compositional.done a).keepsFlag
  faulty result := (detached_compositional.faulty result).keepsFlag
  failed message := (detached_compositional.failed message).keepsFlag
  bind {α β act next} hAct hNext := by
    intro pass hFlag
    have hMiddle := hAct pass hFlag
    rw [Run.on_bind]
    rcases hOn : act.on pass with ⟨stop | a, behind⟩ <;> rw [hOn] at hMiddle
    · exact hMiddle
    · exact hNext a behind hMiddle
  readVars {α next} hNext _ := fun pass hFlag => by
    rw [Run.on_bind_ok (Run.on_get pass)]
    exact hNext pass pass hFlag

/-- A note changes nothing of the flag. -/
theorem guarded_flag (describe : String → String) (place : Place) (act : Run σ String)
    (pass : Pass σ) :
    ((guarded describe place act).on pass).2.deferred = (act.on pass).2.deferred := by
  rw [on_guarded]
  rcases act.on pass with ⟨(message | f) | text, behind⟩ <;> rfl

/-- Rendering parts takes the flag back no more than evaluating does. -/
theorem keepsFlag_renders : Renders (@KeepsFlag σ) where
  toCompositional := keepsFlag_compositional
  guarded {act} describe place hAct := fun pass hFlag => by
    rw [guarded_flag]
    exact hAct pass hFlag
  withVariables vars hAct := fun pass hFlag => by
    rw [on_withVariables]
    exact hAct { pass with vars } hFlag
  readPending {α next} hNext _ := fun pass hFlag => by
    rw [Run.on_bind_ok (Run.on_get pass)]
    exact hNext pass pass hFlag
  setPending pending := fun _ hFlag => hFlag
  assignVar name d := fun _ hFlag => hFlag
  cutBehind output := fun pass hFlag => by
    rw [on_cutBehind]
    split <;> exact hFlag
  defer source := fun _ _ => rfl

theorem eval_keepsFlag (e : Expr) : KeepsFlag (eval context e) := (eval_detached e).keepsFlag

theorem renderNodes_keepsFlag (output : String) (nodes : List Node) :
    KeepsFlag (renderNodes context output nodes) :=
  keepsFlag_renders.nodes eval_keepsFlag output nodes

theorem KeepsFlag.up {act : Run σ α} {result : Except Stop α} {pass behind : Pass σ}
    (h : KeepsFlag act) (hOn : act.on pass = (result, behind)) (hUp : pass.deferred = true) :
    behind.deferred = true := by
  have hBehind := h pass hUp
  rwa [hOn] at hBehind

theorem KeepsFlag.down {act : Run σ α} {result : Except Stop α} {pass behind : Pass σ}
    (h : KeepsFlag act) (hOn : act.on pass = (result, behind)) (hDown : behind.deferred = false) :
    pass.deferred = false := by
  rw [← Bool.not_eq_true]
  intro hUp
  rw [h.up hOn hUp] at hDown
  cases hDown

/-- So does applying a filter, once the values of its arguments are known. -/
theorem filtered_keepsFlag (name : String) (d : Datum) (separators : List Separator)
    (parenthesized : Bool) (values : List Value) : KeepsFlag (do
      let param ← ofFault (writtenParam separators parenthesized values)
      applyFilter context name d values param) :=
  keepsFlag_compositional.bind (keepsFlag_compositional.faulty _)
    fun param => keepsFlag_compositional.applyFilter name d values param

/-! What an expression yields. -/

/-- A computation that yields a value where variables hold values, unless it
raises the flag. -/
def YieldsValue (act : Run σ Datum) : Prop :=
  ∀ pass d behind, Settled pass.vars → act.on pass = (.ok d, behind) → behind.deferred = false →
    d.isPlain = true

/-- A value that may be a fault neither looks at the pass nor changes it. -/
theorem of_on_ofFault {result : Except Fault α} {pass behind : Pass σ} {a : α}
    (h : (ofFault result).on pass = (.ok a, behind)) : result = .ok a ∧ behind = pass := by
  rw [on_ofFault] at h
  cases result with
  | error f => cases h
  | ok a =>
      cases h
      exact ⟨rfl, rfl⟩

/-- When nothing is deferred, what the page or a prompt answers is a value. -/
theorem resolveOutside_yieldsValue (name : String) :
    YieldsValue (resolveOutside context name) := by
  intro pass d behind _ hOn hDown
  rw [on_resolveOutside] at hOn
  cases hResolver : context.resolver with
  | none =>
      rw [hResolver] at hOn
      cases hOn
      cases hDown
  | some resolver =>
      rw [hResolver] at hOn
      rcases hAnswer : (resolver name pass.vars).run pass.world with ⟨v | _ | message, world⟩ <;>
        simp only [hAnswer] at hOn <;> cases hOn
      · rfl
      · cases hDown

/-- When nothing is deferred, a name that is not a variable stands for a value. -/
theorem evalName_yieldsValue (name : String) : YieldsValue (evalName context name) := by
  intro pass d behind hVars hOn hDown
  rw [evalName] at hOn
  split at hOn
  · rw [Run.on_bind_ok (Run.on_get pass)] at hOn
    obtain ⟨found, middle, hFound, hRest⟩ := of_on_bind hOn
    obtain ⟨hLookup, rfl⟩ := of_on_ofFault hFound
    split at hRest
    · exact resolveOutside_yieldsValue name _ _ _ hVars hRest hDown
    · cases hRest
      exact hVars.lookup hLookup
  · split at hOn
    · exact resolveOutside_yieldsValue name _ _ _ hVars hOn hDown
    · rw [Run.on_bind_ok (Run.on_get pass)] at hOn
      exact hVars.resolve (of_on_ofFault hOn).1

/-- A filter makes a value of a value. -/
theorem applyFilter_plain {name : String} {v : Value} {args : List Value} {param : Option String}
    {d : Datum} {pass behind : Pass σ}
    (h : (applyFilter context name (.plain v) args param).on pass = (.ok d, behind)) :
    d.isPlain = true := by
  rw [applyFilter] at h
  split at h
  · split at h
    · cases h
      rfl
    · cases h
  · obtain ⟨result, hApplied⟩ := Link.apply_plain context.registry name v param context.url
    rw [hApplied] at h
    cases result with
    | error f => cases h
    | ok w =>
        cases h
        rfl

/-- Inside of a value there are values only. -/
theorem access_plain {v : Value} {key d : Datum} (h : access (.plain v) key = .ok d) :
    d.isPlain = true := by
  rw [access] at h
  split at h
  · cases h
    rfl
  · cases hPart : part v key with
    | error f =>
        rw [hPart] at h
        cases h
    | ok w =>
        rw [hPart] at h
        cases h
        rfl

theorem settled_of_eval {e : Expr} {d : Datum} {pass behind : Pass σ} (hVars : Settled pass.vars)
    (h : (eval context e).on pass = (.ok d, behind)) : Settled behind.vars := by
  rw [vars_of_eval h]
  exact hVars

/-- Whatever is derived from an expression that was put off, the flag is up
already. -/
theorem eval_yieldsValue : ∀ e, YieldsValue (eval context e)
  | .literal l _ => by
      intro pass d behind _ hOn _
      rw [eval] at hOn
      cases hOn
      rfl
  | .identifier name _ => by
      rw [eval]
      exact evalName_yieldsValue name
  | .not e _ => by
      intro pass d behind _ hOn _
      rw [eval] at hOn
      obtain ⟨a, middle, -, hRest⟩ := of_on_bind hOn
      cases hRest
      rfl
  | .group inner _ => by
      rw [eval]
      exact eval_yieldsValue inner
  | .binary operator left right _ => by
      intro pass d behind hVars hOn hDown
      rw [eval] at hOn
      obtain ⟨a, middle, hLeft, hRest⟩ := of_on_bind hOn
      split at hRest
      · split at hRest
        · exact eval_yieldsValue right _ _ _ (settled_of_eval hVars hLeft) hRest hDown
        · cases hRest
          exact eval_yieldsValue left _ _ _ hVars hLeft hDown
      · obtain ⟨b, last, -, hRest⟩ := of_on_bind hRest
        obtain ⟨v, last, -, hRest⟩ := of_on_bind hRest
        cases hRest
        rfl
  | .filter value name args separators parenthesized _ => by
      intro pass d behind hVars hOn hDown
      rw [eval] at hOn
      obtain ⟨a, middle, hValue, hRest⟩ := of_on_bind hOn
      have hKeeps : KeepsFlag (do
          let values ← evalArgs context args
          let param ← ofFault (writtenParam separators parenthesized values)
          applyFilter context name a values param) :=
        keepsFlag_compositional.bind
          (keepsFlag_compositional.evalArgs (fun _ => (resolveOutside_detached _).keepsFlag) args)
          (filtered_keepsFlag name a separators parenthesized)
      have hPlain := eval_yieldsValue value _ _ _ hVars hValue (hKeeps.down hRest hDown)
      obtain ⟨v, rfl⟩ := Datum.exists_of_isPlain hPlain
      obtain ⟨values, last, -, hRest⟩ := of_on_bind hRest
      obtain ⟨param, last, -, hApplied⟩ := of_on_bind hRest
      exact applyFilter_plain hApplied
  | .member object name _ => by
      intro pass d behind hVars hOn hDown
      rw [eval] at hOn
      obtain ⟨a, middle, hObject, hRest⟩ := of_on_bind hOn
      obtain ⟨hAccess, rfl⟩ := of_on_ofFault hRest
      obtain ⟨v, rfl⟩ := Datum.exists_of_isPlain (eval_yieldsValue object _ _ _ hVars hObject hDown)
      exact access_plain hAccess
  | .index object key _ => by
      intro pass d behind hVars hOn hDown
      rw [eval] at hOn
      obtain ⟨a, middle, hObject, hRest⟩ := of_on_bind hOn
      obtain ⟨k, last, hKey, hRest⟩ := of_on_bind hRest
      obtain ⟨hAccess, rfl⟩ := of_on_ofFault hRest
      have hMiddle := (eval_keepsFlag key).down hKey hDown
      obtain ⟨v, rfl⟩ := Datum.exists_of_isPlain
        (eval_yieldsValue object _ _ _ hVars hObject hMiddle)
      exact access_plain hAccess

end NoteTemplate.Render
