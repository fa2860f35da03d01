import Mathlib.Data.List.Infix
import NoteTemplate.Proofs.Cache.Recency
import NoteTemplate.Proofs.Deferred.SecondLook
import NoteTemplate.Proofs.Forms.Reading
import NoteTemplate.Proofs.Scope.Shadowing

/-! Filling a form in. Each name gives way to the text of the value that it leads
to, and the texts stay as they are, blanks and single braces included. A value
without a text ends the rendering. -/
namespace NoteTemplate

open Text Token

/-! A name of name characters leads somewhere: its steps are keys, and a key of
digits writes an index, if the digits are not too many. -/

/-- Names hold no digits but those of ASCII. -/
theorem isDigit_of_isNameChar {c : Char} (hName : isNameChar c = true)
    (hDigit : Text.isDigit c = true) : c.isDigit = true := by
  have hLetter {low high : Char} (h : low ≤ c ∧ c ≤ high) (hLow : 57 < low.toNat)
      (hHigh : high.toNat < 0x80) : c.isDigit = true := by
    rw [isDigit_of_toNat (.inr (Nat.lt_of_lt_of_le hLow (toNat_le_toNat h.1)))
      (Nat.lt_of_le_of_lt (toNat_le_toNat h.2) hHigh)] at hDigit
    cases hDigit
  simp only [isNameChar, isAsciiLetter, isAsciiDigit, Bool.or_eq_true, Bool.and_eq_true,
    decide_eq_true_eq, beq_iff_eq] at hName
  rcases hName with (((((hSmall | hCapital) | hRange) | rfl) | rfl) | rfl) | rfl
  · exact hLetter hSmall (by decide) (by decide)
  · exact hLetter hCapital (by decide) (by decide)
  · rw [Char.isDigit, Bool.and_eq_true, decide_eq_true_eq, decide_eq_true_eq]
    exact hRange
  all_goals cases hDigit

namespace Value

/-- A key of name characters that an index may be written with. -/
structure NamedKey (key : String) : Prop where
  chars : ∀ c ∈ key.toList, isNameChar c = true
  length : key.length ≤ Decimal.maxDigits

/-- A key that is no number too long to be read selects something from any value. -/
theorem NamedKey.exists_select {key : String} (h : NamedKey key) (v : Value) :
    ∃ found, Value.select v key = .ok found := by
  cases v with
  | arr items =>
      rw [Value.select]
      split
      · next hDigits =>
        have hIndex := readInt_digits hDigits.1 fun c hc =>
          isDigit_of_isNameChar (h.chars c hc) (List.all_eq_true.mp hDigits.2 c hc)
        rw [indexOfDigits, hIndex, if_neg (Nat.not_lt.mpr h.length)]
        exact ⟨_, rfl⟩
      · split <;> exact ⟨_, rfl⟩
  | _ => exact ⟨_, rfl⟩

/-- A step by such a key. -/
def Step.IsNamed (s : Step) : Prop := ∃ key, s = .key key ∧ NamedKey key

/-- A path of such keys leads somewhere from any value. -/
theorem exists_follow (v : Value) {steps : List Step} (hSteps : ∀ s ∈ steps, s.IsNamed) :
    ∃ found, Value.follow v steps = .ok found := by
  induction steps generalizing v with
  | nil => exact ⟨v, rfl⟩
  | cons s rest ih =>
      obtain ⟨⟨key, rfl, hKey⟩, hRest⟩ := List.forall_mem_cons.mp hSteps
      obtain ⟨next, hNext⟩ := hKey.exists_select v
      obtain ⟨found, hFound⟩ := ih next hRest
      by_cases hNull : v = .null
      · exact ⟨.null, by rw [hNull]; rfl⟩
      · refine ⟨found, ?_⟩
        rw [Value.follow.eq_3 _ _ _ hNull, Value.step, hNext]
        exact hFound

/-- The pieces of a text are made of characters of the text. -/
theorem sublist_of_mem_splitOnChar {sep : Char} {cs piece : List Char}
    (h : piece ∈ splitOnChar sep cs) : piece.Sublist cs := by
  induction cs generalizing piece with
  | nil =>
      rw [splitOnChar, List.mem_singleton] at h
      rw [h]
  | cons c rest ih =>
      rw [splitOnChar] at h
      split at h
      · rcases List.mem_cons.mp h with rfl | hLater
        · exact List.nil_sublist _
        · exact (ih hLater).cons c
      · split at h
        · rcases List.mem_singleton.mp h with rfl
          exact (List.nil_sublist rest).cons_cons c
        · next first later hSplit =>
          rw [hSplit] at ih
          rcases List.mem_cons.mp h with rfl | hLater
          · exact (ih List.mem_cons_self).cons_cons c
          · exact (ih (List.mem_cons_of_mem _ hLater)).cons c

/-- The steps of a path are keys of the same kind. -/
theorem NamedKey.stepsOf {path : String} (h : NamedKey path) :
    ∀ s ∈ Value.stepsOf path, s.IsNamed := by
  intro s hMem
  obtain ⟨part, hPart, rfl⟩ := List.mem_map.mp hMem
  have hSublist := sublist_of_mem_splitOnChar hPart
  have hChars : ∀ c ∈ part, isNameChar c = true := fun c hc => h.chars c (hSublist.subset hc)
  have hNone : cutAtChar? '[' part = none :=
    Link.cutAtChar?_of_forall fun c hc => ne_of_class (hChars c hc) '[' (by decide)
  refine ⟨String.ofList part, by rw [Step.ofChars, hNone], by rwa [String.toList_ofList], ?_⟩
  rw [String.length_ofList]
  exact hSublist.length_le.trans h.length

end Value

/-- A path of name characters leads somewhere among variables. -/
theorem Variables.exists_walk (vars : Variables) {path : String} (hPath : Value.NamedKey path) :
    ∃ d, vars.walk path = .ok d := by
  have hNamed := hPath.stepsOf
  rw [Variables.walk]
  split
  · exact ⟨_, rfl⟩
  · split
    · exact ⟨_, rfl⟩
    · next first rest hSteps =>
      rw [hSteps] at hNamed
      obtain ⟨⟨name, rfl, -⟩, hRest⟩ := List.forall_mem_cons.mp hNamed
      have hStep : Variables.step vars (.key name) = .ok (vars.field name) := rfl
      simp only [hStep, bind, Except.bind]
      split
      · exact ⟨_, rfl⟩
      · next v _ =>
        obtain ⟨found, hFound⟩ := Value.exists_follow v hRest
        rw [hFound]
        exact ⟨_, rfl⟩

/-- The text of what a name leads to, if it can be written. -/
def Variables.textOf (vars : Variables) (name : String) : Except Fault String := do
  (← vars.resolve name).written

/-- Variables that hold values have one for each name of name characters, if only
the value null. The name must not be so long that too many digits are in it. -/
theorem Settled.exists_resolve {vars : Variables} (h : Settled vars) {name : String}
    (hName : Expr.isNameText name.toList = true) (hLength : name.length ≤ Decimal.maxDigits) :
    ∃ v, vars.resolve name = .ok (.plain v) := by
  have hFound : ∃ d, vars.resolve name = .ok d := by
    rw [Variables.resolve, (Render.readable_of_isNameText hName).strip_eq]
    split
    · exact ⟨_, rfl⟩
    · split
      · exact Variables.exists_walk vars ⟨Link.isNameChar_of_isNameText hName, hLength⟩
      · exact ⟨_, rfl⟩
  obtain ⟨d, hResolve⟩ := hFound
  obtain ⟨v, rfl⟩ := Datum.exists_of_isPlain (h.resolve hResolve)
  exact ⟨v, hResolve⟩

/-- Among values a name has a text exactly if it leads to a value that can be
written, and then the text is that of the value. -/
theorem Settled.textOf_ok_iff {vars : Variables} (h : Settled vars) {name text : String} :
    vars.textOf name = .ok text ↔
      ∃ v, vars.resolve name = .ok (.plain v) ∧ v.writable = true ∧ v.text = text := by
  constructor
  · intro hText
    obtain ⟨d, hResolve, hWritten⟩ := Tokens.of_bind_ok hText
    obtain ⟨v, rfl⟩ := Datum.exists_of_isPlain (h.resolve hResolve)
    exact ⟨v, hResolve, Value.written_ok.mp hWritten⟩
  · rintro ⟨v, hResolve, hWritten⟩
    rw [Variables.textOf, hResolve]
    exact Value.written_ok.mpr hWritten

namespace Form

open Render

variable {σ : Type} {context : Context σ}

/-- A form is filled in as soon as there is a text for each of its names. -/
theorem fill_ok_iff {form : Form} {value : String → Except Fault String} :
    (∃ text, form.fill value = .ok text) ↔ ∀ name ∈ form.names, ∃ text, value name = .ok text := by
  induction form with
  | last text => exact ⟨fun _ => List.forall_mem_nil _, fun _ => ⟨text, rfl⟩⟩
  | field text name rest ih =>
      rw [names, List.forall_mem_cons, ← ih]
      constructor
      · rintro ⟨whole, hWhole⟩
        obtain ⟨first, hFirst, hLater⟩ := Tokens.of_bind_ok hWhole
        obtain ⟨later, hRest, -⟩ := Tokens.of_bind_ok hLater
        exact ⟨⟨first, hFirst⟩, later, hRest⟩
      · rintro ⟨⟨first, hFirst⟩, later, hRest⟩
        exact ⟨text ++ (first ++ later), by rw [fill, hFirst, hRest]; rfl⟩

/-- A part that changes nothing and cuts no blanks adds its text, or has none and
is the last. -/
theorem on_renderNodes_part {node : Node} {written : Except Fault String} {output : String}
    {rest : List Node} {pass : Pass σ} (hTrim : node.trim = ⟨false, false⟩)
    (hPending : pass.pendingTrim = false)
    (hNode : (renderNode context node).on pass = (ofFault written).on pass) :
    (renderNodes context output (node :: rest)).on pass =
      Run.on (ofFault written >>= fun text => renderNodes context (output ++ text) rest) pass := by
  rw [renderNodes, Run.on_bind, hNode, Run.on_bind, on_ofFault]
  cases written with
  | error f => rfl
  | ok text =>
      dsimp only
      have hCut : (cutBehind text).on pass = (.ok text, pass) := by
        rw [on_cutBehind, hPending]
        rfl
      have hMark : (markBehind node.trim).on pass = (.ok (), pass) := by
        rw [hTrim]
        rfl
      rw [Run.on_bind_ok hCut, Run.on_bind_ok hMark, cutBefore, hTrim]
      rfl

/-- A text is rendered as itself. -/
theorem SaysText.on_renderNodes {text : String} {nodes : List Node} (h : SaysText text nodes)
    (output : String) {pass : Pass σ} (hPending : pass.pendingTrim = false) :
    (renderNodes context output nodes).on pass = (.ok (output ++ text), pass) := by
  cases h with
  | nothing =>
      rw [renderNodes, String.append_empty]
      rfl
  | text text place =>
      have hNode : (renderNode context (.text text place)).on pass = (ofFault (.ok text)).on pass := rfl
      rw [on_renderNodes_part rfl hPending hNode]
      rfl

/-- A name is rendered as the text of what it leads to. -/
theorem on_renderNode_name {name : String} (hName : Expr.isNameText name.toList = true)
    (place start : Place) (pass : Pass σ) :
    (renderNode context (.print (.identifier name place) ⟨false, false⟩ start)).on pass =
      (ofFault (pass.vars.textOf name)).on pass := by
  have hPrinted : (printed context (.identifier name place)).on pass =
      (ofFault (pass.vars.textOf name)).on pass := by
    have hPrompt : (Expr.identifier name place).promptSource? = none := rfl
    rw [printed, hPrompt]
    dsimp only
    rw [Run.on_bind, eval_of_isNameText hName, Variables.textOf]
    cases pass.vars.resolve name with
    | error f => rfl
    | ok d => rfl
  rw [renderNode, on_guarded, hPrinted, on_ofFault]
  cases pass.vars.textOf name <;> rfl

/-- By induction on the form: rendering its parts fills it in and changes nothing
else. -/
theorem Says.on_renderNodes {form : Form} {nodes : List Node} (h : form.Says nodes)
    {pass : Pass σ} (hPending : pass.pendingTrim = false)
    (hNames : ∀ name ∈ form.names, Expr.isNameText name.toList = true) (output : String) :
    (renderNodes context output nodes).on pass =
      (ofFault ((form.fill pass.vars.textOf).map (output ++ ·))).on pass := by
  induction h generalizing output with
  | last hText => exact hText.on_renderNodes output hPending
  | @field text name rest nodes later place start hFront hRest ih =>
      obtain ⟨hName, hLater⟩ := List.forall_mem_cons.mp hNames
      rw [on_renderNodes_append (hFront.on_renderNodes output hPending),
        on_renderNodes_part rfl hPending (on_renderNode_name hName place start pass), fill]
      cases pass.vars.textOf name with
      | error f => rfl
      | ok first =>
          rw [Run.on_bind_ok (on_ofFault (.ok first) pass), ih hLater]
          cases rest.fill pass.vars.textOf with
          | error f => rfl
          | ok written =>
              have hText : output ++ text ++ first ++ written =
                  output ++ (text ++ (first ++ written)) := by
                simp only [String.append_assoc]
              show (ofFault (.ok (output ++ text ++ first ++ written))).on pass = _
              rw [hText]
              rfl

theorem Sound.isNameText {form : Form} (h : form.Sound) :
    ∀ name ∈ form.names, Expr.isNameText name.toList = true := by
  induction h with
  | last => exact List.forall_mem_nil _
  | field _ _ hName _ ih => exact List.forall_mem_cons.mpr ⟨hName.chars, ih⟩

end Form

section Filled

variable {τ σ : Type}

/-- Rendering a form fills it in: nothing is noted or put off, and the variables stay
as they are. It ends with a fault where filling it in does, which goes well exactly
if every name leads to a value that can be written. A name leads to a value unless it
is so long that too many digits are in it. -/
theorem Engine.render_form {engine : Engine τ}
    (hParsed : engine.parsed.Truthful (Template.parse engine.room)) {form : Form}
    (hForm : form.Sound) {vars : Variables} (hVars : Settled vars) (context : Render.Context σ)
    (world : σ) :
    engine.render context form.source vars world =
      ((form.fill vars.textOf).map fun text =>
        ⟨Render.finish engine.config.trimOutput text, [], false⟩, vars, world,
        (engine.parse form.source).2) ∧
    ((∃ text, form.fill vars.textOf = .ok text) ↔
      ∀ name ∈ form.names, ∃ v, vars.resolve name = .ok (.plain v) ∧ v.writable = true) ∧
    ∀ name ∈ form.names,
      (∀ text, vars.textOf name = .ok text ↔
        ∃ v, vars.resolve name = .ok (.plain v) ∧ v.writable = true ∧ v.text = text) ∧
      (name.length ≤ Decimal.maxDigits → ∃ v, vars.resolve name = .ok (.plain v)) := by
  have hNames := hForm.isNameText
  refine ⟨?_, ?_, fun name hMem =>
    ⟨fun text => hVars.textOf_ok_iff, hVars.exists_resolve (hNames name hMem)⟩⟩
  · obtain ⟨nodes, hSays, hParse⟩ := hForm.parse engine.room
    have hFound : engine.parse form.source = (.ok ⟨nodes, []⟩, (engine.parse form.source).2) :=
      Prod.ext ((hParsed.get form.source).1.trans hParse) rfl
    have hRun : (Render.renderNodes context "" nodes).run { vars, world } =
        (Render.ofFault ((form.fill vars.textOf).map ("" ++ ·))).on { vars, world } :=
      hSays.on_renderNodes rfl hNames ""
    rw [Render.on_ofFault] at hRun
    rw [render, hFound]
    simp only [Template.ok, List.isEmpty_nil, if_true, Render.render, hRun]
    cases form.fill vars.textOf with
    | error f => rfl
    | ok text =>
        simp only [Except.map, String.empty_append]
        rfl
  · rw [Form.fill_ok_iff]
    refine forall₂_congr fun name hMem => ⟨?_, ?_⟩
    · rintro ⟨text, hText⟩
      obtain ⟨v, hResolve, hWritable, -⟩ := hVars.textOf_ok_iff.mp hText
      exact ⟨v, hResolve, hWritable⟩
    · rintro ⟨v, hResolve, hWritable⟩
      exact ⟨v.text, hVars.textOf_ok_iff.mpr ⟨v, hResolve, hWritable, rfl⟩⟩

/-- A form with lone braces and a line break next to its names. -/
def letterForm : Form :=
  .field "\x7b \x7d\x7d\n" "page.title" (.field "" "@x" (.field "%\x7d'" "selector" (.last "\x7b")))

/-- Variables with a title among the fields of an object. -/
def letterVars : Variables :=
  [(.text "page", .plain (.obj [("title", .str "\x7b\x7bb\x7d\x7d")])), (.text "@x", .plain (.int 3))]

theorem letterForm_sound : letterForm.Sound := by
  have hTitle : Form.FieldName "page.title" := ⟨by decide, by decide, by decide⟩
  have hSign : Form.FieldName "@x" := ⟨by decide, by decide, by decide⟩
  have hSelector : Form.FieldName "selector" := ⟨by decide, by decide, by decide⟩
  refine .field ⟨by decide, by decide⟩ (by decide) hTitle ?_
  refine .field ⟨by decide, by decide⟩ (by decide) hSign ?_
  exact .field ⟨by decide, by decide⟩ (by decide) hSelector (.last ⟨by decide, by decide⟩)

theorem Engine.render_form_letter :
    letterForm.source =
      "\x7b \x7d\x7d\n\x7b\x7bpage.title\x7d\x7d\x7b\x7b@x\x7d\x7d%\x7d'\x7b\x7bselector\x7d\x7d\x7b" ∧
    letterForm.fill letterVars.textOf = .ok "\x7b \x7d\x7d\n\x7b\x7bb\x7d\x7d3%\x7d'\x7b" ∧
    freshEngine.render ({} : Render.Context Unit) letterForm.source letterVars () =
      (.ok ⟨"\x7b \x7d\x7d\n\x7b\x7bb\x7d\x7d3%\x7d'\x7b", [], false⟩, letterVars, (),
        (freshEngine.parse letterForm.source).2) ∧
    (∀ name ∈ letterForm.names, ∃ v, letterVars.resolve name = .ok (.plain v) ∧ v.writable = true) ∧
    ∃ v, letterVars.resolve "selector" = .ok (.plain v) := by
  have hParsed : freshEngine.parsed.Truthful (Template.parse freshEngine.room) :=
    fun _ hMem => (by cases hMem)
  have hVars : Settled letterVars := by
    simp only [Settled, letterVars, List.forall_mem_cons]
    exact ⟨rfl, rfl, List.forall_mem_nil _⟩
  have hFill : letterForm.fill letterVars.textOf =
      .ok "\x7b \x7d\x7d\n\x7b\x7bb\x7d\x7d3%\x7d'\x7b" := by decide +kernel
  obtain ⟨hRender, hFilled, hNames⟩ :=
    Engine.render_form hParsed letterForm_sound hVars ({} : Render.Context Unit) ()
  have hSelector : "selector" ∈ letterForm.names := by decide
  rw [hFill] at hRender
  exact ⟨by decide, hFill, hRender, hFilled.mp ⟨_, hFill⟩,
    (hNames "selector" hSelector).2 (by decide)⟩

/-- A variable that holds an integer with too many digits. Printing it ends the
rendering with a fault. -/
theorem Engine.long_integer_not_printed :
    (Form.field "" "x" (.last "")).source = "\x7b\x7bx\x7d\x7d" ∧
    (freshEngine.render ({} : Render.Context Unit) "\x7b\x7bx\x7d\x7d"
      [(.text "x", .plain (.int Decimal.digitLimit))] ()).1 = .error .integerTooLong := by
  constructor
  · decide
  · decide +kernel

end Filled

end NoteTemplate
