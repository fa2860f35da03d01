import NoteTemplate.Proofs.Deferred.SecondLook
import NoteTemplate.Proofs.Deferred.WholeNames

/-! What the second look finds of an expression that was put off. Its source is
put together from names, from strings in quotes and from numbers, and past these
the search for the end of the placeholder goes. Few texts are written into it as
they stand; when nothing is left open in those, the placeholder is found from
its first brace to its last. -/
namespace NoteTemplate

open Token

/-- A value, or an expression of which the placeholder is found as a whole. -/
def Datum.Findable : Datum → Prop
  | .plain _ => True
  | .deferred source => Whole source.toList

theorem Datum.findable_of_isPlain {d : Datum} (h : d.isPlain = true) : d.Findable := by
  obtain ⟨v, rfl⟩ := exists_of_isPlain h
  trivial

namespace Expr

/-- The words with a closing brace in them that an expression has end so that the
search goes past. -/
def Worded (e : Expr) : Prop := ∀ o ∈ e.occurrences, '\x7d' ∈ o.1.toList → Whole o.1.toList

/-- An expression with names that the search goes past, and words that it goes
past if there is no closing brace in them. -/
abbrev Legible (e : Expr) : Prop := e.Spelled (fun name => Whole name.toList) WholeWord

end Expr

theorem whole_operator (operator : Operator) : Whole operator.text.toList := by
  cases operator <;> decide

theorem whole_literal (l : Literal) : Whole l.print.toList := by
  cases l with
  | null => exact (show Whole "null".toList by decide)
  | bool b => cases b <;> exact (show Whole _ by decide)
  | int n => exact (fragment_paramText (v := .int n) rfl).closed.whole
  | float x => exact (fragment_paramText (v := .float x) rfl).closed.whole
  | text s => exact (fragment_quote s).closed.whole

mutual

/-- An expression as it is written. -/
theorem whole_print : ∀ e : Expr, e.Legible → e.Worded → Whole e.print.toList
  | .literal l _, _, _ => by
      rw [Expr.print]
      exact whole_literal l
  | .identifier name _, h, _ => by
      rw [Expr.print]
      exact h
  | .member object name _, h, hWords => by
      rw [Expr.Worded, Expr.occurrences] at hWords
      rw [Expr.print]
      have hPoint : Whole ".".toList := by decide
      exact ((whole_print object h.1 hWords).append_text hPoint).append_text h.2
  | .index object key _, h, hWords => by
      rw [Expr.Worded, Expr.occurrences, List.forall_mem_append] at hWords
      rw [Expr.print]
      have hOpen : Whole "[".toList := by decide
      have hClose : Whole "]".toList := by decide
      exact (((whole_print object h.1 hWords.1).append_text hOpen).append_text
        (whole_print key h.2 hWords.2)).append_text hClose
  | .not argument _, h, hWords => by
      rw [Expr.Worded, Expr.occurrences] at hWords
      rw [Expr.print]
      have hNot : Whole "not ".toList := by decide
      exact hNot.append_text (whole_print argument h hWords)
  | .binary operator left right _, h, hWords => by
      rw [Expr.Worded, Expr.occurrences, List.forall_mem_append] at hWords
      rw [Expr.print]
      have hBlank : Whole " ".toList := by decide
      exact ((((whole_print left h.1 hWords.1).append_text hBlank).append_text
        (whole_operator operator)).append_text hBlank).append_text (whole_print right h.2 hWords.2)
  | .group inner _, h, hWords => by
      rw [Expr.Worded, Expr.occurrences] at hWords
      rw [Expr.print]
      have hOpen : Whole "(".toList := by decide
      have hClose : Whole ")".toList := by decide
      exact (hOpen.append_text (whole_print inner h hWords)).append_text hClose
  | .filter value name args separators parenthesized _, h, hWords => by
      rw [Expr.Worded, Expr.occurrences, List.forall_mem_append] at hWords
      rw [Expr.print]
      have hBar : Whole "|".toList := by decide
      have hColon : Whole ":".toList := by decide
      have hHead := ((whole_print value h.1 hWords.1).append_text hBar).append_text h.2.1
      split
      · exact hHead
      · exact (hHead.append_text hColon).append_text
          (whole_layoutArgs separators parenthesized (whole_printAll args h.2.2 hWords.2))

/-- Printed arguments are whole if the names and words in them are. -/
theorem whole_printAll : ∀ args : List Expr,
    Expr.SpelledAll (fun name => Whole name.toList) WholeWord args →
    (∀ o ∈ Expr.occurrencesAll args, '\x7d' ∈ o.1.toList → Whole o.1.toList) →
    ∀ part ∈ Expr.printAll args, Whole part.toList
  | [], _, _ => by simp [Expr.printAll]
  | e :: rest, h, hWords => by
      rw [Expr.occurrencesAll, List.forall_mem_append] at hWords
      rw [Expr.printAll]
      refine List.forall_mem_cons.mpr ⟨?_, whole_printAll rest h.2 hWords.2⟩
      rcases h.1 with hLegible | ⟨name, place, rfl, hWord⟩
      · exact whole_print e hLegible hWords.1
      · rw [Expr.print]
        by_cases hBrace : '\x7d' ∈ name.toList
        · exact hWords.1 (name, place) (by rw [Expr.occurrences]; exact List.mem_singleton_self _) hBrace
        · exact hWord hBrace

end

namespace Render

variable {σ : Type} {context : Context σ}

/-- Evaluating an expression writes a text as it stands behind an expression that
was put off: a key in brackets, or the arguments of a filter among which there
are objects. -/
inductive Adds (context : Context σ) : Expr → Pass σ → String → Prop where
  | key {object key : Expr} {place : Place} {pass middle behind : Pass σ} {source : String}
      {k : Datum} {text : String}
      (hObject : (eval context object).on pass = (.ok (.deferred source), middle))
      (hKey : (eval context key).on middle = (.ok k, behind)) (hText : k.written = .ok text) :
      Adds context (.index object key place) pass text
  | param {value : Expr} {name : String} {args : List Expr} {separators : List Separator}
      {parenthesized : Bool} {place : Place} {pass middle behind : Pass σ} {source text : String}
      {values : List Value}
      (hValue : (eval context value).on pass = (.ok (.deferred source), middle))
      (hArgs : (evalArgs context args).on middle = (.ok values, behind))
      (hObject : ∃ v ∈ values, v.hasObject = true)
      (hText : writtenParam separators parenthesized values = .ok (some text)) :
      Adds context (.filter value name args separators parenthesized place) pass text

/-- What a name is deferred as can be found again if the name is whole. -/
theorem resolveOutside_findable {name : String} {d : Datum} {pass behind : Pass σ}
    (hName : Whole name.toList)
    (h : (resolveOutside context name).on pass = (.ok d, behind)) : d.Findable := by
  rw [on_resolveOutside] at h
  cases hResolver : context.resolver with
  | none =>
      rw [hResolver] at h
      cases h
      exact hName
  | some resolver =>
      rw [hResolver] at h
      rcases hAnswer : (resolver name pass.vars).run pass.world with ⟨v | _ | message, world⟩ <;>
        simp only [hAnswer] at h <;> cases h
      · trivial
      · exact hName

/-- What a name stands for can be found again if that holds of the variables. -/
theorem evalName_findable {name : String} {d : Datum} {pass behind : Pass σ}
    (hName : Whole name.toList) (hVars : pass.vars.Hold Datum.Findable)
    (h : (evalName context name).on pass = (.ok d, behind)) : d.Findable := by
  have hPlain (v : Value) : Datum.Findable (.plain v) := trivial
  rw [evalName] at h
  split at h
  · rw [Run.on_bind_ok (Run.on_get pass)] at h
    obtain ⟨found, middle, hFound, hRest⟩ := of_on_bind h
    obtain ⟨hLookup, rfl⟩ := of_on_ofFault hFound
    split at hRest
    · exact resolveOutside_findable hName hRest
    · cases hRest
      exact hVars.lookup hPlain hLookup
  · split at h
    · exact resolveOutside_findable hName h
    · rw [Run.on_bind_ok (Run.on_get pass)] at h
      exact hVars.resolve hPlain (of_on_ofFault h).1

/-- Arguments that can be written are written as they are found again. -/
theorem paramOf_of_written {separators : List Separator} {parenthesized : Bool}
    {values : List Value} {param : Option String}
    (h : writtenParam separators parenthesized values = .ok param) :
    paramOf separators parenthesized values = param := by
  rw [writtenParam] at h
  split at h
  · exact Except.ok.inj h
  · cases h

/-- A filter that is put off is written with its name and its arguments. -/
theorem deferFilter_findable {source name : String} {separators : List Separator}
    {parenthesized : Bool} {values : List Value} {param : Option String}
    (hSource : Whole source.toList) (hName : Whole name.toList)
    (hWritten : writtenParam separators parenthesized values = .ok param)
    (hParam : ∀ text, (∃ v ∈ values, v.hasObject = true) →
      writtenParam separators parenthesized values = .ok (some text) → Whole text.toList) :
    (deferFilter source name param).Findable := by
  have hBar : Whole "|".toList := by decide
  have hColon : Whole ":".toList := by decide
  have hHead := (hSource.append_text hBar).append_text hName
  cases param with
  | none => exact hHead
  | some text =>
      have hWhole : Whole text.toList := by
        by_cases hObject : ∃ v ∈ values, v.hasObject = true
        · exact hParam text hObject hWritten
        · have hText := paramOf_of_written hWritten
          rw [paramOf] at hText
          split at hText
          · cases hText
          · cases hText
            refine whole_layoutArgs separators parenthesized (List.forall_mem_map.mpr fun v hMem => ?_)
            exact whole_paramText (Bool.eq_false_iff.mpr fun h => hObject ⟨v, hMem, h⟩)
      rw [deferFilter]
      split
      · exact hHead
      · exact (hHead.append_text hColon).append_text hWhole

/-- A part of an expression that was put off is written with a name or a number. -/
theorem access_findable {object key d : Datum} (hObject : object.Findable)
    (hKey : ∀ source text, object = .deferred source → key.written = .ok text → Whole text.toList)
    (h : access object key = .ok d) : d.Findable := by
  cases object with
  | plain v => exact Datum.findable_of_isPlain (access_plain h)
  | deferred source =>
      have hOpen : Whole "[".toList := by decide
      have hClose : Whole "]".toList := by decide
      have hPoint : Whole ".".toList := by decide
      rw [access.eq_def] at h
      dsimp only at h
      split at h
      · obtain ⟨text, hText, hSource⟩ := Tokens.of_bind_ok h
        cases hSource
        exact ((hObject.append_text hOpen).append_text (hKey source text rfl hText)).append_text hClose
      · obtain ⟨text, hText, hSource⟩ := Tokens.of_bind_ok h
        cases hSource
        exact (hObject.append_text hPoint).append_text (hKey source text rfl hText)

/-- Whatever an expression comes to, the placeholder of it is found as a whole. -/
theorem eval_findable : ∀ (e : Expr) {pass behind : Pass σ} {d : Datum}, e.Legible →
    pass.vars.Hold Datum.Findable →
    (∀ part there text, EvalReaches context e pass part there → Adds context part there text →
      Whole text.toList) →
    (eval context e).on pass = (.ok d, behind) → d.Findable
  | .literal l _, pass, behind, d, _, _, _, h => by
      rw [eval] at h
      cases h
      trivial
  | .identifier name _, pass, behind, d, hLegible, hVars, _, h => by
      rw [eval] at h
      exact evalName_findable hLegible hVars h
  | .not e _, pass, behind, d, _, _, _, h => by
      rw [eval] at h
      obtain ⟨a, middle, -, hRest⟩ := of_on_bind h
      cases hRest
      trivial
  | .group inner _, pass, behind, d, hLegible, hVars, hAdded, h => by
      rw [eval] at h
      exact eval_findable inner hLegible hVars (fun _ _ _ hPart => hAdded _ _ _ (.grouped hPart)) h
  | .binary operator left right _, pass, behind, d, hLegible, hVars, hAdded, h => by
      rw [eval] at h
      obtain ⟨a, middle, hLeft, hRest⟩ := of_on_bind h
      split at hRest
      · next hFallback =>
        split at hRest
        · next hNullish =>
          refine eval_findable right hLegible.2 (vars_of_eval hLeft ▸ hVars) ?_ hRest
          exact fun _ _ _ hPart => hAdded _ _ _ (.right hLeft (fun _ => hNullish) hPart)
        · cases hRest
          exact eval_findable left hLegible.1 hVars (fun _ _ _ hPart => hAdded _ _ _ (.left hPart)) hLeft
      · -- All other operators make values, also of what was put off.
        obtain ⟨b, last, -, hRest⟩ := of_on_bind hRest
        obtain ⟨v, last, -, hRest⟩ := of_on_bind hRest
        cases hRest
        trivial
  | .filter value name args separators parenthesized place, pass, behind, d, hLegible, hVars,
      hAdded, h => by
      rw [eval] at h
      obtain ⟨a, middle, hValue, hRest⟩ := of_on_bind h
      obtain ⟨values, later, hArgs, hRest⟩ := of_on_bind hRest
      obtain ⟨param, last, hParam, hApplied⟩ := of_on_bind hRest
      have hFirst := eval_findable value hLegible.1 hVars
        (fun _ _ _ hPart => hAdded _ _ _ (.filtered hPart)) hValue
      cases a with
      | plain v => exact Datum.findable_of_isPlain (applyFilter_plain hApplied)
      | deferred source =>
          cases hApplied
          refine deferFilter_findable hFirst hLegible.2.1 (of_on_ofFault hParam).1
            fun text hObject hText => ?_
          exact hAdded _ pass text (.here _ _) (.param hValue hArgs hObject hText)
  | .member object name _, pass, behind, d, hLegible, hVars, hAdded, h => by
      rw [eval] at h
      obtain ⟨a, middle, hObject, hRest⟩ := of_on_bind h
      have hFirst := eval_findable object hLegible.1 hVars
        (fun _ _ _ hPart => hAdded _ _ _ (.object hPart)) hObject
      refine access_findable hFirst (fun source text _ hText => ?_) (of_on_ofFault hRest).1
      cases hText
      exact hLegible.2
  | .index object key place, pass, behind, d, hLegible, hVars, hAdded, h => by
      rw [eval] at h
      obtain ⟨a, middle, hObject, hRest⟩ := of_on_bind h
      obtain ⟨k, last, hKey, hRest⟩ := of_on_bind hRest
      have hFirst := eval_findable object hLegible.1 hVars
        (fun _ _ _ hPart => hAdded _ _ _ (.indexed hPart)) hObject
      refine access_findable hFirst ?_ (of_on_ofFault hRest).1
      rintro source text rfl hText
      exact hAdded _ pass text (.here _ _) (.key hObject hKey hText)

/-- Nothing that a rendering writes into a placeholder as it stands leaves
anything open: the page selectors of the template, what evaluating adds to
expressions that were put off, and the words of the questions that it prints. -/
structure LeavesNothingOpen (context : Context σ) (tokens : List Token) (nodes : List Node)
    (pass : Pass σ) : Prop where
  selector : ∀ t ∈ tokens, t.kind = .identifier → SelectorQuery.isName t.value = true →
    Closed t.value
  added : ∀ part there text, ReachesIn context nodes pass part there →
    Adds context part there text → Whole text.toList
  word : ∀ e trim place there, VisitsIn context nodes pass (.print e trim place) there →
    e.promptSource?.isSome = true → e.Worded

/-- Printing an expression prints one that was put off: a question as it is
written, or what evaluating comes to. -/
inductive PrintsDeferred (context : Context σ) (e : Expr) (there : Pass σ) (source : String) :
    Prop where
  | question (h : e.promptSource? = some (.ok source))
  | value {behind : Pass σ} (hNone : e.promptSource? = none)
      (hEval : (eval context e).on there = (.ok (.deferred source), behind))

/-- An expression that is printed as a placeholder gives the text of one. -/
theorem PrintsDeferred.on_printed {e : Expr} {there : Pass σ} {source : String}
    (h : PrintsDeferred context e there source) :
    ∃ behind, (printed context e).on there = (.ok (Datum.placeholder source), behind) := by
  rw [printed]
  cases h with
  | question h =>
      rw [h]
      exact ⟨_, rfl⟩
  | @value behind hNone hEval =>
      rw [hNone]
      exact ⟨behind, by rw [Run.on_bind_ok hEval]; rfl⟩

/-- The variables hold nothing but what is found as a whole. -/
def Pass.Findable (pass : Pass σ) : Prop := pass.vars.Hold Datum.Findable

theorem findable_invariant : Invariant (@Pass.Findable σ) where
  steady {pass behind} h hVars _ := by rwa [Pass.Findable, hVars]
  bound h added := Variables.Hold.bind h (fun _ => trivial) added

/-- Parts that leave nothing open keep all data findable. -/
theorem LeavesNothingOpen.keepsIn {tokens : List Token} {nodes : List Node} {pass : Pass σ}
    {Q : String → Prop} (h : LeavesNothingOpen context tokens nodes pass)
    (hLegible : Node.AllNodes Expr.Legible Q nodes) :
    KeepsIn Pass.Findable context nodes pass := by
  rintro inner there hVisits name e trim place rfl hThere d behind hEval
  have hBehind : behind.Findable := findable_invariant.of_eval hThere hEval
  refine hBehind.assign (eval_findable e (hVisits.all hLegible).2 hThere ?_ hEval) name
  exact fun part later text hPart => h.added part later text (hVisits.reaches (.assign hPart))

/-- The source of what a rendering prints is one that the search goes past. -/
theorem LeavesNothingOpen.whole {tokens : List Token} {nodes : List Node} {vars : Variables}
    {world : σ} {Q : String → Prop} (h : LeavesNothingOpen context tokens nodes { vars, world })
    (hLegible : Node.AllNodes Expr.Legible Q nodes) (hVars : Settled vars) {e : Expr} {trim : Trim}
    {place : Place} {there : Pass σ} {source : String}
    (hVisits : VisitsIn context nodes { vars, world } (.print e trim place) there)
    (hPrints : PrintsDeferred context e there source) : Whole source.toList := by
  have hExpr : e.Legible := hVisits.all hLegible
  cases hPrints with
  | question hQuestion =>
      -- A question is not evaluated; its source is the expression as it is written.
      have hWords := h.word e trim place there hVisits (by rw [hQuestion]; rfl)
      rw [Expr.promptSource?] at hQuestion
      split at hQuestion
      · rw [Expr.written] at hQuestion
        split at hQuestion
        · cases hQuestion
          exact whole_print e hExpr hWords
        · cases hQuestion
      · cases hQuestion
  | value hNone hEval =>
      have hStart : Pass.Findable { vars, world } := fun entry hMem =>
        Datum.findable_of_isPlain (hVars entry hMem)
      have hThere := (h.keepsIn hLegible).there findable_invariant hStart hVisits
      refine eval_findable e hExpr hThere ?_ hEval
      exact fun part later text hPart =>
        h.added part later text (hVisits.reaches (.print hNone hPart))

/-- When nothing is left open that a rendering writes into a placeholder as it
stands, each expression that was put off and that it prints is found behind it as
a whole: from the first brace of its placeholder to the last, whatever follows. -/
theorem placeholder_found_whole {text : String} {tokens : List Token} {t : Template}
    {vars : Variables} {world : σ} (hScan : Token.scan text = .ok tokens)
    {room : Nat} (hParse : Template.parse room text = .ok t) (hVars : Settled vars)
    (hOpen : LeavesNothingOpen context tokens t.nodes { vars, world }) {e : Expr} {trim : Trim}
    {place : Place} {there : Pass σ} {source : String}
    (hVisits : VisitsIn context t.nodes { vars, world } (.print e trim place) there)
    (hPrints : PrintsDeferred context e there source) :
    (∃ behind, (printed context e).on there = (.ok (Datum.placeholder source), behind)) ∧
    ∀ rest, Placeholder.atFront? ((Datum.placeholder source).toList ++ rest) =
        some (source.toList, rest) ∧
      Placeholder.pieces ((Datum.placeholder source).toList ++ rest) =
        .placeholder source.toList :: Placeholder.pieces rest := by
  have hLegible : Node.AllNodes Expr.Legible (fun _ => True) t.nodes := by
    refine Template.parse_spelled hParse (fun found hFound => ?_) fun _ _ => trivial
    rw [hScan] at hFound
    cases hFound
    exact spelling_whole hScan hOpen.selector
  have hSource := hOpen.whole hLegible hVars hVisits hPrints
  refine ⟨hPrints.on_printed, fun rest => ?_⟩
  have hFront := (atFront?_placeholder_iff source rest).mpr hSource
  exact ⟨hFront, pieces_of_atFront? hFront⟩

/-- A question to the page with a string in it, and an array behind it. -/
def linksText : String := "\x7b\x7bselector:a[href*=\"x\"]|join:glue\x7d\x7d"

/-- Its tokens. -/
def linksTokens : List Token :=
  [⟨.variableStart, "\x7b\x7b", ⟨0, 1, 1⟩, false, false⟩,
    ⟨.identifier, "selector:a[href*=\"x\"]", ⟨2, 1, 3⟩, false, false⟩,
    ⟨.pipe, "|", ⟨23, 1, 24⟩, false, false⟩, ⟨.identifier, "join", ⟨24, 1, 25⟩, false, false⟩,
    ⟨.colon, ":", ⟨28, 1, 29⟩, false, false⟩, ⟨.identifier, "glue", ⟨29, 1, 30⟩, false, false⟩,
    ⟨.variableEnd, "\x7d\x7d", ⟨33, 1, 34⟩, false, false⟩,
    ⟨.endOfText, "", ⟨35, 1, 36⟩, false, false⟩]

/-- What it prints. -/
def linksExpr : Expr :=
  .filter (.identifier "selector:a[href*=\"x\"]" ⟨1, 3⟩) "join" [.identifier "glue" ⟨1, 30⟩] []
    false ⟨1, 25⟩

/-- An array of braces. -/
def linksPass : Pass Unit := { vars := [(.text "glue", .plain (.arr [.str "\x7d\x7d"]))], world := () }

theorem linksPass_leavesNothingOpen : LeavesNothingOpen ({} : Context Unit) linksTokens
    [.print linksExpr ⟨false, false⟩ ⟨1, 1⟩] linksPass := by
  have hFirst : (eval {} (.identifier "selector:a[href*=\"x\"]" ⟨1, 3⟩)).on linksPass =
      (.ok (.deferred "selector:a[href*=\"x\"]"), { linksPass with deferred := true }) := by rfl
  have hValues : (evalArgs {} [.identifier "glue" ⟨1, 30⟩]).on { linksPass with deferred := true } =
      (.ok [.arr [.str "\x7d\x7d"]], { linksPass with deferred := true }) := by rfl
  constructor
  · decide +kernel
  · intro part there text hReaches hAdds
    cases hReaches.of_singleton with
    | print hNoPrompt hEval =>
        rcases hEval.of_filter with ⟨rfl, rfl⟩ | hValue | ⟨arg, hMem, middle, hArg⟩
        · cases hAdds with
          | param hValue hArgs hObject hText =>
              rw [hFirst] at hValue
              cases hValue
              rw [hValues] at hArgs
              cases hArgs
              exact absurd hObject (by decide)
        · cases hValue
          cases hAdds
        · rw [List.mem_singleton.mp hMem] at hArg
          cases hArg
          cases hAdds
  · intro e trim place there hVisits hPrompt
    cases hVisits.of_singleton
    cases hPrompt

/-- The braces in the array stand in a string, so that the placeholder ends behind them. -/
theorem placeholder_found_whole_links :
    Template.parse Template.usualRoom linksText =
      .ok ⟨[.print linksExpr ⟨false, false⟩ ⟨1, 1⟩], []⟩ ∧
    ∀ rest, Placeholder.atFront?
        ((Datum.placeholder "selector:a[href*=\"x\"]|join:[\"\x7d\x7d\"]").toList ++ rest) =
      some ("selector:a[href*=\"x\"]|join:[\"\x7d\x7d\"]".toList, rest) := by
  have hScan : Token.scan linksText = .ok linksTokens := by decide +kernel
  have hParse : Template.parse Template.usualRoom linksText =
      .ok ⟨[.print linksExpr ⟨false, false⟩ ⟨1, 1⟩], []⟩ := by
    have hBlocks : (BlockMap.ofTokens linksTokens).blocks = [] := by decide +kernel
    have hIssues : (BlockMap.ofTokens linksTokens).issues = [] := by decide +kernel
    have hMap : BlockMap.ofTokens linksTokens = ⟨[], []⟩ := by rw [← hBlocks, ← hIssues]
    rw [Template.parse_of_scan hScan, hMap]
    rfl
  have hVars : Settled linksPass.vars := List.forall_mem_singleton.mpr rfl
  have hVisits : VisitsIn {} [.print linksExpr ⟨false, false⟩ ⟨1, 1⟩] linksPass
      (.print linksExpr ⟨false, false⟩ ⟨1, 1⟩) linksPass := visitsIn_first (.here _ _)
  have hPrints : PrintsDeferred {} linksExpr linksPass
      "selector:a[href*=\"x\"]|join:[\"\x7d\x7d\"]" :=
    .value rfl (by rfl)
  refine ⟨hParse, fun rest => ?_⟩
  exact ((placeholder_found_whole hScan hParse hVars linksPass_leavesNothingOpen hVisits
    hPrints).2 rest).1

/-- A question to the page with quotes behind backslashes. -/
def escapedText : String := "\x7b\x7bselector:a[href=\\\"x\\\"]\x7d\x7d"

/-- The expression put off of which the placeholder has an open string in it, so
that nothing in the rendered text is found as one. -/
theorem escaped_quotes_not_found :
    (freshEngine.render ({} : Context Unit) escapedText [] ()).1 = .ok ⟨escapedText, [], true⟩ ∧
    escapedText = Datum.placeholder "selector:a[href=\\\"x\\\"]" ∧
    Placeholder.Plain escapedText := by
  have hRender : (freshEngine.render ({} : Context Unit) escapedText [] ()).1 =
      .ok ⟨escapedText, [], true⟩ := by decide +kernel
  have hPieces : Placeholder.pieces escapedText.toList = escapedText.toList.map .char := by
    decide +kernel
  exact ⟨hRender, by decide, plain_of_pieces hPieces⟩

end Render

end NoteTemplate
