import NoteTemplate.Engine
import NoteTemplate.Filter.Items
import NoteTemplate.Filter.LetterCase
import NoteTemplate.Proofs.Deferred.Link
import NoteTemplate.Proofs.Render.Frame

/-! A question to the page with filters behind it. Rendering may put it to the
page at once, or leave it in the text as a placeholder for the second look; the
text is the same in the end. -/
namespace NoteTemplate

open Render Token

/-- The name of a question to the page, whose selector holds no backslash,
quote, bracket or bar and does not end in a blank. -/
inductive PageName : String → Prop where
  | text {css : String} (hPlain : ∀ c ∈ css.toList, isPlain c = true) (hEnd : SolidEnd css) :
      PageName (SelectorQuery.textMark ++ css)
  | html {css : String} (hPlain : ∀ c ∈ css.toList, isPlain c = true) (hEnd : SolidEnd css) :
      PageName (SelectorQuery.htmlMark ++ css)

namespace PageName

/-- The name of a query can be found again in front of a chain. -/
theorem chainPart_mark {mark css : String} (hMark : Fragment mark) (hSome : mark ≠ "")
    (hPlain : ∀ c ∈ css.toList, isPlain c = true) (hEnd : SolidEnd css) :
    ChainPart (mark ++ css) := by
  obtain ⟨c, rest, hText⟩ : ∃ c rest, mark.toList = c :: rest :=
    List.exists_cons_of_ne_nil fun hNil => hSome (String.toList_eq_nil_iff.mp hNil)
  refine ⟨⟨?_, ?_, hMark.solid.ends.append hEnd⟩, ?_⟩
  · rw [String.toList_append]
    exact hMark.closed.append (sealed_of_forall hPlain)
  · intro d hHead
    refine hMark.solid.begins d ?_
    rw [String.toList_append, hText] at hHead
    rwa [hText]
  · rintro hEmpty
    rw [← String.toList_eq_nil_iff, String.toList_append, hText] at hEmpty
    cases hEmpty

variable {name : String} (h : PageName name)

include h

theorem chainPart : ChainPart name := by
  cases h with
  | text hPlain hEnd => exact chainPart_mark (fragment_literal rfl) (by decide) hPlain hEnd
  | html hPlain hEnd => exact chainPart_mark (fragment_literal rfl) (by decide) hPlain hEnd

/-- The name of a query asks the page. -/
theorem isName : SelectorQuery.isName name = true := by
  cases h with
  | text =>
      rw [SelectorQuery.isName, String.toList_append]
      rfl
  | html =>
      rw [SelectorQuery.isName, String.toList_append]
      rfl

/-- The name of a query does not ask for structured data. -/
theorem not_schema : Schema.isName name = false := by
  cases h with
  | text =>
    rw [Schema.isName, String.toList_append]
    rfl
  | html =>
    rw [Schema.isName, String.toList_append]
    rfl

/-- The name of a query does not ask a question in words. -/
theorem not_prompt : Prompt.isName name = false := by
  cases h with
  | text =>
    rw [Prompt.isName, String.toList_append]
    rfl
  | html =>
    rw [Prompt.isName, String.toList_append]
    rfl

/-- The name of a query is one that can be put to the page. -/
theorem query : ∃ query, SelectorQuery.ofName name = .ok query := by
  cases h with
  | @text css =>
    rw [SelectorQuery.ofName, String.toList_append]
    exact ⟨_, rfl⟩
  | @html css =>
    rw [SelectorQuery.ofName, String.toList_append]
    exact ⟨_, rfl⟩

end PageName

variable {τ : Type} [LE τ] [DecidableLE τ] [Add τ] [OfNat τ 0]

namespace PostProcessor

/-- Rendering that puts questions to the page at once. -/
def asking (p : PostProcessor) : Context (Session τ) :=
  { url := p.url, resolver := some (Engine.pageResolver p.surroundings p.tab p.url),
    registry := p.registry }

/-- Rendering that leaves questions to the second look. -/
def deferring (p : PostProcessor) : Context Unit := { url := p.url, registry := p.registry }

/-- The engine compiles a template with a processor that asks at once. -/
example (engine : Engine τ) (surroundings : Surroundings) (vars : Variables) (url : String)
    (tab : Option Int) : (engine.postProcessor surroundings vars url tab).asking =
      { url, resolver := some (Engine.pageResolver surroundings tab url),
        registry := engine.registry } := rfl

end PostProcessor

/-- Behind the value of a filter, its arguments are the given ones. -/
def ArgsBehind {σ : Type} (context : Context σ) (pass : Pass σ) (value : Expr) (args : List Expr)
    (values : List Value) : Prop :=
  ∀ d behind, (eval context value).on pass = (.ok d, behind) →
    ((evalArgs context args).on behind).1 = .ok values

/-- Filters behind a question to the page. Their arguments are scalars that can be
written, and the same ones whether the page is asked at once or not. -/
inductive SelectorChain (p : PostProcessor) (asked : Pass (Session τ)) (deferred : Pass Unit) :
    Expr → Prop where
  | selector {name : String} (place : Place) (hName : PageName name) :
      SelectorChain p asked deferred (.identifier name place)
  | filter {value : Expr} {name : String} {args : List Expr} {values : List Value}
      (separators : List Separator) (parenthesized : Bool) (place : Place)
      (hValue : SelectorChain p asked deferred value) (hName : Expr.isNameText name.toList = true)
      (hScalar : ∀ v ∈ values, v.isScalar = true) (hWritable : Value.itemsWritable values = true)
      (hAsked : ArgsBehind p.asking asked value args values)
      (hDeferred : ArgsBehind p.deferring deferred value args values) :
      SelectorChain p asked deferred (.filter value name args separators parenthesized place)

/-- What is left in the text of a question with filters behind it. -/
def sourceOf (name : String) (links : List Link) : String :=
  String.intercalate "|" (name :: links.map Link.text)

/-- One more filter stands behind one more bar. -/
theorem sourceOf_append (name : String) (links : List Link) (l : Link) :
    sourceOf name (links ++ [l]) = sourceOf name links ++ "|" ++ l.text := by
  have hIntercalate (first last : String) (parts : List String) :
      String.intercalate "|" (first :: (parts ++ [last])) =
        String.intercalate "|" (first :: parts) ++ "|" ++ last := by
    induction parts generalizing first with
    | nil => simp
    | cons part parts ih =>
        rw [List.cons_append, String.intercalate_cons_cons, ih, String.intercalate_cons_cons]
        simp only [String.append_assoc]
  rw [sourceOf, List.map_append, List.map_singleton, hIntercalate, sourceOf]

section Evaluating

variable {p : PostProcessor} {σ : Type}

theorem on_evalName {context : Context σ} {name : String} (hName : PageName name) (pass : Pass σ) :
    (evalName context name).on pass = (resolveOutside context name).on pass := by
  rw [evalName, hName.not_schema, hName.isName]
  rfl

/-- A question that is put at once has the answer that the second look would
have, with an empty text for nothing. -/
theorem on_asking {answer : SelectorQuery → Except String Value}
    (hAnswer : p.surroundings.selectors = some answer) {name : String} {query : SelectorQuery}
    (hName : PageName name) (hQuery : SelectorQuery.ofName name = .ok query)
    (pass : Pass (Session τ)) :
    ∃ v behind, (evalName p.asking name).on pass = (.ok (.plain v), behind) ∧
      v.written =
        (PostProcessor.select p.surroundings ⟨p.tab, p.url, query⟩ pass.world).1.written := by
  let selected := PostProcessor.select p.surroundings ⟨p.tab, p.url, query⟩ pass.world
  have hResolver : (Engine.pageResolver p.surroundings p.tab p.url name pass.vars).run pass.world =
      (.value (if selected.1.isNull then .str "" else selected.1), selected.2) := by
    simp only [Engine.pageResolver, hAnswer, Option.isSome_some, hName.isName, Bool.and_self, if_true,
      hQuery]
    rfl
  refine ⟨if selected.1.isNull then .str "" else selected.1, { pass with world := selected.2 }, ?_, ?_⟩
  · rw [on_evalName hName, on_resolveOutside]
    simp only [PostProcessor.asking, hResolver]
  · show (if selected.1.isNull then Value.str "" else selected.1).written = selected.1.written
    cases selected.1 <;> rfl

theorem on_deferring {name : String} (hName : PageName name) (pass : Pass Unit) :
    (evalName p.deferring name).on pass = (.ok (.deferred name), { pass with deferred := true }) := by
  rw [on_evalName hName, on_resolveOutside]
  rfl

/-- A filter over something plain or deferred, with arguments that can be written. -/
theorem on_filter {context : Context σ} {value : Expr} {name : String} {args : List Expr}
    {separators : List Separator} {parenthesized : Bool} {place : Place} {pass middle last : Pass σ}
    {d : Datum} {values : List Value} (hValue : (eval context value).on pass = (.ok d, middle))
    (hArgs : (evalArgs context args).on middle = (.ok values, last))
    (hWritable : Value.itemsWritable values = true) :
    (eval context (.filter value name args separators parenthesized place)).on pass =
      (applyFilter context name d values (paramOf separators parenthesized values)).on last := by
  rw [eval, Run.on_bind_ok hValue, Run.on_bind_ok hArgs, writtenParam, if_pos hWritable]
  rfl

/-- Scalar arguments are found again as they were written. -/
theorem sound_link {name : String} {values : List Value} (separators : List Separator)
    (parenthesized : Bool) (hName : Expr.isNameText name.toList = true)
    (hScalar : ∀ v ∈ values, v.isScalar = true) :
    (Link.mk name (paramOf separators parenthesized values)).Sound := by
  refine ⟨hName, fun text hText => ?_⟩
  have hParts : ∀ part ∈ values.map Value.paramText, Fragment part := by
    intro part hMem
    obtain ⟨v, hValue, rfl⟩ := List.mem_map.mp hMem
    exact fragment_paramText (hScalar v hValue)
  simp only [paramOf] at hText
  split at hText
  · cases hText
  · cases hText
    exact fragment_layoutArgs separators parenthesized hParts

/-- The two ways of evaluating a question with filters behind it: as a text
that is left for later, or as the value that the filters make of the answer. Either
one of them is at fault, or its text is that of the answer behind the filters. -/
structure Staged (p : PostProcessor) (asked : Pass (Session τ)) (deferred : Pass Unit) (e : Expr)
    (name : String) (query : SelectorQuery) (links : List Link) : Prop where
  deferred : ∃ behind, behind.deferred = true ∧
    (eval p.deferring e).on deferred = (.ok (.deferred (sourceOf name links)), behind)
  asked : ∃ (result : Except Fault Value) (behind : Pass (Session τ)),
    (eval p.asking e).on asked = (ofFault (result.map Datum.plain)).on behind ∧
      (result >>= Value.written) = Link.applyAll links p.registry p.url (.plain
        (PostProcessor.select p.surroundings ⟨p.tab, p.url, query⟩ asked.world).1) >>= Datum.written

/-- The beginning of a chain: with a page the selector is answered, and without one it
is put off. -/
theorem Staged.selector {answer : SelectorQuery → Except String Value}
    (hAnswer : p.surroundings.selectors = some answer) (asked : Pass (Session τ))
    (deferred : Pass Unit) {name : String} {query : SelectorQuery} (place : Place)
    (hName : PageName name) (hQuery : SelectorQuery.ofName name = .ok query) :
    Staged p asked deferred (.identifier name place) name query [] := by
  constructor
  · refine ⟨{ deferred with deferred := true }, rfl, ?_⟩
    rw [eval, on_deferring hName, sourceOf, List.map_nil, String.intercalate_singleton]
  · rw [eval]
    obtain ⟨v, behind, hAsked, hText⟩ := on_asking hAnswer hName hQuery asked
    exact ⟨.ok v, behind, hAsked, hText⟩

/-- What is done to the value at once is written behind the text for later. -/
theorem Staged.filter {asked : Pass (Session τ)} {deferred : Pass Unit} {value : Expr}
    {name : String} {query : SelectorQuery} {links : List Link}
    (h : Staged p asked deferred value name query links) {args : List Expr} {values : List Value}
    (hWritable : Value.itemsWritable values = true)
    (hAsked : ArgsBehind p.asking asked value args values)
    (hDeferred : ArgsBehind p.deferring deferred value args values) (filterName : String)
    (separators : List Separator) (parenthesized : Bool) (place : Place) :
    Staged p asked deferred (.filter value filterName args separators parenthesized place) name query
      (links ++ [⟨filterName, paramOf separators parenthesized values⟩]) := by
  constructor
  · obtain ⟨middle, hFlag, hValue⟩ := h.deferred
    have hArgs : (evalArgs p.deferring args).on middle =
        (.ok values, ((evalArgs p.deferring args).on middle).2) := by
      rw [← hDeferred _ _ hValue]
    have hDetached : Detached (evalArgs p.deferring args) :=
      detached_compositional.evalArgs resolveOutside_detached args
    obtain ⟨core, hCore⟩ := hDetached
    refine ⟨((evalArgs p.deferring args).on middle).2, ?_, ?_⟩
    · rw [hCore]
      simp [hFlag]
    · rw [on_filter hValue hArgs hWritable, sourceOf_append, ← Link.deferFilter_eq]
      rfl
  · obtain ⟨result, behind, hValue, hText⟩ := h.asked
    let l : Link := ⟨filterName, paramOf separators parenthesized values⟩
    -- The value and the answer may differ, an empty text against nothing, but the filter
    -- sees their texts only, and one that fails leaves both with the same text.
    have hAfter {d : Except Fault Datum} (hSame : (d >>= Datum.written) = result >>= Value.written) :
        ((d >>= l.applyTo p.registry p.url) >>= Datum.written) =
          Link.applyAll (links ++ [l]) p.registry p.url (.plain (PostProcessor.select p.surroundings
            ⟨p.tab, p.url, query⟩ asked.world).1) >>= Datum.written := by
      simp only [Link.applyAll_append, bind_assoc, Link.applyTo, Link.apply_written]
      rw [← bind_assoc, ← bind_assoc, hSame, hText]
    cases result with
    | error f =>
        refine ⟨.error f, behind, ?_, hAfter (d := .error f) rfl⟩
        rw [eval, Run.on_bind, hValue]
        rfl
    | ok v =>
        have hArgs : (evalArgs p.asking args).on behind =
            (.ok values, ((evalArgs p.asking args).on behind).2) := by
          rw [← hAsked _ _ hValue]
        obtain ⟨applied, hApplied⟩ := Link.apply_plain p.registry filterName v l.param p.url
        refine ⟨applied, ((evalArgs p.asking args).on behind).2, ?_, ?_⟩
        · rw [on_filter hValue hArgs hWritable, ← hApplied]
          rfl
        · rw [← hAfter (d := .ok (.plain v)) rfl]
          show _ = (p.registry.apply filterName (.plain v) l.param p.url >>= Datum.written)
          rw [hApplied]
          cases applied <;> rfl

/-- By induction on the chain, the filters are written one behind the other. -/
theorem eval_chain {answer : SelectorQuery → Except String Value}
    (hAnswer : p.surroundings.selectors = some answer) {asked : Pass (Session τ)}
    {deferred : Pass Unit} {e : Expr} (h : SelectorChain p asked deferred e) :
    ∃ name query links, PageName name ∧ SelectorQuery.ofName name = .ok query ∧
      (∀ l ∈ links, l.Sound) ∧ Staged p asked deferred e name query links := by
  induction h with
  | @selector name place hName =>
      obtain ⟨query, hQuery⟩ := hName.query
      exact ⟨name, query, [], hName, hQuery, by simp,
        Staged.selector hAnswer asked deferred place hName hQuery⟩
  | @filter value filterName args values separators parenthesized place _ hFilter hScalar hWritable
      hAsked hDeferred ih =>
      obtain ⟨name, query, links, hName, hQuery, hLinks, hStaged⟩ := ih
      refine ⟨name, query, _, hName, hQuery, ?_,
        hStaged.filter hWritable hAsked hDeferred filterName separators parenthesized place⟩
      exact List.forall_mem_append.mpr ⟨hLinks, List.forall_mem_singleton.mpr
        (sound_link separators parenthesized hFilter hScalar)⟩

/-- The second look finds one placeholder, and applies its filters to what its
head stands for. -/
theorem process_answered {head : String} {links : List Link} (hHead : ChainPart head)
    (hLinks : ∀ l ∈ links, l.Sound) (hOpen : (Prompt.isName head && !p.promptsEnabled) = false)
    {d : Datum} {s s' : Session τ} (hAnswer : p.answer head s = (.ok (some d), s')) :
    p.process (Datum.placeholder (sourceOf head links)) s =
      (Link.applyAll links p.registry p.url d >>= Datum.written, s') := by
  have hParts : ∀ part ∈ head :: links.map Link.text, ChainPart part := by
    refine List.forall_mem_cons.mpr ⟨hHead, fun part hMem => ?_⟩
    obtain ⟨l, hLink, rfl⟩ := List.mem_map.mp hMem
    exact (hLinks l hLink).chainPart
  have hSolid : Solid (sourceOf head links) :=
    solid_intercalate (solid_singleton (c := '|') rfl) fun part hPart => (hParts part hPart).solid
  have hChain : (if String.intercalate "|" (links.map Link.text) = "" then .ok d
      else p.registry.applyChain d (String.intercalate "|" (links.map Link.text)) p.url) =
        Link.applyAll links p.registry p.url d := by
    rw [← Link.applyChain_text hLinks]
    split
    · next hEmpty =>
        rw [hEmpty]
        rfl
    · rfl
  have hReplaced : p.replace (sourceOf head links).toList s =
      (Link.applyAll links p.registry p.url d >>= Datum.written, s') := by
    rw [PostProcessor.replace, String.ofList_toList, hSolid.strip_eq, sourceOf,
      request_intercalate hParts]
    simp only [hOpen, Bool.false_eq_true, if_false, hAnswer, hChain]
    rfl
  have hPieces : Placeholder.pieces (Datum.placeholder (sourceOf head links)).toList =
      [.placeholder (sourceOf head links).toList] :=
    pieces_placeholder fun part hMem => (hParts part hMem).closed
  rw [PostProcessor.process, hPieces, PostProcessor.processPieces, PostProcessor.processPiece,
    hReplaced]
  cases Link.applyAll links p.registry p.url d >>= Datum.written with
  | error f => rfl
  | ok text => simp [PostProcessor.processPieces]

/-- The second look puts the question to the page and applies the filters to
the answer. -/
theorem process_sourceOf {name : String} {query : SelectorQuery} {links : List Link}
    (hName : PageName name) (hQuery : SelectorQuery.ofName name = .ok query)
    (hLinks : ∀ l ∈ links, l.Sound) (s : Session τ) :
    (p.process (Datum.placeholder (sourceOf name links)) s).1 =
      Link.applyAll links p.registry p.url
        (.plain (PostProcessor.select p.surroundings ⟨p.tab, p.url, query⟩ s).1) >>= Datum.written := by
  have hAnswered : p.answer name s =
      (.ok (some (.plain (PostProcessor.select p.surroundings ⟨p.tab, p.url, query⟩ s).1)),
        (PostProcessor.select p.surroundings ⟨p.tab, p.url, query⟩ s).2) := by
    rw [PostProcessor.answer, if_pos hName.isName, hQuery]
  have hOpen : (Prompt.isName name && !p.promptsEnabled) = false := by
    rw [hName.not_prompt, Bool.false_and]
  rw [process_answered hName.chainPart hLinks hOpen hAnswered]

/-- A chain over a selector is no question in words. -/
theorem promptSource?_of_chain {asked : Pass (Session τ)} {deferred : Pass Unit} {e : Expr}
    (h : SelectorChain p asked deferred e) : e.promptSource? = none := by
  have hBase : ∃ name place, e.base = .identifier name place := by
    induction h with
    | @selector name place _ => exact ⟨name, place, rfl⟩
    | filter separators parenthesized place _ _ _ _ _ _ ih =>
        rw [Expr.base]
        exact ih
  obtain ⟨name, place, hBase⟩ := hBase
  rw [Expr.promptSource?, hBase]

/-- An expression alone is rendered as what is printed for it, without a note, unless a
fault stops it. -/
theorem render_alone {context : Context σ} {e : Expr} {vars : Variables} {world : σ}
    {result : Except Fault String} {behind : Pass σ}
    (hPrinted : (printed context e).on { vars, world } = (ofFault result).on behind)
    (hErrors : behind.errors = []) (hPending : behind.pendingTrim = false) (trimOutput : Bool)
    (trim : Trim) (place : Place) : render context trimOutput [.print e trim place] vars world =
      (result.map fun text => ⟨finish trimOutput text, [], behind.deferred⟩, behind.vars,
        behind.world) := by
  have hNode : (renderNode context (.print e trim place)).on { vars, world } =
      (ofFault result).on behind := by
    rw [renderNode, on_guarded, hPrinted]
    cases result <;> rfl
  rw [render]
  cases result with
  | error f =>
      have hNodes : (renderNodes context "" [.print e trim place]).run { vars, world } =
          (.error (.fault f), behind) := by
        show (renderNodes context "" [.print e trim place]).on { vars, world } = _
        rw [renderNodes, Run.on_bind, hNode]
        rfl
      rw [hNodes]
      rfl
  | ok text =>
      have hCut : (cutBehind text).on behind = (.ok text, behind) := by
        rw [on_cutBehind, hPending]
        rfl
      have hNodes : (renderNodes context "" [.print e trim place]).run { vars, world } =
          (.ok text, { behind with pendingTrim := trim.right || behind.pendingTrim }) := by
        show (renderNodes context "" [.print e trim place]).on { vars, world } = _
        rw [renderNodes, Run.on_bind_ok hNode, Run.on_bind_ok hCut,
          Run.on_bind_ok (on_markBehind _ _), renderNodes]
        simp [cutBefore, Node.trim]
      rw [hNodes]
      simp [hErrors, Except.map]

/-- Rendering one expression gives the text of its value, or its fault. -/
theorem render_print {context : Context σ} {e : Expr} {vars : Variables} {world : σ}
    {result : Except Fault Datum} {behind : Pass σ} (hSource : e.promptSource? = none)
    (hEval : (eval context e).on { vars, world } = (ofFault result).on behind) (trimOutput : Bool)
    (trim : Trim) (place : Place) : (render context trimOutput [.print e trim place] vars world).1 =
      (result >>= Datum.written).map fun text => ⟨finish trimOutput text, [], behind.deferred⟩ := by
  obtain ⟨core, hCore⟩ : Detached (eval context e) := eval_detached e
  have hBehind : behind.errors = [] ∧ behind.pendingTrim = false := by
    rw [hCore, on_ofFault, Prod.mk.injEq] at hEval
    rw [← hEval.2]
    exact ⟨rfl, rfl⟩
  have hPrinted : (printed context e).on { vars, world } =
      (ofFault (result >>= Datum.written)).on behind := by
    rw [printed, hSource]
    dsimp only
    rw [Run.on_bind, hEval]
    cases result <;> rfl
  rw [render_alone hPrinted hBehind.1 hBehind.2]

end Evaluating

/-- Nothing is cut off a placeholder. -/
theorem finish_placeholder (trimOutput : Bool) (source : String) :
    finish trimOutput (Datum.placeholder source) = Datum.placeholder source := by
  have hText : (Datum.placeholder source).toList =
      '\x7b' :: (('\x7b' :: (source.toList ++ ['\x7d'])) ++ ['\x7d']) := by
    simp [Datum.placeholder, Value.wrapped]
  cases trimOutput with
  | false => rfl
  | true => exact (solid_between hText rfl rfl).strip_eq

/-- A question to the page with filters behind it may be put at once or left to
the second look. Left in the text, it is rendered as one placeholder; the second
look makes of it the text that is rendered when the question is put at once, and where
the answer cannot be written both end with the same fault. An output whose ends are
trimmed is trimmed before the second look. -/
theorem two_phases_agree {p : PostProcessor} {answer : SelectorQuery → Except String Value}
    (hAnswer : p.surroundings.selectors = some answer) {vars : Variables} {s : Session τ} {e : Expr}
    (hChain : SelectorChain p { vars, world := s } { vars, world := () } e) (trimOutput : Bool)
    (trim : Trim) (place : Place) : ∃ placeholder deferred,
      (render p.deferring trimOutput [.print e trim place] vars ()).1 =
        .ok ⟨placeholder, [], true⟩ ∧
      (render p.asking trimOutput [.print e trim place] vars s).1 =
        (p.process placeholder s).1.map fun text => ⟨finish trimOutput text, [], deferred⟩ := by
  obtain ⟨name, query, links, hName, hQuery, hLinks, hStaged⟩ := eval_chain hAnswer hChain
  obtain ⟨put, hFlag, hPut⟩ := hStaged.deferred
  obtain ⟨result, asked, hAsked, hText⟩ := hStaged.asked
  have hSource := promptSource?_of_chain hChain
  have hWritten : (result.map Datum.plain >>= Datum.written) = result >>= Value.written := by
    cases result <;> rfl
  refine ⟨Datum.placeholder (sourceOf name links), asked.deferred, ?_, ?_⟩
  · have hLeft : (eval p.deferring e).on { vars, world := () } =
        (ofFault (.ok (.deferred (sourceOf name links)))).on put := hPut
    rw [render_print hSource hLeft trimOutput trim place, hFlag]
    show Except.ok (Result.mk (finish trimOutput (Datum.placeholder _)) [] true) = _
    rw [finish_placeholder]
  · rw [render_print hSource hAsked trimOutput trim place, hWritten, hText,
      process_sourceOf hName hQuery hLinks s]

/-- A page with two headlines and a paragraph. -/
def smallPage (query : SelectorQuery) : Except String Value :=
  .ok (if query.selector = "h1" then .arr [.str "a", .str "b"] else .str "x")

/-- A second look that knows this page and a few filters. -/
def smallProcessor : PostProcessor :=
  { surroundings := { selectors := some smallPage }
    registry := Registry.ofList (Filter.letterCase ++ Filter.collections) }

/-- The headlines, joined by a text with a bar and the end of a placeholder. -/
def joinedByText : Expr :=
  .filter (.identifier "selector:h1" ⟨1, 3⟩) "join" [.literal (.text " | \x7d\x7d ") ⟨1, 20⟩] []
    false ⟨1, 15⟩

theorem two_phases_agree_on_braces :
    smallProcessor.surroundings.selectors = some smallPage ∧
    SelectorChain smallProcessor { vars := [], world := ({ now := 0 } : Session Nat) }
      { vars := [], world := () } joinedByText ∧
    ∃ placeholder deferred,
      (render smallProcessor.deferring false [.print joinedByText ⟨false, false⟩ ⟨1, 1⟩] [] ()).1 =
        .ok ⟨placeholder, [], true⟩ ∧
      (render smallProcessor.asking false [.print joinedByText ⟨false, false⟩ ⟨1, 1⟩] []
        ({ now := 0 } : Session Nat)).1 =
          (smallProcessor.process placeholder ({ now := 0 } : Session Nat)).1.map
            fun text => ⟨finish false text, [], deferred⟩ := by
  have hName : PageName "selector:h1" := by
    refine (show SelectorQuery.textMark ++ "h1" = "selector:h1" by decide) ▸ PageName.text ?_ ?_
    · exact List.all_eq_true.mp rfl
    · exact solidEnd_of_forall (by simp [Text.isBlank])
  have hChain : SelectorChain smallProcessor { vars := [], world := ({ now := 0 } : Session Nat) }
      { vars := [], world := () } joinedByText := by
    have hScalar : ∀ v ∈ [Value.str " | \x7d\x7d "], v.isScalar = true :=
      List.forall_mem_singleton.mpr rfl
    exact .filter [] false ⟨1, 15⟩ (.selector ⟨1, 3⟩ hName) rfl hScalar rfl (fun _ _ _ => rfl)
      fun _ _ _ => rfl
  exact ⟨rfl, hChain, two_phases_agree rfl hChain false ⟨false, false⟩ ⟨1, 1⟩⟩

/-- Whether the paragraph is a given text. -/
def comparison : Expr :=
  .binary .equal (.filter (.identifier "selector:p" ⟨1, 21⟩) "trim" [] [] false ⟨1, 32⟩)
    (.literal (.text "x") ⟨1, 40⟩) ⟨1, 37⟩

/-- The headlines, joined by the outcome of the comparison. -/
def joinedByComparison : Expr :=
  .filter (.identifier "selector:h1" ⟨1, 3⟩) "join" [comparison] [] true ⟨1, 15⟩

/-- An argument has to be the same in both cases. One that compares another
question is not: a question without an answer is compared as its placeholder. -/
theorem two_phases_differ_on_comparison :
    ((eval smallProcessor.asking comparison).on
      { vars := [], world := ({ now := 0 } : Session Nat) }).1.map (fun d => (d.kind, d.text)) =
        .ok ("bool", "true") ∧
    ((eval smallProcessor.deferring comparison).on { vars := [], world := () }).1.map
      (fun d => (d.kind, d.text)) = .ok ("bool", "false") ∧
    (render smallProcessor.deferring false [.print joinedByComparison ⟨false, false⟩ ⟨1, 1⟩] []
      ()).1 = .ok ⟨"\x7b\x7bselector:h1|join:(false)\x7d\x7d", [], true⟩ ∧
    (smallProcessor.process "\x7b\x7bselector:h1|join:(false)\x7d\x7d"
      ({ now := 0 } : Session Nat)).1 = .ok "afalseb" ∧
    (render smallProcessor.asking false [.print joinedByComparison ⟨false, false⟩ ⟨1, 1⟩] []
      ({ now := 0 } : Session Nat)).1 = .ok ⟨"atrueb", [], false⟩ := by
  refine ⟨?_, ?_, ?_, ?_, ?_⟩ <;> decide +kernel

end NoteTemplate
