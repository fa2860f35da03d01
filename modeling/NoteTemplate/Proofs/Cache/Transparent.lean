import NoteTemplate.Engine
import NoteTemplate.Proofs.Cache.PageAnswers
import NoteTemplate.Proofs.Cache.Recency

/-! What an engine keeps is not seen from outside. Every template that it keeps is
what parsing the text gives, and every answer is that of the page, so it makes no
difference which of them are kept, and for how long. -/
namespace NoteTemplate

variable {τ : Type} {page : PageKey → Except String Value}

namespace Engine

open Render (Context Result)

variable {σ : Type}

/-- Two engines with the same filters, settings and room, where what either keeps is
true. How much they keep, for how long, and what time it is may differ. -/
structure Alike (page : PageKey → Except String Value) (e f : Engine τ) : Prop where
  registry : e.registry = f.registry
  room : e.room = f.room
  config : ∃ size ttl, f.config = { e.config with parseCacheSize := size, resolverCacheTtl := ttl }
  parsed : e.parsed.Truthful (Template.parse e.room) ∧ f.parsed.Truthful (Template.parse f.room)
  answers : e.answers.Truthful page ∧ f.answers.Truthful page

/-- The address of a page as its questions and links see it. -/
def address (engine : Engine τ) (url : String) : String :=
  if engine.config.stripTextFragment then stripTextFragment url else url

variable {e f : Engine τ}

theorem Alike.address_eq (h : e.Alike page f) (url : String) : e.address url = f.address url := by
  obtain ⟨size, ttl, hConfig⟩ := h.config
  rw [address, address, hConfig]

theorem Alike.context_eq (h : e.Alike page f) (url : String)
    (resolver : Option (Render.Resolver σ)) : f.context url resolver = e.context url resolver := by
  rw [context, context, h.registry]

theorem Alike.session (h : e.Alike page f) : e.session.Alike page f.session := by
  refine ⟨rfl, ?_, ?_⟩
  · rintro _ ⟨⟩
    exact h.answers.1
  · rintro _ ⟨⟩
    exact h.answers.2

/-- Engines stay alike when they take over alike sessions. -/
theorem Alike.keep (h : e.Alike page f) {s t : Session τ} (hSession : s.Alike page t) :
    (e.keep s).Alike page (f.keep t) := by
  have hKept {engine : Engine τ} {s : Session τ} (hEngine : engine.answers.Truthful page)
      (hSession : s.Truthful page) : (s.cache.getD engine.answers).Truthful page := by
    cases hCache : s.cache with
    | none => exact hEngine
    | some cache => exact hSession cache hCache
  exact ⟨h.registry, h.room, h.config, h.parsed, hKept h.answers.1 hSession.left,
    hKept h.answers.2 hSession.right⟩

/-- A template is parsed alike, kept or not. -/
theorem parse_uniform (text : String) : Uniform (Alike (τ := τ) page) (parse · text) := by
  intro e f h
  have hFirst := h.parsed.1.get text
  have hSecond := h.parsed.2.get text
  simp only [parse]
  generalize e.parsed.get (Template.parse e.room) text = first,
    f.parsed.get (Template.parse f.room) text = second at hFirst hSecond
  obtain ⟨template, parsed⟩ := first
  obtain ⟨other, kept⟩ := second
  obtain ⟨rfl, hParsed⟩ := hFirst
  obtain ⟨rfl, hKept⟩ := hSecond
  have hSame : Template.parse f.room = Template.parse e.room := by rw [h.room]
  rw [hSame]
  exact .intro _ ⟨h.registry, h.room, h.config, ⟨hParsed, hKept⟩, h.answers⟩

/-- Rendering with a resolver of any kind. -/
theorem render_alike (h : e.Alike page f) {context : Context σ} {R : σ → σ → Prop}
    (hRespects : context.Respects Eq R) (text : String) (vars : Variables) {a b : σ} (hWorld : R a b) :
    ∃ result later first second e' f',
      e.render context text vars a = (result, later, first, e') ∧
      f.render context text vars b = (result, later, second, f') ∧ R first second ∧
      e'.Alike page f' := by
  have hAgree : Agree (Alike page) (e.parse text) (f.parse text) := parse_uniform text e f h
  simp only [render]
  generalize e.parse text = first, f.parse text = second at hAgree
  cases hAgree with
  | @intro outcome e f hBehind =>
      cases outcome with
      | error fault => exact ⟨_, _, _, _, _, _, rfl, rfl, hWorld, hBehind⟩
      | ok template =>
          dsimp only
          split
          · obtain ⟨size, ttl, hConfig⟩ := hBehind.config
            rw [hConfig]
            obtain ⟨result, later, first, second, hFirst, hSecond, hLast⟩ :=
              Render.render_parametric hRespects e.config.trimOutput template.nodes vars hWorld
            rw [hFirst, hSecond]
            exact ⟨_, _, _, _, _, _, rfl, rfl, hLast, hBehind⟩
          · exact ⟨_, _, _, _, _, _, rfl, rfl, hWorld, hBehind⟩

/-- Without a page to ask, even unlike states of the answers give one text. -/
theorem renderText_uniform (text : String) (vars : Variables) (url : String) :
    Uniform (Alike (τ := τ) page) (renderText · text vars url) := by
  intro e f h
  have hRespects : (e.context url : Context Unit).Respects Eq Eq := by rintro _ ⟨⟩
  obtain ⟨result, later, _, _, e', f', hFirst, hSecond, -, hBehind⟩ :=
    render_alike h hRespects text vars (rfl : () = ())
  simp only [renderText, h.context_eq, hFirst, hSecond]
  exact .intro _ hBehind

section

variable [LE τ] [DecidableLE τ] [Add τ] [OfNat τ 0]

/-- The page is asked alike while a template is rendered. -/
theorem pageResolver_respects (engine : Engine τ) {surroundings : Surroundings} {tab : Option Int}
    {url : String} (hShows : surroundings.Shows page tab url) :
    (engine.context url (some (pageResolver surroundings tab url))).Respects Eq
      (Session.Alike (τ := τ) page) := by
  rintro _ ⟨⟩ name vars _ rfl s t h
  simp only [pageResolver]
  split
  · cases SelectorQuery.ofName name with
    | error f => exact .intro _ h
    | ok query =>
        have hAgree := PostProcessor.select_uniform hShows query s t h
        generalize hFirst : PostProcessor.select surroundings ⟨tab, url, query⟩ s = first,
          hSecond : PostProcessor.select surroundings ⟨tab, url, query⟩ t = second at hAgree
        cases hAgree with
        | intro v hBehind =>
            simp only [StateT.run_bind, StateT.run_get, pure_bind, hFirst, hSecond]
            exact .intro _ hBehind
  · exact .intro _ h

/-- A template is compiled alike. Only the questions to the page may differ. -/
theorem compile_alike (h : e.Alike page f) {surroundings : Surroundings} {tab : Option Int}
    {url : String} (hShows : surroundings.Shows page tab (e.address url)) (text : String)
    (vars : Variables) : ∃ output prompts asked other e' f',
      e.compile surroundings text vars url tab = (⟨output, asked, prompts⟩, e') ∧
      f.compile surroundings text vars url tab = (⟨output, other, prompts⟩, f') ∧ e'.Alike page f' := by
  have hRespects := pageResolver_respects e hShows
  obtain ⟨result, later, s, t, e', f', hFirst, hSecond, hSession, hBehind⟩ :=
    render_alike h hRespects text vars h.session
  simp only [compile]
  rw [← address, ← address, ← h.address_eq, h.context_eq, hFirst, hSecond]
  cases result with
  | error fault =>
      rw [hSession.prompts]
      exact ⟨_, _, _, _, _, _, rfl, rfl, hBehind.keep hSession⟩
  | ok result =>
      dsimp only
      split
      · have hProcessor : f'.postProcessor surroundings later (e.address url) tab =
            e'.postProcessor surroundings later (e.address url) tab := by
          obtain ⟨size, ttl, hConfig⟩ := hBehind.config
          rw [postProcessor, postProcessor, hBehind.registry, hConfig]
        have hCouples : PostProcessor.Couples (e'.postProcessor surroundings later (e.address url) tab)
            (Session.Alike (τ := τ) page) := PostProcessor.couples_alike hShows
        have hAgree := PostProcessor.process_uniform hCouples result.output s t hSession
        rw [hProcessor]
        generalize PostProcessor.process _ result.output s = first,
          PostProcessor.process _ result.output t = second at hAgree
        cases hAgree with
        | intro output hLast =>
            dsimp only
            rw [hLast.prompts]
            exact ⟨_, _, _, _, _, _, rfl, rfl, hBehind.keep hLast⟩
      · rw [hSession.prompts]
        exact ⟨_, _, _, _, _, _, rfl, rfl, hBehind.keep hSession⟩

/-! Calls to one engine. -/

/-- What an engine is asked to do. -/
inductive Call (τ σ : Type) where
  | parse (text : String)
  /-- In a context of its own, or in one under a name, which is made at the first use
  and goes on with its variables at later ones. A context may have the filters of the
  engine, with those that were registered since it was made. -/
  | render (name : Option String) (context : Registry → Context σ) (vars : Variables) (text : String)
  | renderText (text : String) (vars : Variables) (url : String)
  | compile (text : String) (vars : Variables) (url : String) (tab : Option Int) (asksPage : Bool)
      (prompts : Option (String → Variables → Except String Datum))
  | register (filter : Filter)
  | invalidate
  | advance (duration : τ)

/-- What is seen of a call. -/
inductive Outcome (σ : Type) where
  | parsed (template : Except Fault Template)
  | rendered (result : Except Fault Result) (vars : Variables) (world : σ)
  | text (output : Except Fault String)
  | compiled (output : Except Fault String) (prompts : List String)
  | done

/-- An engine in use, with the contexts under names and the state of the resolvers
that contexts have. -/
structure Desk (τ σ : Type) where
  engine : Engine τ
  contexts : Assoc String ((Registry → Context σ) × Variables) := []
  world : σ

/-- What the page in a tab at an address answers to a question. An answer may fail. -/
abbrev Pages := Option Int → String → SelectorQuery → Except String Value

/-- The answer of the pages that is kept under a key. -/
def Pages.under (pages : Pages) (key : PageKey) : Except String Value :=
  pages key.tab key.url key.query

/-- Surroundings in which the page in a tab at an address may be asked. -/
def surroundings (pages : Pages) (tab : Option Int) (url : String) (asksPage : Bool)
    (prompts : Option (String → Variables → Except String Datum)) : Surroundings :=
  { selectors := if asksPage then some (pages tab url) else none, prompts }

/-- What is seen of a call, and the engine in use behind it. -/
def Desk.call (pages : Pages) (desk : Desk τ σ) :
    Call τ σ → Outcome σ × Desk τ σ
  | .parse text =>
    let (template, engine) := desk.engine.parse text
    (.parsed template, { desk with engine })
  | .render name context vars text =>
    let (context, vars) := (name.bind (Assoc.get? desk.contexts)).getD (context, vars)
    let (result, vars, world, engine) :=
      desk.engine.render (context desk.engine.registry) text vars desk.world
    let contexts := match name with
      | some name => Assoc.set desk.contexts name (context, vars)
      | none => desk.contexts
    (.rendered result vars world, ⟨engine, contexts, world⟩)
  | .renderText text vars url =>
    let (output, engine) := desk.engine.renderText text vars url
    (.text output, { desk with engine })
  | .compile text vars url tab asksPage prompts =>
    let surroundings := surroundings pages tab (desk.engine.address url) asksPage prompts
    let (compiled, engine) := desk.engine.compile surroundings text vars url tab
    (.compiled compiled.output compiled.prompts, { desk with engine })
  | .register filter => (.done, { desk with engine := desk.engine.register filter })
  | .invalidate => (.done, { desk with engine := desk.engine.invalidate })
  | .advance duration => (.done, { desk with engine := desk.engine.advance duration })

/-- What is seen of some calls in a row. -/
def Desk.outcomes (pages : Pages) (desk : Desk τ σ) : List (Call τ σ) → List (Outcome σ)
  | [] => []
  | call :: rest => (desk.call pages call).1 :: outcomes pages (desk.call pages call).2 rest

variable {pages : Pages}

/-- Two engines in use that differ in nothing but what they keep. -/
structure Desk.Alike (pages : Pages) (a b : Desk τ σ) : Prop where
  engine : a.engine.Alike pages.under b.engine
  contexts : a.contexts = b.contexts
  world : a.world = b.world

/-- What an engine sees of a page is what the page shows at that address. -/
theorem surroundings_shows (pages : Pages) (tab : Option Int) (url : String) (asksPage : Bool)
    (prompts : Option (String → Variables → Except String Datum)) :
    (surroundings pages tab url asksPage prompts).Shows pages.under tab url := by
  intro answer hSelectors query
  cases asksPage with
  | true =>
      cases hSelectors
      rfl
  | false => cases hSelectors

/-- Of one call the same is seen, and the engines are alike behind it. -/
theorem Desk.call_uniform (call : Call τ σ) :
    Uniform (Desk.Alike pages) fun desk : Desk τ σ => desk.call pages call := by
  rintro ⟨e, contexts, world⟩ ⟨f, _, _⟩ ⟨h, rfl, rfl⟩
  cases call with
  | parse text =>
      have hAgree : Agree (Engine.Alike pages.under) (e.parse text) (f.parse text) :=
        parse_uniform text e f h
      simp only [Desk.call]
      generalize e.parse text = first, f.parse text = second at hAgree
      cases hAgree with
      | intro template hBehind => exact .intro _ ⟨hBehind, rfl, rfl⟩
  | render name context vars text =>
      simp only [Desk.call]
      generalize (name.bind (Assoc.get? contexts)).getD (context, vars) = used
      obtain ⟨context, vars⟩ := used
      have hRespects : (context e.registry).Respects Eq Eq := by
        rintro resolver - name vars _ rfl a b rfl
        exact .intro _ rfl
      obtain ⟨result, later, _, _, e', f', hFirst, hSecond, rfl, hBehind⟩ :=
        render_alike h hRespects text vars (rfl : world = world)
      dsimp only
      rw [← h.registry, hFirst, hSecond]
      exact .intro _ ⟨hBehind, rfl, rfl⟩
  | renderText text vars url =>
      have hAgree : Agree (Engine.Alike pages.under) (e.renderText text vars url)
          (f.renderText text vars url) := renderText_uniform text vars url e f h
      simp only [Desk.call]
      generalize e.renderText text vars url = first, f.renderText text vars url = second at hAgree
      cases hAgree with
      | intro output hBehind => exact .intro _ ⟨hBehind, rfl, rfl⟩
  | compile text vars url tab asksPage prompts =>
      have hShows := surroundings_shows pages tab (e.address url) asksPage prompts
      obtain ⟨output, asked, _, _, e', f', hFirst, hSecond, hBehind⟩ :=
        compile_alike h hShows text vars
      simp only [Desk.call]
      rw [← h.address_eq, hFirst, hSecond]
      exact .intro _ ⟨hBehind, rfl, rfl⟩
  | register filter =>
      have hRegistry : (e.register filter).registry = (f.register filter).registry :=
        congrArg (·.register filter) h.registry
      exact .intro _ ⟨⟨hRegistry, h.room, h.config, h.parsed, h.answers⟩, rfl, rfl⟩
  | invalidate =>
      have hParsed {engine : Engine τ} :
          engine.invalidate.parsed.Truthful (Template.parse engine.room) :=
        List.forall_mem_nil _
      have hAnswers {engine : Engine τ} : engine.invalidate.answers.Truthful pages.under :=
        ExpiringCache.truthful_of_empty rfl
      exact .intro _
        ⟨⟨h.registry, h.room, h.config, ⟨hParsed, hParsed⟩, hAnswers, hAnswers⟩, rfl, rfl⟩
  | advance duration =>
      exact .intro _ ⟨⟨h.registry, h.room, h.config, h.parsed, h.answers⟩, rfl, rfl⟩

/-- By induction on the calls, the first one first. -/
theorem Desk.outcomes_eq {a b : Desk τ σ} (h : a.Alike pages b) (calls : List (Call τ σ)) :
    a.outcomes pages calls = b.outcomes pages calls := by
  induction calls generalizing a b with
  | nil => rfl
  | cons call rest ih =>
      have hAgree : Agree (Desk.Alike pages) (a.call pages call) (b.call pages call) :=
        Desk.call_uniform call a b h
      rw [Desk.outcomes, Desk.outcomes]
      generalize a.call pages call = first, b.call pages call = second at hAgree
      cases hAgree with
      | intro outcome hBehind => exact congrArg _ (ih hBehind)

omit [LE τ] [DecidableLE τ] [Add τ] in
/-- New engines with the same filters and settings are alike, whatever they keep
and for how long. -/
theorem new_alike (page : PageKey → Except String Value) (config : Config) (size : Nat)
    (seconds : Float) (registry : Registry) (ttl other : τ) (room : Nat) :
    (new config registry ttl room).Alike page
      (new { config with parseCacheSize := size, resolverCacheTtl := seconds } registry other room)
    where
  registry := rfl
  room := rfl
  config := ⟨size, seconds, rfl⟩
  parsed := ⟨List.forall_mem_nil _, List.forall_mem_nil _⟩
  answers := ⟨ExpiringCache.truthful_of_empty rfl, ExpiringCache.truthful_of_empty rfl⟩

/-- Whatever calls are made to an engine, of each the same is seen as if nothing were
kept. The pages may differ from tab to tab and from address to address; pages that
are the same everywhere look at the question alone. -/
theorem outcomes_eq_without_caches (pages : Pages) (config : Config) (registry : Registry) (ttl : τ)
    (room : Nat) (world : σ) (calls : List (Call τ σ)) :
    Desk.outcomes pages { engine := new config registry ttl room, world } calls =
      let settings := { config with parseCacheSize := 0, resolverCacheTtl := 0 }
      Desk.outcomes pages { engine := new settings registry (0 : τ) room, world } calls := by
  have hDesks := new_alike pages.under config 0 0 registry ttl 0 room
  refine Desk.outcomes_eq ?_ calls
  exact ⟨hDesks, rfl, rfl⟩

end

end Engine

end NoteTemplate
