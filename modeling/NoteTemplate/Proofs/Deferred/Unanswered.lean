import NoteTemplate.Command
import NoteTemplate.Proofs.Deferred.SecondLook
import NoteTemplate.Proofs.Render.Frame

/-! Templates for which nobody answers. A resolver that declines whatever it is
asked is as good as none, and a second look without surroundings depends on neither
the tab nor the session. So rendering a template in the program and compiling it
without resolvers come to the same. -/
namespace NoteTemplate

namespace Render

variable {σ ρ : Type} {context : Context σ} {other : Context ρ}

/-- The same pass with the state of another resolver. -/
def Pass.inWorld (pass : Pass σ) (world : ρ) : Pass ρ :=
  ⟨pass.vars, pass.errors, pass.pendingTrim, pass.deferred, world⟩

/-- Two computations that differ in nothing but what becomes of the states of their
resolvers, whatever these are. -/
def SameButWorld {α : Type} (act : Run σ α) (other : Run ρ α) : Prop :=
  ∀ pass world, ∃ behind, other.on (pass.inWorld world) =
    ((act.on pass).1, (act.on pass).2.inWorld behind)

/-- What reads of the pass only what both sides have in common goes on alike. -/
theorem sameButWorld_get {α : Type} {next : Pass σ → Run σ α} {after : Pass ρ → Run ρ α}
    (h : ∀ pass world, SameButWorld (next pass) (after (pass.inWorld world))) :
    SameButWorld (get >>= next) (get >>= after) := by
  intro pass world
  rw [Run.on_bind_ok (Run.on_get pass), Run.on_bind_ok (Run.on_get _)]
  exact h pass world pass world

/-- Passes that differ in their worlds alone are coupled through every composition. -/
theorem sameButWorld_coupling :
    Coupling (fun {α} (act : Run σ α) (other : Run ρ α) => SameButWorld act other) where
  done a := fun _ world => ⟨world, rfl⟩
  faulty result := fun pass world => ⟨world, by rw [on_ofFault, on_ofFault]⟩
  failed message := fun _ world => ⟨world, rfl⟩
  bind {α β act other next after} hAct hNext := by
    intro pass world
    obtain ⟨behind, hOther⟩ := hAct pass world
    rw [Run.on_bind, Run.on_bind, hOther]
    rcases act.on pass with ⟨stop | a, middle⟩
    · exact ⟨behind, rfl⟩
    · exact hNext a middle behind

theorem sameButWorld_vars :
    VarsCoupling (fun {α} (act : Run σ α) (other : Run ρ α) => SameButWorld act other) where
  toCoupling := sameButWorld_coupling
  readVars h := sameButWorld_get fun pass world => h pass (pass.inWorld world) rfl

theorem sameButWorld_steps :
    StepsCoupling (fun {α} (act : Run σ α) (other : Run ρ α) => SameButWorld act other) where
  toCoupling := sameButWorld_coupling
  guarded {act other} describe place hAct := by
    intro pass world
    obtain ⟨behind, hOther⟩ := hAct pass world
    rw [on_guarded, on_guarded, hOther]
    rcases act.on pass with ⟨(message | f) | text, middle⟩ <;> exact ⟨behind, rfl⟩
  turn {body other} iterator length index item hBody := by
    refine sameButWorld_get fun before start pass world => ?_
    obtain ⟨behind, hOther⟩ :=
      hBody { pass with vars := bind before.vars (bindings iterator item index length) } world
    simp only [Pass.inWorld] at hOther
    refine ⟨behind, ?_⟩
    simp only [on_withVariables, Pass.inWorld, hOther]
  readPending h := sameButWorld_get fun pass world => h pass (pass.inWorld world) rfl
  setPending pending := fun _ world => ⟨world, rfl⟩
  assignVar name d := fun _ world => ⟨world, rfl⟩
  cutBehind output := by
    intro pass world
    refine ⟨world, ?_⟩
    simp only [on_cutBehind, Pass.inWorld]
    split <;> rfl
  defer source := fun _ world => ⟨world, rfl⟩

/-- A context in which nobody answers: there is no resolver, or it declines whatever
it is asked. -/
def Context.Declines (context : Context σ) : Prop :=
  ∀ resolver, context.resolver = some resolver →
    ∀ name vars world, ((resolver name vars).run world).1 = .declined

/-- The same context without a resolver. -/
def Context.unasked (context : Context σ) : Context σ := { context with resolver := none }

theorem Context.unasked_fits (context : Context σ) : context.unasked.Fits context :=
  ⟨rfl, rfl, rfl⟩

theorem Context.unasked_declines (context : Context σ) : context.unasked.Declines := by
  rintro _ ⟨⟩

/-- Where nobody answers, every question is put off. -/
theorem on_resolveOutside_of_declines (h : context.Declines) (name : String) (pass : Pass σ) :
    ∃ world, (resolveOutside context name).on pass =
      (.ok (.deferred name), { pass with deferred := true, world }) := by
  rw [on_resolveOutside]
  cases hResolver : context.resolver with
  | none => exact ⟨pass.world, rfl⟩
  | some resolver =>
      have hAnswer := h resolver hResolver name pass.vars pass.world
      rcases hRun : (resolver name pass.vars).run pass.world with ⟨resolution, world⟩
      rw [hRun] at hAnswer
      cases hAnswer
      exact ⟨world, by simp only [hRun]⟩

/-- Rendering is the same in all contexts in which nobody answers. -/
theorem render_of_declines (hFits : context.Fits other) (h : context.Declines)
    (hOther : other.Declines) (trimOutput : Bool) (nodes : List Node) (vars : Variables)
    (a : σ) (b : ρ) : ∃ outcome later first second,
      render context trimOutput nodes vars a = (outcome, later, first) ∧
      render other trimOutput nodes vars b = (outcome, later, second) := by
  have hOutside (name : String) :
      SameButWorld (resolveOutside context name) (resolveOutside other name) := by
    intro pass world
    obtain ⟨first, hFirst⟩ := on_resolveOutside_of_declines h name pass
    obtain ⟨second, hSecond⟩ := on_resolveOutside_of_declines hOther name (pass.inWorld world)
    exact ⟨second, by rw [hFirst, hSecond]; rfl⟩
  have hEval (e : Expr) : SameButWorld (eval context e) (eval other e) :=
    sameButWorld_coupling.eval hFits e fun o _ => sameButWorld_vars.evalName hOutside o.1
  have hNodes := sameButWorld_steps.nodes "" nodes (Node.allNodes_of_forall hEval nodes)
  obtain ⟨second, hSecond⟩ := hNodes { vars, world := a } b
  have hRun : (renderNodes other "" nodes).run { vars, world := b } =
      (((renderNodes context "" nodes).on { vars, world := a }).1,
        ((renderNodes context "" nodes).on { vars, world := a }).2.inWorld second) := hSecond
  refine ⟨_, _, _, second, rfl, ?_⟩
  simp only [render, hRun]
  rfl

end Render

variable {τ : Type} [LE τ] [DecidableLE τ] [Add τ] [OfNat τ 0]

namespace PostProcessor

variable {p : PostProcessor}

/-- Without surroundings the answer to a placeholder depends on neither the tab nor the
session, which stays as it is. -/
theorem answer_unanswered (h : p.surroundings = {}) (head : String) :
    ∃ found, ∀ (tab : Option Int) (s : Session τ), answer { p with tab } head s = (found, s) := by
  simp only [answer, prompt, select, h]
  split
  · cases SelectorQuery.ofName head with
    | ok query => exact ⟨_, fun _ _ => rfl⟩
    | error f => exact ⟨_, fun _ _ => rfl⟩
  · split
    · exact ⟨_, fun _ _ => rfl⟩
    · split
      · cases Prompt.ofName? head <;> exact ⟨.ok none, fun _ _ => rfl⟩
      · exact ⟨_, fun _ _ => rfl⟩

/-- Without surroundings nothing in a placeholder depends on the session. -/
theorem replace_unanswered (h : p.surroundings = {}) (body : List Char) :
    ∃ text, ∀ (tab : Option Int) (s : Session τ), replace { p with tab } body s = (text, s) := by
  obtain ⟨found, hAnswer⟩ := answer_unanswered (τ := τ) h
    (Placeholder.request (Text.strip (String.ofList body))).head
  simp only [replace, hAnswer]
  split
  · exact ⟨_, fun _ _ => rfl⟩
  · rcases found with f | _ | d <;> exact ⟨_, fun _ _ => rfl⟩

/-- Piece by piece. -/
theorem processPieces_unanswered (h : p.surroundings = {}) (pieces : List Placeholder.Piece) :
    ∃ text, ∀ (tab : Option Int) (s : Session τ),
      processPieces { p with tab } s pieces = (text, s) := by
  induction pieces with
  | nil => exact ⟨_, fun _ _ => rfl⟩
  | cons piece rest ih =>
      obtain ⟨later, hRest⟩ := ih
      have hPiece : ∃ first, ∀ (tab : Option Int) (s : Session τ),
          processPiece { p with tab } s piece = (first, s) := by
        cases piece with
        | char c => exact ⟨.ok (String.ofList [c]), fun tab s => by rw [processPiece]⟩
        | placeholder body => simpa only [processPiece] using replace_unanswered h body
      obtain ⟨first, hFirst⟩ := hPiece
      cases first with
      | error f => exact ⟨.error f, fun tab s => by rw [processPieces, hFirst]⟩
      | ok text =>
          cases later with
          | error f => exact ⟨.error f, fun tab s => by simp only [processPieces, hFirst, hRest]⟩
          | ok after => exact ⟨.ok (text ++ after), fun tab s => by
              simp only [processPieces, hFirst, hRest]⟩

theorem process_unanswered (h : p.surroundings = {}) (text : String) :
    ∃ output, ∀ (tab : Option Int) (s : Session τ), process { p with tab } text s = (output, s) :=
  processPieces_unanswered h _

end PostProcessor

namespace Engine

open Render (Context Result)

omit [LE τ] [DecidableLE τ] [Add τ] [OfNat τ 0] in
/-- An engine renders a template alike in all contexts in which nobody answers. -/
theorem render_of_declines (engine : Engine τ) {σ ρ : Type} {context : Context σ}
    {other : Context ρ} (hFits : context.Fits other) (h : context.Declines)
    (hOther : other.Declines) (text : String) (vars : Variables) (a : σ) (b : ρ) :
    ∃ result later first second behind,
      engine.render context text vars a = (result, later, first, behind) ∧
      engine.render other text vars b = (result, later, second, behind) := by
  simp only [render]
  rcases engine.parse text with ⟨f | template, behind⟩
  · exact ⟨_, _, _, _, _, rfl, rfl⟩
  · dsimp only
    split
    · obtain ⟨outcome, later, first, second, hFirst, hSecond⟩ := Render.render_of_declines hFits
        h hOther behind.config.trimOutput template.nodes vars a b
      rw [hFirst, hSecond]
      exact ⟨_, _, _, _, _, rfl, rfl⟩
    · exact ⟨_, _, _, _, _, rfl, rfl⟩

/-- A fault of rendering is one of compiling. -/
theorem compile_of_fault {engine : Engine τ} {surroundings : Surroundings} {text : String}
    {vars : Variables} {url : String} {tab : Option Int} {f : Fault}
    (h : (engine.render (engine.pageContext surroundings url tab) text vars engine.session).1 =
      .error f) : (engine.compile surroundings text vars url tab).1.output = .error f := by
  rw [pageContext] at h
  rw [compile]
  dsimp only at h ⊢
  rw [h]

/-- Without surroundings the page is not asked. -/
theorem pageContext_declines (engine : Engine τ) (url : String) (tab : Option Int) :
    (engine.pageContext {} url tab).Declines := by
  rintro _ ⟨⟩ name vars s
  rfl

end Engine

namespace Command

open Render (Context)

/-- What the program gives is the outcome of the rendering in compiling, with the
output of compiling. -/
theorem renderIn_eq (engine : Engine τ) {url : String} (hUrl : stripTextFragment url = url)
    (text : String) (vars : Variables) (tab : Option Int) :
    renderIn engine text vars url = (do
      let result ← (engine.render (engine.pageContext {} url tab) text vars engine.session).1
      let output ← (engine.compile {} text vars url tab).1.output
      return { result with output }) := by
  have hAddress : (if engine.config.stripTextFragment then stripTextFragment url else url) = url := by
    rw [hUrl, ite_self]
  have hFits : Context.Fits (engine.context url : Context Unit) (engine.pageContext {} url tab) :=
    ⟨hAddress.symm, rfl, rfl⟩
  have hNone : Context.Declines (engine.context url : Context Unit) := by rintro _ ⟨⟩
  obtain ⟨result, later, first, second, behind, hFirst, hSecond⟩ := engine.render_of_declines hFits
    hNone (engine.pageContext_declines url tab) text vars () engine.session
  simp only [Engine.pageContext, hAddress] at hSecond ⊢
  simp only [renderIn, hFirst, Engine.compile, hAddress, hSecond]
  rcases result with f | ⟨shown, errors, deferred⟩
  · rfl
  · obtain ⟨output, hOutput⟩ := PostProcessor.process_unanswered (τ := τ)
      (p := behind.postProcessor {} later url none) rfl shown
    have hHere := hOutput none behind.session
    have hThere := hOutput tab second
    simp only [Engine.postProcessor] at hHere hThere ⊢
    cases deferred with
    | false => rfl
    | true =>
        simp only [bind, Except.bind, hHere, hThere]
        rfl

/-- Without surroundings rendering a template in the program gives what compiling it
gives, with the mistakes noted by the rendering in it. In particular a resolver that
declines whatever it is asked makes no difference to rendering any parts. -/
theorem renderIn_agrees_with_compile (engine : Engine τ) {url : String}
    (hUrl : stripTextFragment url = url) (text : String) (vars : Variables) (tab : Option Int) :
    (renderIn engine text vars url).map (·.output) =
        (engine.compile {} text vars url tab).1.output ∧
      (∀ r, renderIn engine text vars url = .ok r → ∃ r',
        (engine.render (engine.pageContext {} url tab) text vars engine.session).1 = .ok r' ∧
          r.errors = r'.errors ∧ r.deferred = r'.deferred) ∧
      ∀ {σ : Type} {context : Context σ}, context.Declines →
        ∀ trimOutput nodes vars world,
          (Render.render context.unasked trimOutput nodes vars world).1 =
              (Render.render context trimOutput nodes vars world).1 ∧
            (Render.render context.unasked trimOutput nodes vars world).2.1 =
              (Render.render context trimOutput nodes vars world).2.1 := by
  rw [renderIn_eq engine hUrl text vars tab]
  refine ⟨?_, ?_, ?_⟩
  · cases hRender : (engine.render (engine.pageContext {} url tab) text vars engine.session).1 with
    | error f =>
        rw [Engine.compile_of_fault hRender]
        rfl
    | ok r => cases (engine.compile {} text vars url tab).1.output <;> rfl
  · intro r h
    cases hRender : (engine.render (engine.pageContext {} url tab) text vars engine.session).1 with
    | error f =>
        rw [hRender] at h
        cases h
    | ok r' =>
        rw [hRender] at h
        cases hOutput : (engine.compile {} text vars url tab).1.output with
        | error f =>
            rw [hOutput] at h
            cases h
        | ok output =>
            rw [hOutput] at h
            cases h
            exact ⟨r', rfl, rfl, rfl⟩
  · intro σ context h trimOutput nodes vars world
    obtain ⟨outcome, later, _, _, hFirst, hSecond⟩ := Render.render_of_declines
      context.unasked_fits context.unasked_declines h trimOutput nodes vars world world
    rw [hFirst, hSecond]
    exact ⟨rfl, rfl⟩

/-- A template with a question to the page, a name, a mistake and a question in words. -/
def unansweredText : String :=
  "\x7b\x7bselector:h1|upper\x7d\x7d by \x7b\x7bauthor|upper\x7d\x7d\x7b% for a in author %\x7d" ++
    "\x7b% endfor %\x7d: \x7b\x7b\"a summary\"\x7d\x7d"

def unansweredVars : Variables := [(.text "author", .plain (.str "ann"))]

/-- A context whose resolver counts what it is asked and declines it. -/
def countingContext : Context Nat :=
  { resolver := some fun _ _ => do
      set ((← get) + 1)
      return .declined }

/-- A question to the page. -/
def askingNodes : List Node :=
  [.print (.identifier "selector:h1" ⟨1, 4⟩) ⟨false, false⟩ ⟨1, 1⟩]

theorem renderIn_agrees_with_compile_counting :
    let engine : Engine Nat := .new {} Filter.standard 0
    let mistake : Render.RenderError :=
      ⟨"For loop iterable is not an array: str", some ⟨1, 42⟩⟩
    stripTextFragment "https://a.b" = "https://a.b" ∧
      renderText {} unansweredText unansweredVars "https://a.b" =
        .ok ⟨" by ANN: \x7b\x7b\"a summary\"\x7d\x7d", [mistake], true⟩ ∧
      (engine.compile {} unansweredText unansweredVars "https://a.b" (some 7)).1.output =
        .ok " by ANN: \x7b\x7b\"a summary\"\x7d\x7d" ∧
      (∃ r, (engine.render (engine.pageContext {} "https://a.b" (some 7)) unansweredText
        unansweredVars engine.session).1 = .ok r ∧ [mistake] = r.errors ∧ true = r.deferred) ∧
      countingContext.Declines ∧
      (Render.render countingContext.unasked false askingNodes [] 0).1 =
        (Render.render countingContext false askingNodes [] 0).1 ∧
      (Render.render countingContext false askingNodes [] 0).2.2 = 1 := by
  have hUrl : stripTextFragment "https://a.b" = "https://a.b" := by decide +kernel
  have hRun : renderText {} unansweredText unansweredVars "https://a.b" =
      .ok ⟨" by ANN: \x7b\x7b\"a summary\"\x7d\x7d",
        [⟨"For loop iterable is not an array: str", some ⟨1, 42⟩⟩], true⟩ := by decide +kernel
  have hDeclines : countingContext.Declines := by
    rintro _ ⟨⟩ name vars world
    rfl
  obtain ⟨hOutput, hErrors, hUnasked⟩ := renderIn_agrees_with_compile
    (Engine.new {} Filter.standard 0 : Engine Nat) hUrl unansweredText unansweredVars (some 7)
  refine ⟨hUrl, hRun, ?_, hErrors _ hRun, hDeclines, (hUnasked hDeclines false askingNodes [] 0).1,
    rfl⟩
  rw [← hOutput]
  exact congrArg (Except.map (·.output)) hRun

end Command

end NoteTemplate
