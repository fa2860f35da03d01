import NoteTemplate.Cache.Parse
import NoteTemplate.Config
import NoteTemplate.PostProcess
import NoteTemplate.Render
import NoteTemplate.Template

/-!
The template engine: parsing with a cache, rendering, and the second look through the rendered text.
-/

namespace NoteTemplate

/-- The page address without the fragment that highlights text in it. -/
def stripTextFragment (url : String) : String :=
  match cut? url.toList with
  | some kept => String.ofList kept
  | none => url
where
  /-- The text of the fragment behind its mark: at least one character, up to and with the next
  ampersand. -/
  behind? (cs : List Char) : Option (List Char) :=
    match cs.takeWhile (· ≠ '&'), cs.dropWhile (· ≠ '&') with
    | [], _ => none
    | _, '&' :: rest => some rest
    | _, rest => some rest
  /-- The address before the first fragment and behind it. -/
  cut? : List Char → Option (List Char)
    | [] => none
    | c :: rest =>
      match (Text.dropPrefix? "#:~:text=".toList (c :: rest)).bind behind? with
      | some after => some after
      | none => (cut? rest).map (c :: ·)

/-- An engine with its caches. Times are of any ordered kind with addition. -/
structure Engine (τ : Type) where
  config : Config
  registry : Registry
  /-- The room for expressions inside of expressions. -/
  room : Nat
  parsed : ParseCache Template
  answers : ExpiringCache τ PageKey Value
  now : τ

namespace Engine

open Render (Context RenderError Resolution Result)

variable {τ : Type} [LE τ] [DecidableLE τ] [Add τ] [OfNat τ 0]

/-- An engine with empty caches. -/
def new (config : Config) (registry : Registry) (ttl : τ) (room : Nat := Template.usualRoom) :
    Engine τ :=
  ⟨config, registry, room, { capacity := config.parseCacheSize }, { ttl }, 0⟩

def parse (engine : Engine τ) (text : String) : Except Fault Template × Engine τ :=
  let (template, parsed) := engine.parsed.get (Template.parse engine.room) text
  (template, { engine with parsed })

/-- Forget everything that is kept. -/
def invalidate (engine : Engine τ) : Engine τ :=
  { engine with parsed := engine.parsed.invalidate, answers := engine.answers.clear }

/-- Let time pass. -/
def advance (engine : Engine τ) (duration : τ) : Engine τ := { engine with now := engine.now + duration }

def register (engine : Engine τ) (filter : Filter) : Engine τ :=
  { engine with registry := engine.registry.register filter }

/-- A mistake of a template as a mistake of rendering. -/
def refusal (e : TemplateError) : RenderError := ⟨e.message, some ⟨e.line, e.column⟩⟩

/-- What this engine gives a pass, with the filters it has. -/
def context {σ : Type} (engine : Engine τ) (url : String)
    (resolver : Option (Render.Resolver σ) := none) : Context σ :=
  { url, resolver, registry := engine.registry }

/-- Render a template with variables. A template with mistakes gives no text. -/
def render {σ : Type} (engine : Engine τ) (context : Context σ) (text : String)
    (vars : Variables) (world : σ) : Except Fault Result × Variables × σ × Engine τ :=
  match engine.parse text with
  | (.error f, engine) => (.error f, vars, world, engine)
  | (.ok template, engine) =>
    if template.ok then
      let (result, vars, world) :=
        Render.render context engine.config.trimOutput template.nodes vars world
      (result, vars, world, engine)
    else (.ok ⟨"", template.errors.map refusal, false⟩, vars, world, engine)

/-- The text of a template alone. The given variables stay as they are. -/
def renderText (engine : Engine τ) (text : String) (vars : Variables) (url : String) :
    Except Fault String × Engine τ :=
  let (result, _, _, engine) := engine.render (engine.context url) text vars ()
  (result.map (·.output), engine)

/-- The session in which this engine puts questions to the surroundings. -/
def session (engine : Engine τ) : Session τ := { now := engine.now, cache := some engine.answers }

/-- The engine behind a session. -/
def keep (engine : Engine τ) (s : Session τ) : Engine τ :=
  { engine with answers := s.cache.getD engine.answers }

/-- The resolver that asks the page while a template is rendered. A page without an answer gives an
empty text. -/
def pageResolver (surroundings : Surroundings) (tab : Option Int) (url : String) :
    Render.Resolver (Session τ) := fun name _ => do
  if surroundings.selectors.isSome && SelectorQuery.isName name then
    match SelectorQuery.ofName name with
    | .ok query =>
      let (v, s) := PostProcessor.select surroundings ⟨tab, url, query⟩ (← get)
      set s
      return .value (if v.isNull then .str "" else v)
    | .error f => return .failed f.message
  else return .declined

/-- The second look of this engine. -/
def postProcessor (engine : Engine τ) (surroundings : Surroundings) (vars : Variables)
    (url : String) (tab : Option Int) : PostProcessor :=
  { surroundings, registry := engine.registry, promptsEnabled := engine.config.promptsEnabled,
    vars, url, tab }

/-- What compiling a template gives. -/
structure Compiled where
  output : Except Fault String
  queries : List SelectorQuery
  prompts : List String

/-- Render a template and, if something was put off, look through the text a second time. -/
def compile (engine : Engine τ) (surroundings : Surroundings) (text : String)
    (vars : Variables) (url : String) (tab : Option Int) : Compiled × Engine τ :=
  let url := if engine.config.stripTextFragment then stripTextFragment url else url
  let context := engine.context url (some (pageResolver surroundings tab url))
  let (result, vars, s, engine) := engine.render context text vars engine.session
  match result with
  | .error f => (⟨.error f, s.queries, s.prompts⟩, engine.keep s)
  | .ok result =>
    if result.deferred then
      let (output, s) := (engine.postProcessor surroundings vars url tab).process result.output s
      (⟨output, s.queries, s.prompts⟩, engine.keep s)
    else (⟨.ok result.output, s.queries, s.prompts⟩, engine.keep s)

end Engine

end NoteTemplate
