import NoteTemplate.Cache.Expiring
import NoteTemplate.Filter.Registry
import NoteTemplate.Placeholder
import NoteTemplate.Prompt
import NoteTemplate.Schema
import NoteTemplate.Selector

/-!
The second look through a rendered text: placeholders give way to what they ask for. What is put in
their place is not looked through again.
-/

namespace NoteTemplate

/-- What the surroundings of a template can answer. Each answer may fail with a message. -/
structure Surroundings where
  /-- Content of the page. -/
  selectors : Option (SelectorQuery → Except String Value) := none
  /-- Answers to questions in words; null leaves the question in the text. -/
  prompts : Option (String → Variables → Except String Datum) := none

/-- What an answer of the page depends on: the tab, the address and the question. -/
structure PageKey where
  tab : Option Int
  url : String
  query : SelectorQuery
deriving Repr, DecidableEq

/-- The questions that were put to the surroundings, and the answers of the page that are kept, if
answers are kept at all. -/
structure Session (τ : Type) where
  now : τ
  cache : Option (ExpiringCache τ PageKey Value) := none
  queries : List SelectorQuery := []
  prompts : List String := []

/-- What a second look is given. -/
structure PostProcessor where
  surroundings : Surroundings := {}
  registry : Registry := []
  promptsEnabled : Bool := true
  vars : Variables := []
  url : String := ""
  tab : Option Int := none

namespace PostProcessor

variable {τ : Type} [LE τ] [DecidableLE τ] [Add τ] [OfNat τ 0]

/-- Put a question to the page itself. A failing answer is nothing, and is not kept. -/
def ask (key : PageKey) (answer : SelectorQuery → Except String Value) (s : Session τ) :
    Value × Session τ :=
  let s := { s with queries := s.queries ++ [key.query] }
  match answer key.query with
  | .ok v => (v, { s with cache := s.cache.map fun cache => cache.put s.now key v })
  | .error _ => (.null, s)

/-- The content of the page that a question asks for. -/
def select (surroundings : Surroundings) (key : PageKey) (s : Session τ) : Value × Session τ :=
  match surroundings.selectors with
  | none => (.null, s)
  | some answer =>
    match s.cache with
    | none => ask key answer s
    | some cache =>
      match cache.get? s.now key with
      | (some v, cache) => (v, { s with cache := some cache })
      | (none, cache) => ask key answer { s with cache := some cache }

/-- The answer to a question in words; a failing answer is empty. -/
def prompt (p : PostProcessor) (head : String) (s : Session τ) : Datum × Session τ :=
  match Prompt.ofName? head, p.surroundings.prompts with
  | some question, some answer =>
    let s := { s with prompts := s.prompts ++ [question] }
    match answer question p.vars with
    | .ok d => (d, s)
    | .error _ => (.plain (.str ""), s)
  | _, _ => (Datum.null, s)

/-- What the head of a placeholder stands for; none leaves the placeholder in the text. -/
def answer (p : PostProcessor) (head : String) (s : Session τ) :
    Except Fault (Option Datum) × Session τ :=
  if SelectorQuery.isName head then
    match SelectorQuery.ofName head with
    | .ok query =>
      let (v, s) := select p.surroundings ⟨p.tab, p.url, query⟩ s
      (.ok (some (.plain v)), s)
    | .error f => (.error f, s)
  else if Schema.isName head then ((Schema.lookup head p.vars).map some, s)
  else if Prompt.isName head then
    let (d, s) := prompt p head s
    (.ok (if d.isNull then none else some d), s)
  else ((Variables.resolve p.vars head).map some, s)

/-- The text in the place of a placeholder with the given inside. -/
def replace (p : PostProcessor) (body : List Char) (s : Session τ) :
    Except Fault String × Session τ :=
  let request := Placeholder.request (Text.strip (String.ofList body))
  if Prompt.isName request.head && !p.promptsEnabled then (.ok "", s)
  else
    match answer p request.head s with
    | (.error f, s) => (.error f, s)
    | (.ok none, s) => (.ok (String.ofList (Placeholder.Piece.chars (.placeholder body))), s)
    | (.ok (some d), s) =>
      let answered := if request.chain = "" then .ok d
        else p.registry.applyChain d request.chain p.url
      (answered.bind Datum.written, s)

/-- The text of a piece. Plain text stays as it is. -/
def processPiece (p : PostProcessor) (s : Session τ) :
    Placeholder.Piece → Except Fault String × Session τ
  | .char c => (.ok (String.ofList [c]), s)
  | .placeholder body => replace p body s

def processPieces (p : PostProcessor) (s : Session τ) :
    List Placeholder.Piece → Except Fault String × Session τ
  | [] => (.ok "", s)
  | piece :: rest =>
    match processPiece p s piece with
    | (.error f, s) => (.error f, s)
    | (.ok first, s) =>
      match processPieces p s rest with
      | (.ok text, s) => (.ok (first ++ text), s)
      | (.error f, s) => (.error f, s)

/-- A rendered text with all its placeholders resolved. -/
def process (p : PostProcessor) (text : String) (s : Session τ) :
    Except Fault String × Session τ :=
  processPieces p s (Placeholder.pieces text.toList)

end PostProcessor

end NoteTemplate
