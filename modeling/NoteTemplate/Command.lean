import NoteTemplate.Command.Invocation
import NoteTemplate.Config.File
import NoteTemplate.Engine
import NoteTemplate.Filter.Builtin
import NoteTemplate.Node.Outline
import NoteTemplate.Text.Margin
import NoteTemplate.Validate

/-!
The program: what it prints for a command line, given the files it reads.
-/

namespace NoteTemplate.Command

/-- What the program reads. -/
structure Inputs where
  /-- The text of a file, if there is one of the name. -/
  file? : String → Option String
  standardInput : String := ""
  environment : Config.Environment := {}

/-- What the program prints and the code with which it ends. -/
structure Outcome where
  code : Nat := 0
  output : String := ""
  errors : String := ""
deriving Repr, DecidableEq

/-- Why the program gives up. -/
inductive Failure where
  | config (e : ConfigError)
  | noTemplate (path : String)
  | noData (path : String)
  | unreadableData (path : String)
  | dataNotAMapping (path : String)
  | invalidAssignment (word : String)
  | fault (f : Fault)
deriving Repr

def Failure.message : Failure → String
  | config e => e.message
  | noTemplate path => "Template file not found: " ++ path
  | noData path => "Variables file not found: " ++ path
  | unreadableData path => "Cannot parse variables file " ++ path ++ ": it is not YAML"
  | dataNotAMapping path => "Variables file must be a mapping: " ++ path
  | invalidAssignment word => "Invalid variable '" ++ word ++ "'. Expected KEY=VALUE"
  | fault f => f.message

def Failure.line (failure : Failure) : String :=
  String.ofList (Text.trimEnd failure.message.toList) ++ "\n"

/-- The code with which the program ends if something is wrong with what it was given. -/
def failureCode : Nat := 2

/-- A path without empty steps and steps that stay where they are. -/
def normalPath (path : String) : String :=
  let steps := (Text.splitOnChar '/' path.toList).filter fun step => step ≠ [] && step ≠ ['.']
  let relative := Text.joinWith "/" (steps.map String.ofList)
  if Text.startsWith ['/'] path.toList then "/" ++ relative
  else if relative = "" then "."
  else relative

def Inputs.text? (inputs : Inputs) (path : String) : Option String :=
  (inputs.file? path).map fun text => String.ofList (Text.unifyBreaks text.toList)

def settings (inputs : Inputs) (configFile : Option String) : Except Failure Config := do
  let path := normalPath (configFile.getD Config.defaultFile)
  let config ← (Config.ofFile path (inputs.text? path)).mapError .config
  return config.withEnvironment inputs.environment

def templateText (inputs : Inputs) (template : String) : Except Failure String :=
  if template = "-" then .ok inputs.standardInput
  else
    let path := normalPath template
    match inputs.text? path with
    | some text => .ok text
    | none => .error (.noTemplate path)

def dataVariables (inputs : Inputs) (file : String) : Except Failure Variables :=
  let path := normalPath file
  match inputs.text? path with
  | none => .error (.noData path)
  | some text =>
    match Yaml.read? text.toList with
    | none => .error (.unreadableData path)
    | some document =>
      match document.entries? with
      | none => .error (.dataNotAMapping path)
      | some entries => .ok (Yaml.asVariables entries)

/-- Variables with one more, which a word assigns. -/
def assign (vars : Variables) (word : String) : Except Failure Variables :=
  match Text.cutAtChar? '=' word.toList with
  | some (name, v) =>
    .ok (vars.assign (String.ofList (Text.trim name)) (.plain (.str (String.ofList v))))
  | none => .error (.invalidAssignment word)

def requestVariables (inputs : Inputs) (r : RenderRequest) : Except Failure Variables := do
  let vars ← match r.dataFile with
    | some file => dataVariables inputs file
    | none => pure []
  r.assignments.foldlM assign vars

def reportNumber (n : Option Nat) : Value :=
  match n with
  | some n => .int n
  | none => .null

def reportEntry (message : String) (place : Option Place) : Value :=
  .obj [("message", .str message), ("line", reportNumber (place.map (·.line))),
    ("column", reportNumber (place.map (·.column)))]

def reportText (fields : List (String × Value)) : String := (Value.obj fields).toIndentedJson ++ "\n"

/-- Renders a template; what is put off is looked through a second time. -/
def renderIn {τ : Type} [LE τ] [DecidableLE τ] [Add τ] [OfNat τ 0] (engine : Engine τ)
    (text : String) (vars : Variables) (url : String) : Except Fault Render.Result := do
  let (result, vars, _, engine) := engine.render (engine.context url) text vars ()
  let result ← result
  if result.deferred then
    let (output, _) := (engine.postProcessor {} vars url none).process result.output engine.session
    return { result with output := ← output }
  else return result

def renderText (config : Config) (text : String) (vars : Variables) (url : String) :
    Except Fault Render.Result :=
  renderIn (Engine.new config Filter.standard 0 : Engine Nat) text vars url

def renderErrorLine (e : Render.RenderError) : String :=
  let line := (e.place.map fun place => Nat.repr place.line).getD "None"
  "Line " ++ line ++ ": " ++ e.message ++ "\n"

/-- Renders a template and prints it, or a report about it. -/
def runRender (inputs : Inputs) (config : Config) (r : RenderRequest) : Except Failure Outcome := do
  let text ← templateText inputs r.template
  let vars ← requestVariables inputs r
  let result ← (renderText config text vars r.url).mapError .fault
  let code := if result.errors.isEmpty then 0 else failureCode
  if r.json then
    return {
      code
      output := reportText [("output", .str result.output),
        ("errors", .arr (result.errors.map fun e => reportEntry e.message e.place)),
        ("hasDeferredVariables", .bool result.deferred)] }
  else
    return {
      code
      output := result.output
      errors := String.join (result.errors.map renderErrorLine) }

def placedLine (kind message : String) (line column : Nat) : String :=
  kind ++ ": line " ++ Nat.repr line ++ ", column " ++ Nat.repr column ++ ": " ++ message ++ "\n"

/-- Checks a template and prints what is wrong with it, or a report. -/
def runCheck (inputs : Inputs) (r : CheckRequest) : Except Failure Outcome := do
  let text ← templateText inputs r.template
  let template ← (Template.parse Template.usualRoom text).mapError .fault
  let warnings := Validate.warnings template.nodes r.known
  let code := if template.ok then 0 else failureCode
  if r.json then
    return {
      code
      output := reportText [("ok", .bool template.ok),
        ("errors", .arr (template.errors.map fun e =>
          reportEntry e.message (some ⟨e.line, e.column⟩))),
        ("warnings", .arr (warnings.map fun w => reportEntry w.message (some w.place)))] }
  else
    let errors := template.errors.map fun e => placedLine "error" e.message e.line e.column
    let notes := warnings.map fun w =>
      placedLine "warning" w.message w.place.line w.place.column
    let output ←
      if !template.ok then .ok ""
      else if r.outline then ((Node.outlineText template.nodes).map (· ++ "\n")).mapError .fault
      else .ok "OK\n"
    return { code, output, errors := String.join (errors ++ notes) }

/-- A name filled up with spaces to a width. -/
def padRight (width : Nat) (s : String) : String :=
  s ++ String.ofList (List.replicate (width - s.length) ' ')

def runFilters : Outcome :=
  let width := (Filter.standard.names.map String.length).foldl max 0
  { output := String.join (Filter.standard.sorted.map fun f =>
      padRight width f.name ++ "  " ++ f.description ++ "\n") }

def run (inputs : Inputs) (invocation : Invocation) : Except Failure Outcome := do
  let config ← settings inputs invocation.configFile
  match invocation.request with
  | .render r => runRender inputs config r
  | .check r => runCheck inputs r
  | .filters => return runFilters

def Invocation.files (invocation : Invocation) : List String :=
  let named := match invocation.request with
    | .render r => r.template :: r.dataFile.toList
    | .check r => [r.template]
    | .filters => []
  (invocation.configFile.getD Config.defaultFile :: named).map normalPath

end NoteTemplate.Command
