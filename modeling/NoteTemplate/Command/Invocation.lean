import NoteTemplate.Command.Words

/-!
The command lines of the program: rendering a template, checking one, and listing the filters.
-/

namespace NoteTemplate.Command

/-- A template to be rendered. -/
structure RenderRequest where
  /-- The file of the template; a hyphen stands for standard input. -/
  template : String
  /-- The file with variables. -/
  dataFile : Option String := none
  /-- Variables with their values behind an equals sign. -/
  assignments : List String := []
  /-- The address of the page. -/
  url : String := ""
  /-- Whether the outcome is reported as JSON. -/
  json : Bool := false
deriving Repr, DecidableEq

/-- A template to be checked. -/
structure CheckRequest where
  template : String
  /-- Names of variables that are known apart from the usual ones. -/
  known : List String := []
  json : Bool := false
  /-- Whether the outline of the template is shown. -/
  outline : Bool := false
deriving Repr, DecidableEq

/-- What the program is asked for. -/
inductive Request where
  | render (r : RenderRequest)
  | check (r : CheckRequest)
  | filters
deriving Repr, DecidableEq

/-- A command line that is understood. -/
structure Invocation where
  /-- The file with settings, if it is not the usual one. -/
  configFile : Option String := none
  request : Request
deriving Repr, DecidableEq

/-- Why a command line gives no invocation. -/
inductive Refusal where
  | usage (e : UsageError)
  /-- The grammar of a command is asked for. -/
  | help (g : Grammar)
  /-- The version of the program is asked for. -/
  | version
deriving Repr, DecidableEq

def programName : String := "cliptpl"

/-- The option that asks for the grammar of a command. -/
def helpFlag : Flag := { names := ["-h", "--help"], stops := true }

def versionFlag : Flag := { names := ["-v", "--version"], stops := true }

/-- The grammar of the program: options of all commands, and a command with its words. -/
def mainGrammar : Grammar where
  program := programName
  flags := [helpFlag, versionFlag, { names := ["--verbose"] },
    { names := ["--config"], takesValue := true }]
  arguments := ["cmd"]
  takesRest := true

def renderGrammar : Grammar where
  program := programName ++ " render"
  flags := [helpFlag, { names := ["--vars"], takesValue := true },
    { names := ["--var"], takesValue := true }, { names := ["--url"], takesValue := true },
    { names := ["--json"] }]
  arguments := ["template"]

def checkGrammar : Grammar where
  program := programName ++ " check"
  flags := [helpFlag, { names := ["--known"], takesValue := true }, { names := ["--json"] },
    { names := ["--ast"] }]
  arguments := ["template"]

def filtersGrammar : Grammar := { program := programName ++ " filters", flags := [helpFlag] }

/-- The commands with their grammars, and what they ask for. -/
def commands : List (String × Grammar × (Reading → Request)) := [
  ("render", renderGrammar, fun r => .render {
    template := r.arguments.headD ""
    dataFile := (r.value? "--vars").filter (· ≠ "")
    assignments := r.values "--var"
    url := (r.value? "--url").getD ""
    json := r.has "--json" }),
  ("check", checkGrammar, fun r => .check {
    template := r.arguments.headD ""
    known := r.values "--known"
    json := r.has "--json"
    outline := r.has "--ast" }),
  ("filters", filtersGrammar, fun _ => .filters)]

def unknownCommand (word : String) : UsageError :=
  mainGrammar.error ("argument cmd: invalid choice: " ++ Value.notatedText word ++
    " (choose from " ++ Text.joinWith ", " (commands.map fun (name, _) => Value.notatedText name) ++
    ")")

def strayWords (words : List String) : UsageError :=
  mainGrammar.error ("unrecognized arguments: " ++ Text.joinWith " " words)

/-- Reads the words of a grammar, unless they ask for the grammar itself. -/
def readBy (g : Grammar) (words : List String) : Except Refusal Reading := do
  let r ← (g.read words).mapError .usage
  if r.has "--help" then throw (.help g)
  if r.has "--version" then throw .version
  return r

def Invocation.ofWords (words : List String) : Except Refusal Invocation := do
  let outer ← readBy mainGrammar words
  match outer.arguments with
  | [] => throw (.usage (mainGrammar.lacks mainGrammar.arguments))
  | command :: words =>
    match commands.lookup command with
    | none => throw (.usage (unknownCommand command))
    | some (grammar, request) =>
      let inner ← readBy grammar words
      match outer.extras ++ inner.extras with
      | [] =>
        return { configFile := (outer.value? "--config").filter (· ≠ ""), request := request inner }
      | extras => throw (.usage (strayWords extras))

end NoteTemplate.Command
