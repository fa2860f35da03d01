import NoteTemplate.Decimal.Reader
import NoteTemplate.Fault
import NoteTemplate.Text.Case
import NoteTemplate.Value.Notation
import NoteTemplate.Variables

/-!
The settings of the template engine: defaults, settings from a file, and the environment over both.
-/

namespace NoteTemplate

/-- The settings. -/
structure Config where
  /-- Whether questions in words are answered; otherwise they give nothing. -/
  promptsEnabled : Bool := true
  /-- Whether blanks at the ends of the rendered text are cut. -/
  trimOutput : Bool := false
  /-- How many parsed templates are kept. -/
  parseCacheSize : Nat := 128
  /-- How many seconds answers of the page are kept. -/
  resolverCacheTtl : Float := 30.0
  /-- Whether the highlighting fragment of the page address is dropped. -/
  stripTextFragment : Bool := true
deriving Inhabited, Repr

/-- What can be wrong with settings. -/
inductive ConfigError where
  | unknownKeys (names : List String)
  | invalidValue (name : String) (v : Value)
  | negativeCache
  | unreadable (path : String)
  | notAMapping (path : String)
  | fault (f : Fault)
deriving Repr

/-- A value that does not fit a setting. The message quotes it, so it has to be writable. -/
def ConfigError.ofValue (name : String) (v : Value) : ConfigError :=
  if v.writable then .invalidValue name v else .fault .integerTooLong

def ConfigError.message : ConfigError → String
  | unknownKeys names => "Unknown config keys: " ++ String.intercalate ", " names
  | invalidValue name v => "Invalid value for '" ++ name ++ "': " ++ v.notated
  | negativeCache => "parse_cache_size must be >= 0"
  | unreadable path => "Cannot read config " ++ path ++ ": it is not YAML"
  | notAMapping path => "YAML must be a mapping: " ++ path
  | fault f => f.message

namespace Config

def defaultFile : String := "cliptpl.yaml"

/-- The settings by name. -/
inductive Setting where
  | promptsEnabled
  | trimOutput
  | parseCacheSize
  | resolverCacheTtl
  | stripTextFragment
deriving Repr, DecidableEq

def Setting.name : Setting → String
  | promptsEnabled => "prompts_enabled"
  | trimOutput => "trim_output"
  | parseCacheSize => "parse_cache_size"
  | resolverCacheTtl => "resolver_cache_ttl"
  | stripTextFragment => "strip_text_fragment"

def Setting.ofName? (name : String) : Option Setting :=
  [promptsEnabled, trimOutput, parseCacheSize, resolverCacheTtl, stripTextFragment].find?
    (·.name == name)

def isOff (word : String) : Bool :=
  ["0", "false", "no", "off", ""].contains (Text.toLower (Text.strip word))

/-- A switch; none when the value is no switch. -/
def switch? : Value → Option Bool
  | .bool b => some b
  | .str s => some !isOff s
  | .int n => some (n != 0)
  | .float x => some (x != 0.0)
  | _ => none

/-- A whole number. A fraction is cut off. -/
def whole? (name : String) (v : Value) : Except ConfigError Int :=
  match v with
  | .bool b => .ok (if b then 1 else 0)
  | .int n => .ok n
  | .float x =>
    match Decimal.truncate? x with
    | some n => .ok n
    | none => .error (if x.isNaN then .ofValue name v else .fault .infiniteInteger)
  | .str s =>
    match Decimal.readInt? s with
    | some n => .ok n
    | none => .error (.ofValue name v)
  | _ => .error (.ofValue name v)

def seconds? (name : String) (v : Value) : Except ConfigError Float :=
  match v with
  | .bool b => .ok (if b then 1.0 else 0.0)
  | .int n =>
    match Decimal.ofInt? n with
    | some x => .ok x
    | none => .error (.fault .integerTooLarge)
  | .float x => .ok x
  | .str s =>
    match Decimal.readFloat? s with
    | some x => .ok x
    | none => .error (.ofValue name v)
  | _ => .error (.ofValue name v)

/-- Settings while they are read: the size of the cache may still be negative. -/
structure Draft where
  config : Config := {}
  cacheSize : Int := 128

def Draft.read (draft : Draft) (setting : Setting) (v : Value) : Except ConfigError Draft :=
  let name := setting.name
  let withSwitch (change : Config → Bool → Config) : Except ConfigError Draft :=
    match switch? v with
    | some b => .ok { draft with config := change draft.config b }
    | none => .error (.ofValue name v)
  match setting with
  | .promptsEnabled => withSwitch fun c b => { c with promptsEnabled := b }
  | .trimOutput => withSwitch fun c b => { c with trimOutput := b }
  | .stripTextFragment => withSwitch fun c b => { c with stripTextFragment := b }
  | .parseCacheSize => do
    let n ← whole? name v
    return { draft with cacheSize := n }
  | .resolverCacheTtl => do
    let x ← seconds? name v
    return { draft with config := { draft.config with resolverCacheTtl := x } }

def ofFields (fields : Assoc String Value) : Except ConfigError Config := do
  let unknown := (fields.map (·.1)).filter fun name => (Setting.ofName? name).isNone
  if unknown ≠ [] then throw (.unknownKeys (unknown.mergeSort fun a b => a ≤ b))
  let draft ← fields.foldlM (fun draft (name, v) =>
    match Setting.ofName? name with
    | some setting => Draft.read draft setting v
    | none => .ok draft) ({} : Draft)
  if draft.cacheSize < 0 then throw .negativeCache
  return { draft.config with parseCacheSize := draft.cacheSize.toNat }

/-- What the environment says: whether to keep anything, and whether to answer questions. -/
structure Environment where
  cache : Option String := none
  prompts : Option String := none
deriving Inhabited, Repr

def withEnvironment (config : Config) (env : Environment) : Config :=
  let config := match env.cache with
    | some word =>
      if isOff word then { config with parseCacheSize := 0, resolverCacheTtl := 0.0 } else config
    | none => config
  match env.prompts with
  | some word => { config with promptsEnabled := !isOff word }
  | none => config

end Config

end NoteTemplate
