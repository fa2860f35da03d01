import NoteTemplate.Expr.Printer
import NoteTemplate.Prompt
import NoteTemplate.Render.Pass
import NoteTemplate.Schema
import NoteTemplate.Selector

/-!
The value of an expression. Names that only the surroundings can resolve are put to the resolver;
without an answer they are deferred, and what is made of them is deferred with them.
-/

namespace NoteTemplate

/-- A filter argument that can be written, in a parameter text. -/
def Value.paramText : Value → String
  | .str s => quote s
  | v => v.text

namespace Render

variable {σ : Type}

/-- Put a name to the resolver. -/
def resolveOutside (context : Context σ) (name : String) : Run σ Datum := do
  match context.resolver with
  | none => defer name
  | some resolver =>
    let pass ← get
    let (resolution, world) := (resolver name pass.vars).run pass.world
    set { pass with world }
    match resolution with
    | .value v => return .plain v
    | .declined => defer name
    | .failed message => throw (.failed ("Resolver failed for " ++ name ++ ": " ++ message))

def evalName (context : Context σ) (name : String) : Run σ Datum := do
  if Schema.isName name then
    let found ← ofFault (Schema.lookup name (← get).vars)
    if found.isNull then resolveOutside context name else return found
  else if SelectorQuery.isName name || Prompt.isName name then resolveOutside context name
  else ofFault (Variables.resolve (← get).vars name)

/-- An item of an array by a position, by digits, or its length. -/
def itemOf (items : List Value) : Value → Except Fault Value
  | .int n => .ok (Value.item items n)
  | .float x =>
    match Decimal.whole? x with
    | some n => .ok (Value.item items n)
    | none => .ok .null
  | .str s =>
    if s ≠ "" ∧ s.toList.all Text.isDigit then do
      let n ← Value.indexOfDigits s
      return Value.item items n
    else if s = "length" then .ok (.int items.length)
    else .ok .null
  | _ => .ok .null

def part (v : Value) (key : Datum) : Except Fault Value :=
  match v with
  | .arr items =>
    match key with
    | .plain k => itemOf items k
    | .deferred _ => .ok .null
  | .obj fields => do return Value.field fields (← key.written)
  | .str s =>
    match key with
    | .plain (.str k) => .ok (if k = "length" then .int s.length else .null)
    | _ => .ok .null
  | _ => .ok .null

/-- A part of what an expression yields. A part of a deferred expression is deferred as well. -/
def access (object key : Datum) : Except Fault Datum :=
  match object with
  | .deferred source =>
    match key with
    | .plain (.int n) => do return .deferred (source ++ "[" ++ (← Value.written (.int n)) ++ "]")
    | key => do return .deferred (source ++ "." ++ (← key.written))
  | .plain v => if v.isNull || key.isNull then .ok Datum.null else (part v key).map .plain

/-- The value of an operator other than the fallback. -/
def operate (operator : Operator) (left right : Datum) : Except Fault Value :=
  let a := left.comparable
  let b := right.comparable
  match operator with
  | .fallback => .ok .null
  | .or => .ok (.bool (left.truthy || right.truthy))
  | .and => .ok (.bool (left.truthy && right.truthy))
  | .equal => (Value.looseEq a b).map .bool
  | .notEqual => (Value.looseEq a b).map fun same => .bool !same
  | .greater => (Value.ordered .greater a b).map .bool
  | .less => (Value.ordered .less a b).map .bool
  | .atLeast => (Value.ordered .atLeast a b).map .bool
  | .atMost => (Value.ordered .atMost a b).map .bool
  | .contains => (Value.contains a b).map .bool

/-- The argument that a filter is given: a bare word that stands for nothing is text, and a deferred
expression is its placeholder. -/
def argument (e : Expr) (d : Datum) : Value :=
  match d with
  | .deferred source => .str (Datum.placeholder source)
  | .plain v =>
    if v.isNull then
      match e with
      | .identifier name _ => .str name
      | _ => v
    else v

/-- The parameter text of a filter whose arguments can be written. -/
def paramOf (separators : List Separator) (parenthesized : Bool) (args : List Value) :
    Option String :=
  if args.isEmpty then none
  else some (layoutArgs separators parenthesized (args.map Value.paramText))

/-- The parameter text of a filter. -/
def writtenParam (separators : List Separator) (parenthesized : Bool) (args : List Value) :
    Except Fault (Option String) :=
  if Value.itemsWritable args then .ok (paramOf separators parenthesized args)
  else .error .integerTooLong

def deferFilter (source name : String) (param : Option String) : Datum :=
  match param with
  | some text =>
    .deferred (if text = "" then source ++ "|" ++ name else source ++ "|" ++ name ++ ":" ++ text)
  | none => .deferred (source ++ "|" ++ name)

def applyFilter (context : Context σ) (name : String) (d : Datum) (args : List Value)
    (param : Option String) : Run σ Datum :=
  match d with
  | .deferred source => return deferFilter source name param
  | .plain v =>
    match Assoc.get? context.filters name with
    | some custom =>
      match custom v args with
      | .ok result => return .plain result
      | .error message => throw (.failed ("Filter '" ++ name ++ "' failed: " ++ message))
    | none => ofFault (context.registry.apply name (.plain v) param context.url)

mutual

/-- The value of an expression. -/
def eval (context : Context σ) : Expr → Run σ Datum
  | .literal l _ => return .plain l.value
  | .identifier name _ => evalName context name
  | .binary operator left right _ => do
    let a ← eval context left
    if operator = .fallback then
      if a.nullish then eval context right else return a
    else
      let b ← eval context right
      return .plain (← ofFault (operate operator a b))
  | .not e _ => do
    let a ← eval context e
    return .plain (.bool !a.truthy)
  | .filter value name args separators parenthesized _ => do
    let d ← eval context value
    let values ← evalArgs context args
    let param ← ofFault (writtenParam separators parenthesized values)
    applyFilter context name d values param
  | .group inner _ => eval context inner
  | .member object name _ => do
    let d ← eval context object
    ofFault (access d (.plain (.str name)))
  | .index object key _ => do
    let d ← eval context object
    let k ← eval context key
    ofFault (access d k)

/-- The arguments of a filter. -/
def evalArgs (context : Context σ) : List Expr → Run σ (List Value)
  | [] => return []
  | e :: rest => do
    let d ← eval context e
    let values ← evalArgs context rest
    return argument e d :: values

end

end Render

end NoteTemplate
