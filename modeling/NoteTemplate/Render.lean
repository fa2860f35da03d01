import NoteTemplate.Render.Evaluate
import NoteTemplate.Text.Margin

/-!
Rendering the parts of a template. A mistake concerns one part only: the part yields no text, the
mistake is noted, and the other parts are rendered as ever.
-/

namespace NoteTemplate.Render

variable {σ : Type}

/-- The variables of one turn of a loop: the item, its index, and the state of the loop. -/
def bindings (iterator : String) (item : Value) (index length : Nat) : List (String × Value) :=
  [(iterator, item), (iterator ++ "_index", .int index),
    ("loop", .obj [
      ("index", .int (index + 1)),
      ("index0", .int index),
      ("first", .bool (index == 0)),
      ("last", .bool (index + 1 == length)),
      ("length", .int length)])]

/-- Variables with bindings added. -/
def bind (vars : Variables) (added : List (String × Value)) : Variables :=
  added.foldl (fun vars (name, v) => vars.assign name (.plain v)) vars

/-- Runs a computation, and notes a mistake that ends it. -/
def guarded (describe : String → String) (place : Place) (act : Run σ String) : Run σ String :=
  tryCatch act fun stop =>
    match stop with
    | .failed message => do
      note (describe message) place
      return ""
    | .fault f => throw (.fault f)

/-- Runs a computation on other variables, and puts the present ones back behind it. -/
def withVariables {α : Type} (vars : Variables) (act : Run σ α) : Run σ α := do
  let outer := (← get).vars
  modify fun pass => { pass with vars }
  let restore : Run σ Unit := modify fun pass => { pass with vars := outer }
  let result ← tryCatch act fun stop => do
    restore
    throw stop
  restore
  return result

/-- The texts of the turns of a loop over the rest of its items, without the blanks around them. -/
def turns (iterator : String) (length : Nat) (body : Run σ String) :
    Nat → List Value → Run σ (List String)
  | _, [] => return []
  | index, item :: rest => do
    let vars := bind (← get).vars (bindings iterator item index length)
    let text ← withVariables vars body
    let later ← turns iterator length body (index + 1) rest
    return Text.strip text :: later

/-- The text of a loop over the items of an array. Blanks to be cut are no matter between the inside
of the loop and its outside. -/
def loopText (iterator : String) (items : List Value) (body : Run σ String) : Run σ String := do
  let pending := (← get).pendingTrim
  let texts ← turns iterator items.length body 0 items
  modify fun pass => { pass with pendingTrim := pending }
  return String.intercalate "\n" texts

/-- The text so far, behind which a part cuts blanks. -/
def cutBefore (t : Trim) (output : String) : String :=
  if t.left && output ≠ "" then String.ofList (Text.cutMarginEnd output.toList) else output

/-- The text of a part, off which an earlier part cuts blanks. -/
def cutBehind (output : String) : Run σ String := do
  let pass ← get
  if pass.pendingTrim && output ≠ "" then
    set { pass with pendingTrim := false }
    return String.ofList (Text.cutMarginStart output.toList)
  else return output

/-- Lets a part cut blanks off the text behind it. -/
def markBehind (t : Trim) : Run σ Unit :=
  if t.right then modify fun pass => { pass with pendingTrim := true } else return

/-- The text of an expression to print. -/
def printed (context : Context σ) (e : Expr) : Run σ String :=
  match e.promptSource? with
  | some source => do
    let source ← ofFault source
    return (← defer source).text
  | none => do
    let d ← eval context e
    ofFault d.written

/-- Assign the value of an expression. -/
def assign (context : Context σ) (name : String) (e : Expr) : Run σ String := do
  let d ← eval context e
  modify fun pass => { pass with vars := pass.vars.assign name d }
  return ""

mutual

/-- The text of a part. -/
def renderNode (context : Context σ) : Node → Run σ String
  | .text s _ => return s
  | .print e _ place => guarded ("Error evaluating variable: " ++ ·) place (printed context e)
  | .conditional condition body branches otherwise _ place =>
    guarded ("Error evaluating if condition: " ++ ·) place do
      if (← eval context condition).truthy then renderNodes context "" body
      else renderBranches context (renderOtherwise context otherwise) branches
  | .loop iterator iterable body _ place =>
    guarded id place do
      match ← eval context iterable with
      | .plain .null => return ""
      | .plain (.arr items) => loopText iterator items (renderNodes context "" body)
      | d => throw (.failed ("For loop iterable is not an array: " ++ d.kind))
  | .assign name e _ place => guarded ("Error in set: " ++ ·) place (assign context name e)

/-- The text of the branch without a condition. -/
def renderOtherwise (context : Context σ) : Option (List Node) → Run σ String
  | some body => renderNodes context "" body
  | none => return ""

/-- The text of the first branch whose condition holds, or else the given one. -/
def renderBranches (context : Context σ) (otherwise : Run σ String) :
    List (Expr × List Node) → Run σ String
  | [] => otherwise
  | (condition, body) :: rest => do
    if (← eval context condition).truthy then renderNodes context "" body
    else renderBranches context otherwise rest

/-- The text of parts behind the text so far. -/
def renderNodes (context : Context σ) (output : String) : List Node → Run σ String
  | [] => return output
  | node :: rest => do
    let before := cutBefore node.trim output
    let text ← renderNode context node
    let text ← cutBehind text
    markBehind node.trim
    renderNodes context (before ++ text) rest

end

/-- The outcome of rendering. -/
structure Result where
  output : String
  errors : List RenderError := []
  deferred : Bool := false
deriving Inhabited, Repr, DecidableEq

/-- The blanks at the ends of an output are cut on request. -/
def finish (trimOutput : Bool) (output : String) : String :=
  if trimOutput then Text.strip output else output

/-- Render parts with variables, and a state for the resolver. The outcome comes with the variables
and the state behind the pass. -/
def render (context : Context σ) (trimOutput : Bool) (nodes : List Node) (vars : Variables)
    (world : σ) : Except Fault Result × Variables × σ :=
  let (result, pass) := (renderNodes context "" nodes).run { vars, world }
  let outcome := match result with
    | .ok output => .ok ⟨finish trimOutput output, pass.errors.reverse, pass.deferred⟩
    | .error (.fault f) => .error f
    | .error (.failed message) => .ok ⟨"", (⟨message, none⟩ :: pass.errors).reverse, pass.deferred⟩
  (outcome, pass.vars, pass.world)

end NoteTemplate.Render
