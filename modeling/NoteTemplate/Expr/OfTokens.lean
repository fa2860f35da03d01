import NoteTemplate.Decimal.Reader
import NoteTemplate.Expr.Printer
import NoteTemplate.TemplateError
import NoteTemplate.Text.Case

/-!
Reading expressions from tokens by recursive descent. From the loosest to the tightest binding:

`??`, `or`, `and`, `not`, one comparison, filters, brackets and points, primary expressions.

An expression behind `not`, in parentheses or in brackets is read inside of another one. How far
this can go on depends on the machine that reads, so the room for it is given.
-/

namespace NoteTemplate

/-- Why reading stops: at a mistake, which is noted before reading goes on, or at a fault. -/
inductive Cause where
  | mistake (e : TemplateError)
  | fault (f : Fault)
deriving Repr

/-- Why reading stops, and the tokens where it does. -/
structure Failure where
  cause : Cause
  rest : List Token
deriving Repr

/-- The mistake to be noted; a fault ends the reading of the whole template. -/
def Failure.mistake (f : Failure) : Except Fault TemplateError :=
  match f.cause with
  | .mistake e => .ok e
  | .fault f => .error f

/-- A result and the tokens behind it. -/
abbrev Found (α : Type) := α × List Token

namespace Tokens

/-- The token that a list ends with when it holds no other. -/
def endMark : Token := ⟨.endOfText, "", Position.start, false, false⟩

/-- The first token. -/
def current (ts : List Token) : Token := ts.headD endMark

/-- The tokens behind the first one; the end of the text is never passed. -/
def advance : List Token → List Token
  | [] => []
  | t :: rest => if t.kind = .endOfText then t :: rest else rest

theorem advance_cons {t : Token} {kind : Token.Kind} (hKind : t.kind = kind)
    (hInner : kind ≠ .endOfText) (rest : List Token) : advance (t :: rest) = rest := by
  rw [advance, if_neg (by rwa [hKind])]

/-- Whether the first token is of a kind. -/
def at? (ts : List Token) (kind : Token.Kind) : Bool := (current ts).kind == kind

/-- The token behind the first one; behind the last one there is nothing but itself. -/
def second : List Token → Token
  | _ :: t :: _ => t
  | ts => current ts

/-- A failure at a token. -/
def fail {α : Type} (mistake : Mistake) (token : Token) (rest : List Token) : Except Failure (Found α) :=
  .error ⟨.mistake (TemplateError.atToken mistake token), rest⟩

/-- What a token is read as, if nothing is at fault. -/
def orFault {α : Type} (result : Except Fault α) (ts : List Token) : Except Failure α :=
  result.mapError fun f => ⟨.fault f, ts⟩

/-- The room that an expression inside of another one has for more of them. -/
def deeper (room : Nat) (ts : List Token) : Except Failure Nat :=
  match room with
  | 0 => .error ⟨.fault .nestedTooDeeply, ts⟩
  | room + 1 => .ok room

/-- What is wrong with a token that cannot stand where it does. -/
def unexpected (token : Token) : Mistake :=
  match token.kind with
  | .unknown => .unexpectedCharacter token.value
  | .openString => .unclosedString token.value
  | .endOfText => .unexpectedEnd
  | _ => .unexpectedToken token.value

/-- Whether a kind of token is a character or a string that could not be read. -/
def isBroken (kind : Token.Kind) : Bool := kind == .unknown || kind == .openString

/-- Whether no expression goes on at a kind of token. -/
def endsExpression (kind : Token.Kind) : Bool :=
  kind == .variableEnd || kind == .tagEnd || kind == .endOfText || kind == .text ||
    kind == .variableStart || kind == .tagStart

/-- Takes a token of a kind. -/
def expect (kind : Token.Kind) (mistake : Mistake) (ts : List Token) : Except Failure (Found Token) :=
  if at? ts kind then .ok (current ts, advance ts) else fail mistake (current ts) ts

/-- Takes a closing delimiter. Anything that cannot stand in front of it is reported by itself. -/
def expectEnd (kind : Token.Kind) (mistake : Mistake) (ts : List Token) : Except Failure (Found Token) :=
  let token := current ts
  if isBroken token.kind || (token.kind ≠ kind && !endsExpression token.kind) then
    fail (unexpected token) token ts
  else expect kind mistake ts

/-- Whether a token begins right behind another. -/
def adjacent (left right : Token) : Bool :=
  left.position.offset + left.value.length == right.position.offset

/-- Tokens that make up a bare word, such as `5n` or `n+7`. -/
def isWordPart (kind : Token.Kind) : Bool :=
  kind == .identifier || kind == .number || kind == .unknown

/-- Whether two tokens belong to one bare word. -/
def glued (left right : Token) : Bool :=
  isWordPart left.kind && isWordPart right.kind && adjacent left right

/-- The rest of a bare word behind its first token. -/
def gluedRun (left : Token) : List Token → List Token × List Token
  | [] => ([], [])
  | t :: rest =>
    if glued left t then
      let (run, behind) := gluedRun t rest
      (t :: run, behind)
    else ([], t :: rest)

/-- Tokens that may go on a name behind a colon, as in `schema:@Article:author`. -/
def isNamePart (token : Token) : Bool :=
  match token.kind with
  | .identifier | .dot | .colon | .number | .leftBracket | .rightBracket => true
  | .unknown => token.value == "*"
  | _ => false

/-- The rest of a name behind a colon. A string right behind a colon ends the name. -/
def prefixedName (name : String) (previous : Token) : List Token → String × List Token
  | [] => (name, [])
  | t :: rest =>
    if !adjacent previous t then (name, t :: rest)
    else if t.kind = .string && previous.kind = .colon then (name ++ quote t.value, rest)
    else if isNamePart t then prefixedName (name ++ t.value) t rest
    else (name, t :: rest)

/-- The number that a token writes; one without a point is an integer. -/
def numberLiteral (raw : String) : Except Fault Literal :=
  if raw.toList.contains '.' then .ok (.float ((Decimal.readFloat? raw).getD 0.0))
  else (Decimal.readInt raw).map .int

/-- The comparison that a kind of token writes. -/
def comparison? : Token.Kind → Option Operator
  | .equal => some .equal
  | .notEqual => some .notEqual
  | .greater => some .greater
  | .less => some .less
  | .atLeast => some .atLeast
  | .atMost => some .atMost
  | .containsWord => some .contains
  | _ => none

/-- The separator that a kind of token writes. -/
def separator? : Token.Kind → Option Separator
  | .comma => some .comma
  | .colon => some .colon
  | _ => none

/-- The three operators that chain to the left. -/
inductive Chain where
  | fallback
  | or
  | and
deriving Repr, DecidableEq

namespace Chain

def token : Chain → Token.Kind
  | fallback => .fallback
  | or => .orWord
  | and => .andWord

def operator : Chain → Operator
  | fallback => .fallback
  | or => .or
  | and => .and

/-- What is wrong when nothing follows the operator. -/
def missing : Chain → Mistake
  | fallback => .noFallback
  | or => .noOperand "or"
  | and => .noOperand "and"

end Chain

mutual

/-- Reads operands of a chain with the operator between them. -/
def readChain : Nat → Nat → Chain → List Token → Except Failure (Found (Option Expr))
  | 0, _, _, ts => fail .tooDeep (current ts) ts
  | fuel + 1, room, chain, ts => do
    match ← readOperand fuel room chain ts with
    | (none, rest) => return (none, rest)
    | (some left, rest) => readChainTail fuel room chain left rest
termination_by structural fuel => fuel

/-- Reads what follows the first operand of a chain. -/
def readChainTail : Nat → Nat → Chain → Expr → List Token → Except Failure (Found (Option Expr))
  | 0, _, _, _, ts => fail .tooDeep (current ts) ts
  | fuel + 1, room, chain, left, ts =>
    if at? ts chain.token then do
      let op := current ts
      match ← readOperand fuel room chain (advance ts) with
      | (none, rest) => fail chain.missing op rest
      | (some right, rest) =>
        readChainTail fuel room chain (.binary chain.operator left right op.place) rest
    else .ok (some left, ts)
termination_by structural fuel => fuel

def readOperand : Nat → Nat → Chain → List Token → Except Failure (Found (Option Expr))
  | 0, _, _, ts => fail .tooDeep (current ts) ts
  | fuel + 1, room, chain, ts =>
    match chain with
    | .fallback => readChain fuel room .or ts
    | .or => readChain fuel room .and ts
    | .and => readNegation fuel room ts
termination_by structural fuel => fuel

def readNegation : Nat → Nat → List Token → Except Failure (Found (Option Expr))
  | 0, _, ts => fail .tooDeep (current ts) ts
  | fuel + 1, room, ts =>
    if at? ts .notWord then do
      let op := current ts
      let room ← deeper room ts
      match ← readNegation fuel room (advance ts) with
      | (none, rest) => fail (.noOperand "not") op rest
      | (some argument, rest) => return (some (.not argument op.place), rest)
    else readComparison fuel room ts
termination_by structural fuel => fuel

/-- Reads one comparison, or an expression without one. -/
def readComparison : Nat → Nat → List Token → Except Failure (Found (Option Expr))
  | 0, _, ts => fail .tooDeep (current ts) ts
  | fuel + 1, room, ts => do
    match ← readFiltered fuel room ts with
    | (none, rest) => return (none, rest)
    | (some left, rest) =>
      let op := current rest
      match comparison? op.kind with
      | none => return (some left, rest)
      | some operator =>
        match ← readFiltered fuel room (advance rest) with
        | (none, rest) => fail (.noOperand op.value) op rest
        | (some right, rest) => return (some (.binary operator left right op.place), rest)
termination_by structural fuel => fuel

def readFiltered : Nat → Nat → List Token → Except Failure (Found (Option Expr))
  | 0, _, ts => fail .tooDeep (current ts) ts
  | fuel + 1, room, ts => do
    match ← readPostfix fuel room true ts with
    | (none, rest) => return (none, rest)
    | (some value, rest) => readFilters fuel room value rest
termination_by structural fuel => fuel

def readFilters : Nat → Nat → Expr → List Token → Except Failure (Found (Option Expr))
  | 0, _, _, ts => fail .tooDeep (current ts) ts
  | fuel + 1, room, value, ts =>
    if at? ts .pipe then do
      let ts := advance ts
      let name := current ts
      if name.kind ≠ .identifier then fail .noFilterName name ts
      else
        let ts := advance ts
        if at? ts .colon then
          let ts := advance ts
          if at? ts .leftParen then
            let (args, rest) ← readParenArgs fuel room (advance ts)
            let (_, rest) ← expect .rightParen .parenNotClosed rest
            readFilters fuel room (.filter value name.value args [] true name.place) rest
          else
            match ← readArgument fuel room ts with
            | (none, rest) =>
              readFilters fuel room (.filter value name.value [] [] false name.place) rest
            | (some first, rest) =>
              let ((separators, args), rest) ← readMoreArgs fuel room rest
              readFilters fuel room
                (.filter value name.value (first :: args) separators false name.place) rest
        else readFilters fuel room (.filter value name.value [] [] false name.place) ts
    else .ok (some value, ts)
termination_by structural fuel => fuel

/-- Reads the arguments that follow the first one, each behind a separator. -/
def readMoreArgs : Nat → Nat → List Token → Except Failure (Found (List Separator × List Expr))
  | 0, _, ts => fail .tooDeep (current ts) ts
  | fuel + 1, room, ts =>
    match separator? (current ts).kind with
    | none => .ok (([], []), ts)
    | some separator => do
      match ← readArgument fuel room (advance ts) with
      | (none, rest) => fail (.noArgument (current ts).value) (current rest) rest
      | (some arg, rest) =>
        let ((separators, args), rest) ← readMoreArgs fuel room rest
        return ((separator :: separators, arg :: args), rest)
termination_by structural fuel => fuel

/-- Reads arguments up to a closing parenthesis, which is left. -/
def readParenArgs : Nat → Nat → List Token → Except Failure (Found (List Expr))
  | 0, _, ts => fail .tooDeep (current ts) ts
  | fuel + 1, room, ts =>
    if at? ts .rightParen || endsExpression (current ts).kind then .ok ([], ts)
    else do
      let inner ← deeper room ts
      match ← readChain fuel inner .or ts with
      | (none, rest) => return ([], rest)
      | (some arg, rest) =>
        if at? rest .comma then
          let (args, rest) ← readParenArgs fuel room (advance rest)
          return (arg :: args, rest)
        else return ([arg], rest)
termination_by structural fuel => fuel

/-- Reads an argument: a bare word, or a primary expression with its brackets and points. -/
def readArgument : Nat → Nat → List Token → Except Failure (Found (Option Expr))
  | 0, _, ts => fail .tooDeep (current ts) ts
  | fuel + 1, room, ts =>
    match ts with
    | first :: rest =>
      match gluedRun first rest with
      | ([], _) => readPostfix fuel room false ts
      | (run, behind) =>
        let raw := String.join ((first :: run).map (·.value))
        .ok (some (.identifier raw first.place), behind)
    | [] => readPostfix fuel room false ts
termination_by structural fuel => fuel

/-- Reads a primary expression with the brackets and points behind it. -/
def readPostfix : Nat → Nat → Bool → List Token → Except Failure (Found (Option Expr))
  | 0, _, _, ts => fail .tooDeep (current ts) ts
  | fuel + 1, room, prefixed, ts => do
    match ← readPrimary fuel room prefixed ts with
    | (none, rest) => return (none, rest)
    | (some e, rest) => readAccess fuel room e rest
termination_by structural fuel => fuel

/-- Reads the brackets and points behind an expression. -/
def readAccess : Nat → Nat → Expr → List Token → Except Failure (Found (Option Expr))
  | 0, _, _, ts => fail .tooDeep (current ts) ts
  | fuel + 1, room, e, ts =>
    if at? ts .leftBracket then do
      let bracket := current ts
      let ts := advance ts
      if at? ts .rightBracket then fail .emptyBrackets bracket ts
      else
        let inner ← deeper room ts
        match ← readChain fuel inner .fallback ts with
        | (none, rest) => fail .emptyBrackets bracket rest
        | (some key, rest) =>
          let (_, rest) ← expect .rightBracket .bracketNotClosed rest
          readAccess fuel room (.index e key bracket.place) rest
    else if at? ts .dot && (second ts).kind == .identifier then
      let dot := current ts
      let name := (current (advance ts)).value
      readAccess fuel room (.member e name dot.place) (advance (advance ts))
    else .ok (some e, ts)
termination_by structural fuel => fuel

/-- Reads a primary expression. Behind a colon a name may go on, unless it is an argument. -/
def readPrimary : Nat → Nat → Bool → List Token → Except Failure (Found (Option Expr))
  | 0, _, _, ts => fail .tooDeep (current ts) ts
  | fuel + 1, room, prefixed, ts =>
    let token := current ts
    let rest := advance ts
    match token.kind with
    | .leftParen =>
      if at? rest .rightParen then fail .emptyParens token rest
      else do
        let inner ← deeper room rest
        match ← readChain fuel inner .fallback rest with
        | (none, rest) => fail .emptyParens token rest
        | (some inner, rest) =>
          let (_, rest) ← expect .rightParen .parenNotClosed rest
          return (some (.group inner token.place), rest)
    | .string => .ok (some (.literal (.text token.value) token.place), rest)
    | .number => do
      let number ← orFault (numberLiteral token.value) ts
      return (some (.literal number token.place), rest)
    | .boolean =>
      .ok (some (.literal (.bool (Text.toLower token.value == "true")) token.place), rest)
    | .null => .ok (some (.literal .null token.place), rest)
    | .identifier =>
      if prefixed && at? rest .colon && adjacent token (current rest) then
        let (name, rest) := prefixedName (token.value ++ ":") (current rest) (advance rest)
        .ok (some (.identifier name token.place), rest)
      else .ok (some (.identifier token.value token.place), rest)
    | .unknown => fail (unexpected token) token ts
    | .openString => fail (unexpected token) token ts
    | _ => .ok (none, ts)
termination_by structural fuel => fuel

end

/-- Steps that suffice for a list of tokens: at each token reading goes through every level of
binding at most once more. -/
def stepBound (ts : List Token) : Nat := 16 * ts.length + 16

/-- Reads an expression, if one begins here. -/
def readExpr (room : Nat) (ts : List Token) : Except Failure (Found (Option Expr)) :=
  readChain (stepBound ts) room .fallback ts

end Tokens

end NoteTemplate
