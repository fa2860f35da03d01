import NoteTemplate.Proofs.RoundTrip.Printing

/-! The reader on the tokens of a canonical expression. It looks at the kinds
and the values of the tokens, never at their places, because no two tokens of a
canonical expression could belong to one bare word and no name stands in front
of a colon where the two would make up one name. -/
namespace NoteTemplate.Tokens

open Token NoteTemplate.Expr

/-- The kind of the token that comes next. -/
def nextKind (ts : List Token) : Kind := (current ts).kind

/-- The kind of the first token of an expression. -/
def firstKind : Expr → Kind
  | .literal l _ => (literalShape l).1
  | .identifier _ _ => .identifier
  | .member object _ _ => firstKind object
  | .index object _ _ => firstKind object
  | .not _ _ => .notWord
  | .binary _ left _ _ => firstKind left
  | .group _ _ => .leftParen
  | .filter value _ _ _ _ _ => firstKind value

/-- The kinds of token at which an expression begins. -/
def beginsExpression (kind : Kind) : Bool :=
  [.null, .boolean, .number, .string, .identifier, .leftParen, .notWord].contains kind

/-- Every expression begins with a token that expressions begin with. -/
theorem firstKind_begins (e : Expr) : beginsExpression (firstKind e) = true := by
  fun_induction firstKind e with
  | case1 l p => cases l <;> rfl
  | case2 => rfl
  | case3 object name p ih => exact ih
  | case4 object key p ih => exact ih
  | case5 => rfl
  | case6 operator left right p ih => exact ih
  | case7 => rfl
  | case8 value name args separators parenthesized p ih => exact ih

/-- A filter stands behind the value that it is applied to. -/
theorem shapes_filter (value : Expr) (name : String) (args : List Expr)
    (separators : List Separator) (parenthesized : Bool) (p : Place) :
    ∃ more, (Expr.filter value name args separators parenthesized p).shapes =
      value.shapes ++ (.pipe, "|") :: (.identifier, name) :: more := by
  cases args with
  | nil => exact ⟨[], by rw [shapes]⟩
  | cons first rest =>
      cases parenthesized with
      | false =>
          exact ⟨(.colon, ":") :: (first.shapes ++ shapesBehind separators rest), by simp [shapes]⟩
      | true =>
          exact ⟨(.colon, ":") :: (.leftParen, "(") :: (first.shapes ++
            shapesBehind (rest.map fun _ => .comma) rest ++ [(.rightParen, ")")]), by simp [shapes]⟩

/-- The first token of an expression. When it could go on as a bare word, the
token behind it could not. -/
theorem shapes_cons (e : Expr) : ∃ value tail, e.shapes = (firstKind e, value) :: tail ∧
    (isWordPart (firstKind e) = true → ∀ next ∈ tail.head?, isWordPart next.1 = false) := by
  -- A token behind the whole tail is the second one when the tail is empty.
  have hBehind {word : Bool} {tail : List Shape} (next : Shape) (more : List Shape)
      (hNext : isWordPart next.1 = false)
      (h : word = true → ∀ second ∈ tail.head?, isWordPart second.1 = false) :
      word = true → ∀ second ∈ (tail ++ next :: more).head?, isWordPart second.1 = false := by
    intro hWord second hSecond
    cases tail with
    | nil =>
        obtain rfl : next = second := by simpa using hSecond
        exact hNext
    | cons first tail => exact h hWord second (by simpa using hSecond)
  fun_induction firstKind e with
  | case1 l p => exact ⟨_, [], rfl, by simp⟩
  | case2 name p => exact ⟨name, [], rfl, by simp⟩
  | case3 object name p ih =>
      obtain ⟨value, tail, h, hAlone⟩ := ih
      exact ⟨value, _, by rw [shapes, h]; rfl, hBehind (.dot, ".") _ rfl hAlone⟩
  | case4 object key p ih =>
      obtain ⟨value, tail, h, hAlone⟩ := ih
      exact ⟨value, _, by rw [shapes, h]; rfl, hBehind (.leftBracket, "[") _ rfl hAlone⟩
  | case5 argument p => exact ⟨"not", _, rfl, by simp [isWordPart]⟩
  | case6 operator left right p ih =>
      obtain ⟨value, tail, h, hAlone⟩ := ih
      have hOperator : isWordPart (operatorKind operator) = false := by cases operator <;> rfl
      exact ⟨value, _, by rw [shapes, h]; rfl, hBehind (_, operator.text) _ hOperator hAlone⟩
  | case7 inner p => exact ⟨"(", _, rfl, by simp [isWordPart]⟩
  | case8 value name args separators parenthesized p ih =>
      obtain ⟨text, tail, h, hAlone⟩ := ih
      obtain ⟨more, hFilter⟩ := shapes_filter value name args separators parenthesized p
      refine ⟨text, tail ++ (.pipe, "|") :: (.identifier, name) :: more, ?_,
        hBehind (.pipe, "|") _ rfl hAlone⟩
      rw [hFilter, h]
      rfl

/-- Tokens of given shapes, the first one apart. -/
theorem exists_cons_of_map_shape {ts : List Token} {kind : Kind} {value : String}
    {tail : List Shape} (h : ts.map shape = (kind, value) :: tail) :
    ∃ t later, ts = t :: later ∧ t.kind = kind ∧ t.value = value ∧ later.map shape = tail := by
  obtain ⟨t, later, rfl, hFirst, hLater⟩ := List.map_eq_cons_iff.mp h
  obtain ⟨hKind, hValue⟩ := Prod.mk.inj hFirst
  exact ⟨t, later, rfl, hKind, hValue, hLater⟩

/-- Tokens of given shapes in two parts. -/
theorem exists_append_of_map_shape {ts : List Token} {first second : List Shape}
    (h : ts.map shape = first ++ second) :
    ∃ front back, ts = front ++ back ∧ front.map shape = first ∧ back.map shape = second :=
  List.map_eq_append_iff.mp h

/-- The tokens of an expression are at least one, and the first one is known. -/
theorem exists_first {e : Expr} {ts : List Token} (h : ts.map shape = e.shapes) :
    ∃ t later, ts = t :: later ∧ t.kind = firstKind e := by
  obtain ⟨value, tail, hCons, -⟩ := shapes_cons e
  rw [hCons] at h
  obtain ⟨t, later, hTokens, hKind, -, -⟩ := exists_cons_of_map_shape h
  exact ⟨t, later, hTokens, hKind⟩

theorem length_pos {e : Expr} {ts : List Token} (h : ts.map shape = e.shapes) : 0 < ts.length := by
  obtain ⟨t, later, rfl, -⟩ := exists_first h
  exact Nat.succ_pos _

theorem at?_iff {ts : List Token} {kind : Kind} : at? ts kind = true ↔ nextKind ts = kind := by
  simp [at?, nextKind]

theorem at?_eq_false {ts : List Token} {kind : Kind} (h : nextKind ts ≠ kind) :
    at? ts kind = false := by
  simpa [at?, nextKind] using h

/-- Whether the last operand of an expression ends with arguments of a filter
that are not in parentheses. -/
def endsInList : Expr → Bool
  | .filter _ _ (_ :: _) _ false _ => true
  | .binary _ _ right _ => endsInList right
  | .not argument _ => endsInList argument
  | _ => false

/-- Whether an expression is complete in front of a kind of token, if not all
that follows it belongs to it. -/
def stays (e : Expr) (kind : Kind) : Bool :=
  !([.leftBracket, .dot, .colon].contains kind) &&
    !(endsInList e && (isWordPart kind || kind == .comma))

/-- Whether neither a filter nor a comparison goes on at a kind of token. -/
def closes (kind : Kind) : Bool := kind != .pipe && (comparison? kind).isNone

/-- Whether no operator that binds more tightly than a chain goes on at a kind
of token. -/
def closesIn (chain : Chain) (kind : Kind) : Bool :=
  closes kind && match chain with
    | .and => true
    | .or => kind != .andWord
    | .fallback => kind != .andWord && kind != .orWord

/-- A reader comes to a result if there is room, and otherwise that there is none is
at fault. -/
def Comes {α : Type} (fits : Prop) (act result : Except Failure α) : Prop :=
  (fits → act = result) ∧ (¬ fits → ∃ rest, act = .error ⟨.fault .nestedTooDeeply, rest⟩)

section

variable {α β : Type} {p q r : Prop} {act middle result : Except Failure α}

theorem Comes.of_eq (hFits : p) (h : act = result) : Comes p act result :=
  ⟨fun _ => h, fun hNot => absurd hFits hNot⟩

/-- What comes under one condition, and goes on under another, comes under both. -/
theorem Comes.trans (hFirst : Comes p act middle) (hSecond : Comes q middle result)
    (hBoth : r ↔ p ∧ q) : Comes r act result := by
  refine ⟨fun hr => ?_, fun hr => ?_⟩
  · obtain ⟨hp, hq⟩ := hBoth.mp hr
    rw [hFirst.1 hp, hSecond.1 hq]
  · by_cases hp : p
    · rw [hFirst.1 hp]
      exact hSecond.2 fun hq => hr (hBoth.mpr ⟨hp, hq⟩)
    · exact hFirst.2 hp

theorem Comes.trans_eq (h : Comes p act middle) (hEq : middle = result) : Comes p act result :=
  hEq ▸ h

/-- What a reader comes to is handed on, and so is a fault. -/
theorem Comes.bind {a : α} (h : Comes p act (.ok a)) (next : α → Except Failure β) :
    Comes p (act >>= next) (next a) := by
  refine ⟨fun hp => by rw [h.1 hp]; rfl, fun hp => ?_⟩
  obtain ⟨rest, hAct⟩ := h.2 hp
  exact ⟨rest, by rw [hAct]; rfl⟩

/-- An expression inside of another one needs room for one more. -/
theorem Comes.within {depth : Nat} {next : Nat → Except Failure α}
    (h : ∀ inner, Comes (depth ≤ inner) (next inner) result) (room : Nat) (ts : List Token) :
    Comes (depth + 1 ≤ room) (deeper room ts >>= next) result := by
  cases room with
  | zero => exact ⟨fun hFits => absurd hFits (Nat.not_succ_le_zero _), fun _ => ⟨ts, rfl⟩⟩
  | succ inner =>
      refine ⟨fun hFits => (h inner).1 (Nat.le_of_succ_le_succ hFits), fun hDeep => ?_⟩
      exact (h inner).2 fun hFits => hDeep (Nat.succ_le_succ hFits)

end

/-- What reading a canonical expression of a level comes to, with any room. The
readers of the levels that loop go on looping behind the expression. -/
def Reads : Level → Expr → Prop
  | .primary, e => ∀ fuel joins ts rest, ts.map shape = e.shapes → 16 * ts.length ≤ fuel →
      (joins = true → nextKind rest ≠ .colon) →
      ∃ found, found.unplaced = e.unplaced ∧ ∀ room, Comes (e.depth ≤ room)
        (readPrimary fuel room joins (ts ++ rest)) (.ok (some found, rest))
  | .accessed, e => ∀ fuel joins ts rest, ts.map shape = e.shapes → 16 * ts.length + 1 ≤ fuel →
      (joins = true → nextKind rest ≠ .colon) →
      ∃ found left, found.unplaced = e.unplaced ∧ fuel ≤ left + ts.length ∧
        ∀ room, Comes (e.depth ≤ room) (readPostfix fuel room joins (ts ++ rest))
          (readAccess left room found rest)
  | .filtered, e => ∀ fuel ts rest, ts.map shape = e.shapes → 16 * ts.length + 2 ≤ fuel →
      stays e (nextKind rest) = true →
      ∃ found left, found.unplaced = e.unplaced ∧ fuel ≤ left + ts.length ∧
        ∀ room, Comes (e.depth ≤ room) (readFiltered fuel room (ts ++ rest))
          (readFilters left room found rest)
  | .comparison, e => ∀ fuel ts rest, ts.map shape = e.shapes → 16 * ts.length + 3 ≤ fuel →
      stays e (nextKind rest) = true → closes (nextKind rest) = true →
      ∃ found, found.unplaced = e.unplaced ∧ ∀ room, Comes (e.depth ≤ room)
        (readComparison fuel room (ts ++ rest)) (.ok (some found, rest))
  | .negation, e => ∀ fuel ts rest, ts.map shape = e.shapes → 16 * ts.length + 4 ≤ fuel →
      stays e (nextKind rest) = true → closes (nextKind rest) = true →
      ∃ found, found.unplaced = e.unplaced ∧ ∀ room, Comes (e.depth ≤ room)
        (readNegation fuel room (ts ++ rest)) (.ok (some found, rest))
  | .conjunction, e => ReadsChain .and 6 e
  | .disjunction, e => ReadsChain .or 8 e
  | .fallback, e => ReadsChain .fallback 10 e
where
  /-- What reading a chain of operands comes to. -/
  ReadsChain (chain : Chain) (levels : Nat) (e : Expr) : Prop :=
    ∀ fuel ts rest, ts.map shape = e.shapes → 16 * ts.length + levels ≤ fuel →
      stays e (nextKind rest) = true → closesIn chain (nextKind rest) = true →
      ∃ found left, found.unplaced = e.unplaced ∧ fuel ≤ left + ts.length ∧
        ∀ room, Comes (e.depth ≤ room) (readChain fuel room chain (ts ++ rest))
          (readChainTail left room chain found rest)

/-- A chain ends where its operator does not follow. -/
theorem readChainTail_stop {fuel : Nat} (hFuel : 0 < fuel) (room : Nat) {chain : Chain} (e : Expr)
    {rest : List Token} (hKind : nextKind rest ≠ chain.token) :
    readChainTail fuel room chain e rest = .ok (some e, rest) := by
  obtain ⟨fuel, rfl⟩ := Nat.exists_eq_add_of_lt hFuel
  rw [readChainTail, at?_eq_false hKind]
  rfl

theorem readFilters_stop {fuel : Nat} (hFuel : 0 < fuel) (room : Nat) (e : Expr)
    {rest : List Token} (hKind : nextKind rest ≠ .pipe) :
    readFilters fuel room e rest = .ok (some e, rest) := by
  obtain ⟨fuel, rfl⟩ := Nat.exists_eq_add_of_lt hFuel
  rw [readFilters, at?_eq_false hKind]
  rfl

theorem readAccess_stop {fuel : Nat} (hFuel : 0 < fuel) (room : Nat) (e : Expr)
    {rest : List Token} (hBracket : nextKind rest ≠ .leftBracket) (hDot : nextKind rest ≠ .dot) :
    readAccess fuel room e rest = .ok (some e, rest) := by
  obtain ⟨fuel, rfl⟩ := Nat.exists_eq_add_of_lt hFuel
  rw [readAccess, at?_eq_false hBracket, at?_eq_false hDot]
  rfl

/-- An expression of one token. -/
theorem reads_token {e : Expr} {kind : Kind} {value : String} (hShapes : e.shapes = [(kind, value)])
    (hDepth : e.depth = 0) (hRead : ∀ token rest fuel joins, token.kind = kind →
      token.value = value → (joins = true → nextKind rest ≠ .colon) →
        ∃ found, found.unplaced = e.unplaced ∧
          ∀ room, readPrimary (fuel + 1) room joins (token :: rest) = .ok (some found, rest)) :
    Reads .primary e := by
  intro fuel joins ts rest hTokens hFuel hJoins
  rw [hShapes] at hTokens
  obtain ⟨token, later, rfl, hKind, hValue, hLater⟩ := exists_cons_of_map_shape hTokens
  obtain rfl := List.map_eq_nil_iff.mp hLater
  obtain ⟨fuel, rfl⟩ := Nat.exists_eq_add_of_lt (show 0 < fuel by simp at hFuel; omega)
  obtain ⟨found, hSame, hRead⟩ := hRead token rest _ joins hKind hValue hJoins
  exact ⟨found, hSame, fun room => .of_eq (hDepth ▸ Nat.zero_le room) (hRead room)⟩

theorem reads_null (p : Place) : Reads .primary (.literal .null p) := by
  refine reads_token rfl rfl fun token rest fuel joins hKind _ _ => ?_
  refine ⟨.literal .null token.place, rfl, fun room => ?_⟩
  rw [readPrimary, advance_cons hKind (by decide), show current (token :: rest) = token from rfl]
  simp only [hKind]

/-- Truth values are read from their words. -/
theorem reads_bool (b : Bool) (p : Place) : Reads .primary (.literal (.bool b) p) := by
  refine reads_token rfl rfl fun token rest fuel joins hKind hValue _ => ?_
  have hBool : (Text.toLower token.value == "true") = b := by
    rw [hValue]
    cases b <;> decide
  refine ⟨.literal (.bool b) token.place, rfl, fun room => ?_⟩
  rw [readPrimary, advance_cons hKind (by decide), show current (token :: rest) = token from rfl]
  simp only [hKind, hBool]

theorem reads_text (s : String) (p : Place) : Reads .primary (.literal (.text s) p) := by
  refine reads_token rfl rfl fun token rest fuel joins hKind hValue _ => ?_
  refine ⟨.literal (.text s) token.place, rfl, fun room => ?_⟩
  rw [readPrimary, advance_cons hKind (by decide), show current (token :: rest) = token from rfl]
  simp only [hKind, hValue]

/-- Names are read as they are. -/
theorem reads_identifier (name : String) (p : Place) :
    Reads .primary (.identifier name p) := by
  refine reads_token rfl rfl fun token rest fuel joins hKind hValue hJoins => ?_
  have hAlone : (joins && at? rest .colon && adjacent token (current rest)) = false := by
    cases joins with
    | false => rfl
    | true => rw [at?_eq_false (hJoins rfl), Bool.and_false, Bool.false_and]
  refine ⟨.identifier name token.place, rfl, fun room => ?_⟩
  rw [readPrimary, advance_cons hKind (by decide), show current (token :: rest) = token from rfl]
  simp only [hKind, hAlone, hValue]
  rfl

/-- An integer that can be written is read as itself. -/
theorem numberLiteral_int {n : Int} (h : (Value.int n).writable = true) :
    numberLiteral (Value.text (.int n)) = .ok (.int n) := by
  have hPoint : (Value.text (.int n)).toList.contains '.' = false := by
    rw [← Bool.not_eq_true, List.contains_iff_mem]
    intro h
    rcases Value.mem_intText h with hDash | hDigit
    · exact absurd hDash (by decide)
    · exact absurd hDigit (by decide)
  rw [Value.writable, decide_eq_true_eq] at h
  rw [numberLiteral, hPoint, Value.readInt_intText, if_pos h]
  rfl

theorem reads_int {n : Int} (h : (Value.int n).writable = true) (p : Place) :
    Reads .primary (.literal (.int n) p) := by
  refine reads_token rfl rfl fun token rest fuel joins hKind hValue _ => ?_
  refine ⟨.literal (.int n) token.place, rfl, fun room => ?_⟩
  rw [readPrimary, advance_cons hKind (by decide), show current (token :: rest) = token from rfl]
  simp only [hKind, hValue, numberLiteral_int h]
  rfl

/-- A chain between two marks is read to its end. -/
theorem Reads.toEnd {chain : Chain} {levels : Nat} {e : Expr} (h : Reads.ReadsChain chain levels e)
    (fuel : Nat) (ts rest : List Token) (hTokens : ts.map shape = e.shapes)
    (hFuel : 16 * ts.length + levels ≤ fuel) (hStays : stays e (nextKind rest) = true)
    (hCloses : closesIn chain (nextKind rest) = true) (hChain : nextKind rest ≠ chain.token) :
    ∃ found, found.unplaced = e.unplaced ∧ ∀ room, Comes (e.depth ≤ room)
      (readChain fuel room chain (ts ++ rest)) (.ok (some found, rest)) := by
  obtain ⟨found, left, hSame, hLeft, hRead⟩ := h fuel ts rest hTokens hFuel hStays hCloses
  have hLength := length_pos hTokens
  exact ⟨found, hSame, fun room =>
    (hRead room).trans_eq (readChainTail_stop (by omega) room found hChain)⟩

/-- Whether every expression is complete in front of a kind of token. -/
def ends (kind : Kind) : Bool :=
  !([.leftBracket, .dot, .colon, .comma].contains kind) && !isWordPart kind

theorem stays_of_ends {e : Expr} {kind : Kind} (h : ends kind = true) : stays e kind = true := by
  simp only [ends, Bool.and_eq_true, Bool.not_eq_true', List.contains_cons, List.contains_nil,
    Bool.or_eq_false_iff] at h
  simp only [stays, List.contains_cons, List.contains_nil, h]
  simp

theorem expect_cons {token : Token} {kind : Kind} (hKind : token.kind = kind)
    (hInner : kind ≠ .endOfText) (mistake : Mistake) (rest : List Token) :
    expect kind mistake (token :: rest) = .ok (token, rest) := by
  have hAt : at? (token :: rest) kind = true := at?_iff.mpr hKind
  rw [expect, hAt, advance_cons hKind hInner]
  rfl

theorem nextKind_append {e : Expr} {ts : List Token} (h : ts.map shape = e.shapes)
    (rest : List Token) : nextKind (ts ++ rest) = firstKind e := by
  obtain ⟨t, later, rfl, hKind⟩ := exists_first h
  exact hKind

theorem firstKind_ne {e : Expr} {kind : Kind} (h : beginsExpression kind = false) :
    firstKind e ≠ kind := by
  rintro rfl
  rw [firstKind_begins] at h
  cases h

/-- A group is read back, one level deeper. -/
theorem reads_group {inner : Expr} (p : Place) (h : Reads .fallback inner) :
    Reads .primary (.group inner p) := by
  intro fuel joins ts rest hTokens hFuel _
  rw [shapes] at hTokens
  obtain ⟨opening, later, rfl, hOpening, -, hLater⟩ := exists_cons_of_map_shape hTokens
  obtain ⟨inside, back, rfl, hInside, hBack⟩ := exists_append_of_map_shape hLater
  obtain ⟨closing, last, rfl, hClosing, -, hLast⟩ := exists_cons_of_map_shape hBack
  obtain rfl := List.map_eq_nil_iff.mp hLast
  simp only [List.length_cons, List.length_append, List.length_nil] at hFuel
  obtain ⟨fuel, rfl⟩ := Nat.exists_eq_add_of_lt (show 0 < fuel by omega)
  have hNext : nextKind (closing :: rest) = .rightParen := hClosing
  obtain ⟨found, hSame, hRead⟩ := Reads.toEnd h (0 + fuel) inside (closing :: rest) hInside
    (by omega) (by rw [hNext]; exact stays_of_ends rfl) (by rw [hNext]; rfl) (by rw [hNext]; decide)
  have hSome : at? (inside ++ closing :: rest) .rightParen = false :=
    at?_eq_false (by rw [nextKind_append hInside]; exact firstKind_ne rfl)
  refine ⟨.group found opening.place, by rw [unplaced, hSame, unplaced], fun room => ?_⟩
  simp only [List.cons_append, List.append_assoc, List.nil_append]
  rw [readPrimary, advance_cons hOpening (by decide)]
  rw [show current (opening :: (inside ++ closing :: rest)) = opening from rfl]
  simp only [hOpening, hSome, Bool.false_eq_true, if_false, depth]
  refine Comes.within (fun inner => ((hRead inner).bind _).trans_eq ?_) room _
  simp only [expect_cons hClosing (by decide)]
  rfl

/-- Behind a primary expression the reader looks for brackets and points. -/
theorem reads_primary {e : Expr} (h : Reads .primary e) : Reads .accessed e := by
  intro fuel joins ts rest hTokens hFuel hJoins
  have hLength := length_pos hTokens
  obtain ⟨fuel, rfl⟩ := Nat.exists_eq_add_of_lt (show 0 < fuel by omega)
  obtain ⟨found, hSame, hRead⟩ := h (0 + fuel) joins ts rest hTokens (by omega) hJoins
  refine ⟨found, 0 + fuel, hSame, by omega, fun room => ?_⟩
  rw [readPostfix]
  exact (hRead room).bind _

/-- An index is read back, one level deeper. -/
theorem reads_index {object key : Expr} (p : Place) (hObject : Reads .accessed object)
    (hKey : Reads .fallback key) : Reads .accessed (.index object key p) := by
  intro fuel joins ts rest hTokens hFuel _
  rw [shapes] at hTokens
  obtain ⟨front, later, rfl, hFront, hLater⟩ := exists_append_of_map_shape hTokens
  obtain ⟨bracket, later, rfl, hBracket, -, hLater⟩ := exists_cons_of_map_shape hLater
  obtain ⟨inside, back, rfl, hInside, hBack⟩ := exists_append_of_map_shape hLater
  obtain ⟨closing, last, rfl, hClosing, -, hLast⟩ := exists_cons_of_map_shape hBack
  obtain rfl := List.map_eq_nil_iff.mp hLast
  simp only [List.length_cons, List.length_append, List.length_nil] at hFuel ⊢
  have hOpen : nextKind (bracket :: (inside ++ closing :: rest)) = .leftBracket := hBracket
  obtain ⟨value, left, hValue, hLeft, hRead⟩ := hObject fuel joins front
    (bracket :: (inside ++ closing :: rest)) hFront (by omega) (by rw [hOpen]; simp)
  obtain ⟨left, rfl⟩ := Nat.exists_eq_add_of_lt (show 0 < left by omega)
  have hNext : nextKind (closing :: rest) = .rightBracket := hClosing
  obtain ⟨found, hSame, hReadKey⟩ := Reads.toEnd hKey (0 + left) inside
    (closing :: rest) hInside (by omega) (by rw [hNext]; exact stays_of_ends rfl)
    (by rw [hNext]; rfl) (by rw [hNext]; decide)
  have hSome : at? (inside ++ closing :: rest) .rightBracket = false :=
    at?_eq_false (by rw [nextKind_append hInside]; exact firstKind_ne rfl)
  refine ⟨.index value found bracket.place, 0 + left, by rw [unplaced, hValue, hSame, unplaced],
    by omega, fun room => ?_⟩
  simp only [List.cons_append, List.append_assoc, List.nil_append, depth]
  refine (hRead room).trans ?_ Nat.max_le
  rw [readAccess, at?_iff.mpr hOpen, advance_cons hBracket (by decide)]
  simp only [if_true, hSome, Bool.false_eq_true, if_false]
  refine Comes.within (fun inner => ((hReadKey inner).bind _).trans_eq ?_) room _
  simp only [expect_cons hClosing (by decide)]
  rfl

/-- A property behind a point is read back. -/
theorem reads_member {object : Expr} {name : String} (p : Place) (hObject : Reads .accessed object) :
    Reads .accessed (.member object name p) := by
  intro fuel joins ts rest hTokens hFuel _
  rw [shapes] at hTokens
  obtain ⟨front, later, rfl, hFront, hLater⟩ := exists_append_of_map_shape hTokens
  obtain ⟨dot, later, rfl, hDot, -, hLater⟩ := exists_cons_of_map_shape hLater
  obtain ⟨property, last, rfl, hProperty, hName, hLast⟩ := exists_cons_of_map_shape hLater
  obtain rfl := List.map_eq_nil_iff.mp hLast
  simp only [List.length_cons, List.length_append, List.length_nil] at hFuel ⊢
  have hPoint : nextKind (dot :: property :: rest) = .dot := hDot
  obtain ⟨value, left, hValue, hLeft, hRead⟩ := hObject fuel joins front
    (dot :: property :: rest) hFront (by omega) (by rw [hPoint]; simp)
  obtain ⟨left, rfl⟩ := Nat.exists_eq_add_of_lt (show 0 < left by omega)
  refine ⟨.member value name dot.place, 0 + left, by rw [unplaced, hValue, unplaced], by omega,
    fun room => ?_⟩
  simp only [List.cons_append, List.append_assoc, List.nil_append]
  refine (hRead room).trans_eq ?_
  rw [readAccess, at?_iff.mpr hPoint, at?_eq_false (by rw [hPoint]; decide)]
  rw [advance_cons hDot (by decide), advance_cons hProperty (by decide)]
  simp only [second, hProperty, current, List.headD, hName]
  rfl

end NoteTemplate.Tokens
