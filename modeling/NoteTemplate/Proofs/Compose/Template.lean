import NoteTemplate.Proofs.Compose.Nodes
import NoteTemplate.Proofs.RoundTrip.Template

/-! Reading two texts in a row. The second one begins with a construct where the
first one is back in plain text, and the blocks of each are balanced. Then what
is read of both together is what is read of the one and, moved behind it, what is
read of the other. What stops the reading of either of them, such as a nesting that is
too deep, stops it for the whole. -/
namespace NoteTemplate

open Token Node

/-- What is read of a text and, behind it, of another one. -/
def Parsed.followedBy (origin : Position) (first second : Parsed (List Node)) :
    Parsed (List Node) :=
  ⟨first.result ++ movedAll origin second.result,
    first.errors ++ second.errors.map (TemplateError.moved origin), first.position + second.position⟩

/-- The tokens of a text in front of its end, and those of a text that begins
there with a construct. -/
structure InARow (origin : Position) (front back : List Token) : Prop where
  proper : origin.Proper
  inside : ∀ t ∈ front, t.kind ≠ .endOfText
  closed : ∀ t ∈ front.getLast?, t.kind.closes = true
  opens : ∃ t later, back = t :: later ∧ t.position = Position.start ∧
    (t.kind = .variableStart ∨ t.kind = .tagStart)
  ends : ∃ inner last, back = inner ++ [last] ∧ last.kind = .endOfText ∧
    ∀ t ∈ inner, t.kind ≠ .endOfText

namespace InARow

variable {origin : Position} {front back : List Token}

theorem getLast?_eq_of_succ {ts : List Token} {i : Nat} (h : i + 1 = ts.length) :
    ts.getLast? = ts[i]? := by
  rw [List.getLast?_eq_getElem?, ← h, Nat.add_sub_cancel]

theorem front_token (i : Nat) (hi : i < front.length ∨ i = front.length ∧ false = true) :
    ∃ t, (front ++ [endAt origin])[i]? = some t ∧
      (front ++ back.map (Token.moved origin))[i]? = some (t.moved Position.start) := by
  have hLess : i < front.length := hi.resolve_right fun hEnd => Bool.noConfusion hEnd.2
  refine ⟨front[i], ?_, ?_⟩
  · rw [List.getElem?_append_left hLess, List.getElem?_eq_getElem hLess]
  · rw [List.getElem?_append_left hLess, List.getElem?_eq_getElem hLess, Token.moved_start]

section

variable (h : InARow origin front back)
include h

theorem front_inner (i : Nat) (hi : i < front.length) (t : Token)
    (hAt : (front ++ [endAt origin])[i]? = some t) : t.kind ≠ .endOfText := by
  rw [List.getElem?_append_left hi] at hAt
  exact h.inside t (List.mem_of_getElem? hAt)

/-- The end of the first text corresponds to the first token of the second one. -/
theorem front_last : ∃ e t, (front ++ [endAt origin])[front.length]? = some e ∧
    e.kind = .endOfText ∧ (front ++ back.map (Token.moved origin))[front.length]? = some t ∧
    t.place = e.place.moved Position.start ∧
      (t.kind = .endOfText ∨ t.kind = .variableStart ∨ t.kind = .tagStart) := by
  obtain ⟨t, later, rfl, hPosition, hKind⟩ := h.opens
  refine ⟨endAt origin, t.moved origin, List.getElem?_concat_length, rfl, ?_, ?_, .inr hKind⟩
  · rw [List.map_cons, List.getElem?_append_right (Nat.le_refl _), Nat.sub_self]
    rfl
  · rw [Place.moved_start, Token.place, Token.place, Token.moved, hPosition, h.proper.start_moved]
    rfl

theorem front_closed (i : Nat) (hi : i + 1 = front.length) (t : Token)
    (hAt : (front ++ [endAt origin])[i]? = some t) : t.kind.closes = true := by
  rw [List.getElem?_append_left (by omega)] at hAt
  exact h.closed t ((getLast?_eq_of_succ hi).trans hAt)

theorem length_back : back.length = back.length - 1 + 1 := by
  obtain ⟨t, later, rfl, -⟩ := h.opens
  rfl

theorem back_token (i : Nat) (hi : i < back.length - 1 ∨ i = back.length - 1 ∧ true = true) :
    ∃ t, back[i]? = some t ∧ (back.map (Token.moved origin))[i]? = some (t.moved origin) := by
  have hLength := h.length_back
  have hLess : i < back.length := by omega
  refine ⟨back[i], List.getElem?_eq_getElem hLess, ?_⟩
  rw [List.getElem?_map, List.getElem?_eq_getElem hLess]
  rfl

theorem back_inner (i : Nat) (hi : i < back.length - 1) (t : Token) (hAt : back[i]? = some t) :
    t.kind ≠ .endOfText := by
  obtain ⟨inner, last, rfl, -, hInner⟩ := h.ends
  rw [List.length_append, List.length_singleton, Nat.add_sub_cancel] at hi
  rw [List.getElem?_append_left hi] at hAt
  exact hInner t (List.mem_of_getElem? hAt)

/-- The end of the second text corresponds to the end of both. -/
theorem back_last : ∃ e t, back[back.length - 1]? = some e ∧ e.kind = .endOfText ∧
    (back.map (Token.moved origin))[back.length - 1]? = some t ∧ t.place = e.place.moved origin ∧
      (t.kind = .endOfText ∨ t.kind = .variableStart ∨ t.kind = .tagStart) := by
  obtain ⟨inner, last, rfl, hKind, -⟩ := h.ends
  have hLast : (inner ++ [last])[(inner ++ [last]).length - 1]? = some last := by
    rw [List.length_append, List.length_singleton, Nat.add_sub_cancel]
    exact List.getElem?_concat_length
  exact ⟨last, last.moved origin, hLast, hKind, by rw [List.getElem?_map, hLast]; rfl, rfl,
    .inl hKind⟩

end

/-- The first text as a part of both. -/
def frontExcerpt (h : InARow origin front back) : Excerpt where
  origin := Position.start
  part := front ++ [endAt origin]
  whole := front ++ back.map (Token.moved origin)
  size := front.length
  final := false
  length := List.length_append
  token := front_token
  inner := h.front_inner
  last := h.front_last
  closed := fun _ => h.front_closed

/-- The second text as a part of both. -/
def backExcerpt (h : InARow origin front back) : Excerpt where
  origin := origin
  part := back
  whole := back.map (Token.moved origin)
  size := back.length - 1
  final := true
  length := h.length_back
  token := h.back_token
  inner := h.back_inner
  last := h.back_last
  closed := fun hFinal => Bool.noConfusion hFinal

/-! The parts. -/

/-- Tokens that are a template by themselves. -/
def alone (room : Nat) (tokens : List Token) : Source := ⟨tokens, BlockMap.ofTokens tokens, room⟩

section

variable (h : InARow origin front back)
  (hFront : (BlockMap.ofTokens (front ++ [endAt origin])).issues = [])
  (hBack : (BlockMap.ofTokens back).issues = [])
include h hFront hBack

theorem joins :
    BlockMap.Joins origin (front ++ [endAt origin]) back (front ++ back.map (Token.moved origin))
      front.length := by
  refine BlockMap.joins_append (fun t hLast hStart => ?_) hFront hBack origin
  have hCloses := h.closed t hLast
  rw [hStart] at hCloses
  cases hCloses

/-- Alone, the first text is read as the front of both is. -/
theorem front_within (room : Nat) :
    Within h.frontExcerpt (alone room (front ++ [endAt origin]))
      (alone room (front ++ back.map (Token.moved origin))) 0 where
  part := rfl
  whole := rfl
  room := rfl
  block := fun start block hBlock => by
    rw [Nat.zero_add]
    exact ((h.joins hFront hBack).left start block hBlock).trans
      (congrArg some (Block.moved_start block).symm)
  closed := fun _ _ _ hTag hRole => BlockMap.exists_whole hFront hTag hRole
  first := .inl rfl

/-- Alone, the second text is read as the back of both is. -/
theorem back_within (room : Nat) :
    Within h.backExcerpt (alone room back) (alone room (front ++ back.map (Token.moved origin)))
      front.length where
  part := rfl
  whole := List.drop_left
  room := rfl
  block := (h.joins hFront hBack).right
  closed := fun _ _ _ hTag hRole => BlockMap.exists_whole hBack hTag hRole
  first := .inr fun t hFirst => by
    obtain ⟨first, later, hTokens, -, hKind⟩ := h.opens
    have hSame : first = t := by
      rw [show h.backExcerpt.part = first :: later from hTokens] at hFirst
      exact Option.some.inj hFirst
    rw [← hSame]
    rcases hKind with hKind | hKind <;> rw [hKind] <;> exact Kind.noConfusion

/-- The parts of both are those of the one and those of the other, and so are the
mistakes. What is at fault with the first text, and otherwise with the second one, is
at fault with both. -/
theorem ofTokens_append (room : Nat) :
    Node.ofTokens room (front ++ back.map (Token.moved origin))
      (BlockMap.ofTokens (front ++ back.map (Token.moved origin))) = (do
        let first ← Node.ofTokens room (front ++ [endAt origin])
          (BlockMap.ofTokens (front ++ [endAt origin]))
        let second ← Node.ofTokens room back (BlockMap.ofTokens back)
        return first.followedBy origin second) := by
  have hBackLength : back.length = h.backExcerpt.size + 1 := h.backExcerpt.length
  have hFrontLength : (front ++ [endAt origin]).length = front.length + 1 := by simp
  have hLength : (front ++ back.map (Token.moved origin)).length =
      front.length + (h.backExcerpt.size + 1) := by simp [← hBackLength]
  have hStop : 0 + h.frontExcerpt.size ≤ front.length + h.backExcerpt.size := by
    rw [Nat.zero_add]
    exact Nat.le_add_right _ _
  have hSteps : Within.Suffice h.frontExcerpt (8 * (front.length + 1) + 8)
      (8 * (front.length + (h.backExcerpt.size + 1)) + 8) 0 4 := by
    show 8 * (front.length - 0) + 4 ≤ min _ _
    omega
  have hAlone (ts : List Token) : Node.ofTokens room ts (BlockMap.ofTokens ts) =
      readNodes (alone room ts) (ts.length - 1) (8 * ts.length + 8) 0 := rfl
  rw [hAlone, hAlone, hAlone, hLength, hFrontLength, hBackLength, ← Nat.add_assoc,
    Nat.add_sub_cancel, Nat.add_sub_cancel, Nat.add_sub_cancel]
  rcases (h.front_within hFront hBack room).readNodes_through hStop (Nat.zero_le _) hSteps with
    ⟨nodes, errors, later, hInner, hLater, hOuter⟩ | ⟨f, -, hInner, hOuter⟩
  · have hStepsBehind :
        Within.Suffice h.backExcerpt (8 * (h.backExcerpt.size + 1) + 8) later 0 4 := by
      have hSize : h.frontExcerpt.size = front.length := rfl
      rw [Within.Suffice]
      omega
    have hUnmoved : errors.map (TemplateError.moved Position.start) = errors := by
      rw [funext TemplateError.moved_start]
      exact List.map_id errors
    have hBehind := ((h.back_within hFront hBack room).reads _ later).nodes (Nat.le_refl _)
      (Nat.zero_le _) hStepsBehind
    refine hOuter.trans ?_
    rw [show readNodes _ front.length _ 0 = _ from hInner,
      show 0 + h.frontExcerpt.size = front.length + 0 from Nat.add_comm 0 _]
    rcases hBehind.cases with ⟨more, moreErrors, j, -, -, hInner, hOuter⟩ | ⟨f, -, hInner, hOuter⟩
    · rw [show readNodes _ h.backExcerpt.size _ 0 = _ from hInner,
        show readNodes _ (front.length + h.backExcerpt.size) later (front.length + 0) = _ from hOuter]
      show Except.ok _ = _
      rw [show h.frontExcerpt.origin = Position.start from rfl, movedAll_start, hUnmoved]
      rfl
    · rw [show readNodes _ h.backExcerpt.size _ 0 = _ from hInner,
        show readNodes _ (front.length + h.backExcerpt.size) later (front.length + 0) = _ from hOuter]
      rfl
  · rw [show readNodes _ front.length _ 0 = _ from hInner]
    exact hOuter

end

end InARow

/-! Two texts in a row. -/

/-- A boundary between constructs: both texts can be split into tokens and their
blocks are balanced, the first one ends in plain text and without a brace, and
the second one begins with a construct. -/
structure Boundary (a b : String) (first second : List Token) : Prop where
  scan : Token.scan a = .ok first
  scanBehind : Token.scan b = .ok second
  plain : EndsInText .text a.toList
  brace : a.toList.getLast? ≠ some '\x7b'
  opens : opensHere b.toList = true
  balanced : (BlockMap.ofTokens first).issues = []
  balancedBehind : (BlockMap.ofTokens second).issues = []

/-- What is read of two texts in a row is what is read of the one and, moved to the
origin, what is read of the other. -/
structure Template.Joins (origin : Position) (first second whole : Template) : Prop where
  errors : whole.errors = first.errors ++ second.errors.map (TemplateError.moved origin)
  nodes : first.errors = [] → second.errors = [] →
    whole.nodes = first.nodes ++ Node.movedAll origin second.nodes

/-- Where a text ends. -/
def Position.behind (text : String) : Position := Position.start.advance text.toList

namespace Boundary

variable {a b : String} {first second : List Token}

/-- The tokens of two texts with a boundary between them stand in a row. -/
theorem inARow (h : Boundary a b first second) :
    ∃ front, first = front ++ [endAt (Position.behind a)] ∧
      InARow (Position.behind a) front second ∧
      Token.scan (a ++ b) = .ok (front ++ second.map (Token.moved (Position.behind a))) := by
  have hProper : (Position.behind a).Proper :=
    (show Position.start.Proper from ⟨Nat.one_pos, Nat.one_pos⟩).advance a.toList
  obtain ⟨front, hFront⟩ := h.plain.precedes h.brace h.opens Position.start
  have hFirst : first = front ++ [endAt (Position.behind a)] :=
    Except.ok.inj (h.scan.symm.trans hFront.alone)
  obtain ⟨inner, hInner, hInside⟩ := (Yields.of_scan h.scan).ends
  obtain ⟨t, later, hTokens, hPosition, hOpens⟩ := scanFrom_opens h.opens h.scanBehind
  obtain ⟨innerBehind, hEnds, hInsideBehind⟩ := (Yields.of_scan h.scanBehind).ends
  have hSame : inner = front := List.append_cancel_right (hInner.symm.trans hFirst)
  refine ⟨front, hFirst, ⟨hProper, hSame ▸ hInside, hFront.closed,
    ⟨t, later, hTokens, hPosition, hOpens⟩, ⟨innerBehind, _, hEnds, rfl, hInsideBehind⟩⟩, ?_⟩
  have hMoved : scanFrom .text (Position.behind a) b.toList =
      .ok (second.map (Token.moved (Position.behind a))) := by
    have hBehind : scanFrom .text (Position.start.moved (Position.behind a)) b.toList = _ :=
      scanFrom_moved _ _ _ _ Nat.one_pos
    rw [hProper.start_moved] at hBehind
    rw [hBehind, show scanFrom .text Position.start b.toList = .ok second from h.scanBehind]
    rfl
  rw [Token.scan, String.toList_append]
  refine hFront.followed.trans ?_
  rw [show scanFrom .text (Position.start.advance a.toList) b.toList = _ from hMoved]
  rfl

/-- The parts and the mistakes of both texts are those of the one and those of the
other. -/
theorem parseUnchecked_append (h : Boundary a b first second) (room : Nat) :
    Template.parseUnchecked room (a ++ b) = (do
      let one ← Template.parseUnchecked room a
      let other ← Template.parseUnchecked room b
      return one.followedBy (Position.behind a) other) := by
  obtain ⟨front, rfl, hRow, hScan⟩ := h.inARow
  rw [Template.parseUnchecked, Template.parseUnchecked, Template.parseUnchecked, hScan, h.scan,
    h.scanBehind]
  exact hRow.ofTokens_append h.balanced h.balancedBehind room

theorem balanced_append (h : Boundary a b first second) :
    ∃ both, Token.scan (a ++ b) = .ok both ∧ (BlockMap.ofTokens both).issues = [] := by
  obtain ⟨front, rfl, hRow, hScan⟩ := h.inARow
  exact ⟨_, hScan, (hRow.joins h.balanced h.balancedBehind).issues⟩

end Boundary

namespace Template

/-- With its blocks balanced, a template is made of its parts. -/
theorem parse_of_balanced {text : String} {tokens : List Token}
    (hScan : Token.scan text = .ok tokens) (hBlocks : (BlockMap.ofTokens tokens).issues = [])
    (room : Nat) : parse room text = ofParsed (parseUnchecked room text) := by
  have hBalanced : (BlockMap.ofTokens tokens).balanced = true := by
    rw [BlockMap.balanced, hBlocks]
    rfl
  rw [parse_of_scan hScan, if_pos hBalanced, parseUnchecked, hScan]
  rfl

/-- Two results are joined before or after their mistakes are looked at. -/
theorem ofParsed_joins (origin : Position) (first second : Parsed (List Node)) :
    ∃ one other both, ofParsed (.ok first) = .ok one ∧ ofParsed (.ok second) = .ok other ∧
      ofParsed (.ok (first.followedBy origin second)) = .ok both ∧ Joins origin one other both := by
  refine ⟨_, _, _, rfl, rfl, rfl, ?_, fun hClean hCleanBehind => ?_⟩
  · obtain ⟨_, errors, _⟩ := first
    obtain ⟨_, more, _⟩ := second
    cases errors <;> cases more <;> rfl
  · obtain ⟨_, errors, _⟩ := first
    obtain ⟨_, more, _⟩ := second
    cases errors with
    | cons e rest => cases hClean
    | nil =>
        cases more with
        | cons e rest => cases hCleanBehind
        | nil => rfl

/-- What stops the reading of two texts in a row: what stops that of the first one, and
otherwise what stops that of the second one. -/
def Stops (room : Nat) (a b : String) (f : Fault) : Prop :=
  parseUnchecked room a = .error f ∨
    (∃ parsed, parseUnchecked room a = .ok parsed) ∧ parseUnchecked room b = .error f

/-- Reading is compositional at a boundary between constructs, unless one of the
texts is not read to its end. Then what stops it stops the reading of both; that there
is no room for an expression is the only mistake reported then. -/
theorem parse_append {a b : String} {first second : List Token} (h : Boundary a b first second)
    (room : Nat) :
    ((∀ f, ¬ Stops room a b f) → ∃ one other both, parse room a = .ok one ∧
      parse room b = .ok other ∧ parse room (a ++ b) = .ok both ∧
        Joins (Position.behind a) one other both) ∧
    ∀ f, Stops room a b f → parse room (a ++ b) =
      if f = .nestedTooDeeply then .ok ⟨[], [⟨.tooDeep, 1, 1⟩]⟩ else .error f := by
  obtain ⟨both, hScan, hBlocks⟩ := h.balanced_append
  rw [parse_of_balanced h.scan h.balanced, parse_of_balanced h.scanBehind h.balancedBehind,
    parse_of_balanced hScan hBlocks, h.parseUnchecked_append]
  refine ⟨fun hReads => ?_, fun f hStops => ?_⟩
  · cases hOne : parseUnchecked room a with
    | error f => exact absurd (.inl hOne) (hReads f)
    | ok one =>
        cases hOther : parseUnchecked room b with
        | error f => exact absurd (.inr ⟨⟨one, hOne⟩, hOther⟩) (hReads f)
        | ok other => exact ofParsed_joins (Position.behind a) one other
  · have hFault : (do
        let one ← parseUnchecked room a
        let other ← parseUnchecked room b
        return one.followedBy (Position.behind a) other) = .error f := by
      rcases hStops with hOne | ⟨⟨one, hOne⟩, hOther⟩
      · rw [hOne]
        rfl
      · rw [hOne, hOther]
        rfl
    rw [hFault]
    cases f <;> rfl

end Template

/-! Texts that can be split into tokens. -/

theorem exists_of_any {ε α : Type} {act : Except ε α} {p : α → Bool}
    (h : act.toOption.any p = true) : ∃ a, act = .ok a ∧ p a = true := by
  cases act with
  | error e => cases h
  | ok a => exact ⟨a, rfl, h⟩

/-- Whether nothing is wrong with the blocks of tokens. -/
def isPlainRow (tokens : List Token) : Bool := (BlockMap.ofTokens tokens).issues.isEmpty

/-- A mistake in each of two lines. -/
theorem Template.parse_append_two_lines : ∃ both,
    parse usualRoom "n: \x7b\x7b\x7d\x7d\n\x7b\x7by z\x7d\x7d" = .ok both ∧
      both.errors = [⟨.emptyVariable, 1, 4⟩, ⟨.severalWords, 2, 1⟩] := by
  obtain ⟨first, hFirst, hPlain⟩ := exists_of_any
    (show (Token.scan "n: \x7b\x7b\x7d\x7d\n").toOption.any isPlainRow = true by decide +kernel)
  obtain ⟨second, hSecond, hPlainBehind⟩ := exists_of_any
    (show (Token.scan "\x7b\x7by z\x7d\x7d").toOption.any isPlainRow = true by decide +kernel)
  have hBoundary : Boundary "n: \x7b\x7b\x7d\x7d\n" "\x7b\x7by z\x7d\x7d" first second :=
    ⟨hFirst, hSecond, .step rfl rfl (.step rfl rfl (.step rfl rfl (.step rfl rfl .done))), by decide,
      by decide, List.isEmpty_iff.mp hPlain, List.isEmpty_iff.mp hPlainBehind⟩
  obtain ⟨_, hOne, hErrorsOne⟩ := exists_of_any (show (parseUnchecked usualRoom
    "n: \x7b\x7b\x7d\x7d\n").toOption.any (·.errors == [⟨.emptyVariable, 1, 4⟩]) = true
      by decide +kernel)
  obtain ⟨_, hOther, hErrorsOther⟩ := exists_of_any (show (parseUnchecked usualRoom
    "\x7b\x7by z\x7d\x7d").toOption.any (·.errors == [⟨.severalWords, 1, 1⟩]) = true
      by decide +kernel)
  have hReads : ∀ f, ¬ Stops usualRoom "n: \x7b\x7b\x7d\x7d\n" "\x7b\x7by z\x7d\x7d" f := by
    rintro f (hFault | ⟨-, hFault⟩)
    · rw [hOne] at hFault
      cases hFault
    · rw [hOther] at hFault
      cases hFault
  obtain ⟨one, other, both, hParseOne, hParseOther, hBoth, hJoins⟩ :=
    (parse_append hBoundary usualRoom).1 hReads
  rw [parse_of_balanced hFirst hBoundary.balanced, hOne] at hParseOne
  rw [parse_of_balanced hSecond hBoundary.balancedBehind, hOther] at hParseOther
  refine ⟨both, hBoth, ?_⟩
  rw [hJoins.errors, ← Except.ok.inj hParseOne, ← Except.ok.inj hParseOther, beq_iff_eq.mp hErrorsOne,
    beq_iff_eq.mp hErrorsOther]
  rfl

/-- There is a boundary in front of any expression to print. -/
theorem boundary_inParens (n : Nat) :
    ∃ first second, Boundary "x" (Template.printing (Template.inParens n)) first second := by
  obtain ⟨first, hFirst, hPlain⟩ := exists_of_any
    (show (Token.scan "x").toOption.any isPlainRow = true by decide +kernel)
  obtain ⟨opening, tokens, closing, last, hSecond, hOpening, -, -, hTokens, hClosing, -, hLast⟩ :=
    Template.scan_printing_of_scans (scans_print (Template.canonical_inParens n)).atEdge
      (atEdge_cons rfl)
  have hBlocks := Template.blocks_eq_empty (Template.noTag_printing hTokens hOpening hClosing hLast)
  have hOpens : opensHere (Template.printing (Template.inParens n)).toList = true := by
    rw [Template.printing, String.toList_append, String.toList_append]
    rfl
  exact ⟨first, _, hFirst, hSecond, .step rfl rfl .done, by decide, hOpens,
    List.isEmpty_iff.mp hPlain, by rw [hBlocks]⟩

/-- A text that is nested too deep is not reported where it begins. -/
theorem not_joins_inParens {n : Nat} (h : Template.usualRoom < n) :
    ∃ one other both, Template.parse Template.usualRoom "x" = .ok one ∧
      Template.parse Template.usualRoom (Template.printing (Template.inParens n)) = .ok other ∧
      Template.parse Template.usualRoom ("x" ++ Template.printing (Template.inParens n)) = .ok both ∧
      ¬ Template.Joins (Position.behind "x") one other both := by
  obtain ⟨first, second, hBoundary⟩ := boundary_inParens n
  obtain ⟨parsed, hOne, -⟩ := exists_of_any (show
    (Template.parseUnchecked Template.usualRoom "x").toOption.any (fun _ => true) = true
      by decide +kernel)
  obtain ⟨hDeep, hOther⟩ := Template.parse_inParens h
  obtain ⟨both, hScan, hBlocks⟩ := hBoundary.balanced_append
  have hParse := Template.parse_of_balanced hBoundary.scan hBoundary.balanced Template.usualRoom
  have hBoth := Template.parse_of_balanced hScan hBlocks Template.usualRoom
  rw [hOne] at hParse
  rw [hBoundary.parseUnchecked_append, hOne, hDeep] at hBoth
  refine ⟨_, _, _, hParse, hOther, hBoth, fun hJoins => ?_⟩
  have hErrors := congrArg List.getLast? hJoins.errors
  rw [List.map_singleton, List.getLast?_concat] at hErrors
  revert hErrors
  decide

theorem Template.parse_append_too_deep :
    (∃ first second, Boundary "x" (printing (inParens 2000)) first second) ∧
    ∃ one other both, parse usualRoom "x" = .ok one ∧
      parse usualRoom (printing (inParens 2000)) = .ok other ∧
      parse usualRoom ("x" ++ printing (inParens 2000)) = .ok both ∧
      ¬ Joins (Position.behind "x") one other both :=
  ⟨boundary_inParens 2000, not_joins_inParens (by decide)⟩

end NoteTemplate
