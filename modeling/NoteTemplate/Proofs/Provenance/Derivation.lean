import NoteTemplate.Proofs.Provenance.Exprs

/-! How the parts of a template come about when no mistake is found. The readers
have steps to spend, note mistakes and skip what they cannot read. Without a mistake
all that is left of this is a derivation over places in the list of tokens, and what
holds of accepted templates is proved by induction on it. -/
namespace NoteTemplate.Node

open Tokens Token

/-- What is read between two places in the list of tokens: parts, at most one part,
or the branches of a condition behind those that were found before, with the places
of their tags. -/
inductive Passage where
  | nodes (start last : Nat) (nodes : List Node)
  | node (start last : Nat) (node : Option Node)
  | branches (start last : Nat) (tags : List Nat) (found result : Branches)

/-- Where a passage begins. -/
def Passage.start : Passage → Nat
  | nodes start _ _ | node start _ _ | branches start _ _ _ _ => start

/-- What the readers of parts read without a mistake. -/
inductive Derives (source : Source) : Passage → Prop where
  | done (start : Nat) : Derives source (.nodes start start [])
  | next {start middle last : Nat} {first : Option Node} {rest : List Node}
      (hFirst : Derives source (.node start middle first))
      (hRest : Derives source (.nodes middle last rest)) :
      Derives source (.nodes start last (first.toList ++ rest))
  -- A reader without steps left gives nothing, and notes no mistake.
  | nothing (start : Nat) : Derives source (.node start start none)
  | text {start : Nat} (previous : Option Token)
      (hKind : (current (source.tokensFrom start)).kind = .text) :
      Derives source (.node start (source.positionOf (advance (source.tokensFrom start)))
        (ofText previous (current (source.tokensFrom start))))
  | print {start : Nat} {node : Node} {rest : List Token}
      (hKind : (current (source.tokensFrom start)).kind = .variableStart)
      (hRead : readVariable source.room (source.tokensFrom start) = .ok (node, rest)) :
      Derives source (.node start (source.positionOf rest) (some node))
  | assign {start : Nat} {node : Node} {rest : List Token}
      (hStart : (current (source.tokensFrom start)).kind = .tagStart)
      (hWord : (second (source.tokensFrom start)).kind = .setWord)
      (hRead : readAssign source.room (source.tokensFrom start) = .ok (node, rest)) :
      Derives source (.node start (source.positionOf rest) (some node))
  | conditional {start stop last : Nat} {block : Block} {condition : Expr} {close shut : Token}
      {rest behind : List Token} {body : List Node} {branches : Branches}
      (hStart : (current (source.tokensFrom start)).kind = .tagStart)
      (hWord : (second (source.tokensFrom start)).kind = .ifWord)
      (hBlock : source.blocks.blockAt? start = some block) (hClose : block.close = some last)
      (hHead : readCondition source.room "if" (current (source.tokensFrom start))
        (advance (advance (source.tokensFrom start))) = .ok ((condition, close), rest))
      (hBody : Derives source (.nodes (source.positionOf rest) stop body))
      (hBranches : Derives source (.branches stop last block.branches {} branches))
      (hShut : readClosingTag source "endif" last = .ok (shut, behind)) :
      Derives source (.node start (source.positionOf behind) (some (.conditional condition
        (trimBody close (current (source.tokensFrom stop)) body) branches.branches
        branches.otherwise ⟨(current (source.tokensFrom start)).trimLeft, shut.trimRight⟩
        (current (source.tokensFrom start)).place)))
  | loop {start last : Nat} {block : Block} {head : LoopHead} {shut : Token}
      {rest behind : List Token} {body : List Node}
      (hStart : (current (source.tokensFrom start)).kind = .tagStart)
      (hWord : (second (source.tokensFrom start)).kind = .forWord)
      (hBlock : source.blocks.blockAt? start = some block) (hClose : block.close = some last)
      (hHead : readLoopHead source.room (source.tokensFrom start) = .ok (head, rest))
      (hBody : Derives source (.nodes (source.positionOf rest) last body))
      (hShut : readClosingTag source "endfor" last = .ok (shut, behind)) :
      Derives source (.node start (source.positionOf behind) (some (.loop head.iterator
        head.iterable (trimBody head.close (current (source.tokensFrom last)) body)
        ⟨(current (source.tokensFrom start)).trimLeft, shut.trimRight⟩
        (current (source.tokensFrom start)).place)))
  | noBranch (last : Nat) (found : Branches) :
      Derives source (.branches last last [] found found)
  | branch {tag next last : Nat} {tags : List Nat} {found result : Branches} {condition : Expr}
      {close : Token} {rest : List Token} {body : List Node}
      (hWord : (current (advance (source.tokensFrom tag))).kind = .elseifWord)
      (hHead : readCondition source.room "elseif" (current (advance (source.tokensFrom tag)))
        (advance (advance (source.tokensFrom tag))) = .ok ((condition, close), rest))
      (hBody : Derives source (.nodes (source.positionOf rest) next body))
      (hLater : Derives source (.branches next last tags
        { found with branches := found.branches ++
            [(condition, trimBody close (current (source.tokensFrom next)) body)] } result)) :
      Derives source (.branches tag last (tag :: tags) found result)
  | otherwise {tag next last : Nat} {tags : List Nat} {found result : Branches} {close : Token}
      {rest : List Token} {body : List Node}
      (hWord : (current (advance (source.tokensFrom tag))).kind ≠ .elseifWord)
      (hHead : expectEnd .tagEnd (.tagNotClosed "else")
        (advance (advance (source.tokensFrom tag))) = .ok (close, rest))
      (hBody : Derives source (.nodes (source.positionOf rest) next body))
      (hLater : Derives source (.branches next last tags
        { found with otherwise := some (trimBody close (current (source.tokensFrom next)) body) }
        result)) :
      Derives source (.branches tag last (tag :: tags) found result)

variable {source : Source} {fuel start position : Nat}

/-- Nothing is read where a construct fails. -/
theorem result_of_failed {α : Type} {errors : List TemplateError} {f : Failure}
    {attempt : Attempt α} {a : α} (h : failed source errors f = .ok attempt) :
    attempt.result ≠ .ok a := by
  rw [failed] at h
  obtain ⟨e, -, hEnd⟩ := of_bind_ok h
  cases hEnd
  exact nofun

/-- The readers derive what they give with the steps given, if they find no mistake.
The branches of a condition are read from the first of their tags to the closing one. -/
structure Faultless (source : Source) (fuel : Nat) : Prop where
  nodes {stop position : Nat} {parsed : Parsed (List Node)}
    (h : readNodes source stop fuel position = .ok parsed) (hErrors : parsed.errors = []) :
    Derives source (.nodes position parsed.position parsed.result)
  node {position : Nat} {parsed : Parsed (Option Node)}
    (h : readNode source fuel position = .ok parsed) (hErrors : parsed.errors = []) :
    Derives source (.node position parsed.position parsed.result)
  tag {position : Nat} {parsed : Parsed (Option Node)}
    (hStart : (current (source.tokensFrom position)).kind = .tagStart)
    (h : readTag source fuel position = .ok parsed) (hErrors : parsed.errors = []) :
    Derives source (.node position parsed.position parsed.result)
  conditional {position : Nat} {attempt : Attempt Node} {node : Node}
    (hStart : (current (source.tokensFrom position)).kind = .tagStart)
    (hWord : (second (source.tokensFrom position)).kind = .ifWord)
    (h : readConditional source fuel position = .ok attempt) (hOk : attempt.result = .ok node)
    (hErrors : attempt.errors = []) : Derives source (.node position attempt.position (some node))
  branches {start : Nat} {branches boundaries : List Nat} {found result : Branches}
    {attempt : Attempt Branches} {close : Option Nat}
    (hFollows : start :: boundaries = branches ++ close.toList)
    (h : readBranches source fuel branches boundaries found = .ok attempt)
    (hOk : attempt.result = .ok result) (hErrors : attempt.errors = []) :
    ∃ last, close = some last ∧ Derives source (.branches start last branches found result)
  loop {position : Nat} {attempt : Attempt Node} {node : Node}
    (hStart : (current (source.tokensFrom position)).kind = .tagStart)
    (hWord : (second (source.tokensFrom position)).kind = .forWord)
    (h : readLoop source fuel position = .ok attempt) (hOk : attempt.result = .ok node)
    (hErrors : attempt.errors = []) : Derives source (.node position attempt.position (some node))
  body {head : Token} {stop position : Nat} {attempt : Attempt (List Node)} {nodes : List Node}
    (h : readBody source fuel head stop position = .ok attempt) (hOk : attempt.result = .ok nodes)
    (hErrors : attempt.errors = []) :
    ∃ body, nodes = trimBody head (current (source.tokensFrom stop)) body ∧
      Derives source (.nodes position stop body)

namespace Faultless

/-- Each reader with one step more derives what it gives if all do with one step less:
here the reader of parts. -/
theorem nodes_succ (h : Faultless source fuel) {stop : Nat} {parsed : Parsed (List Node)}
    (hRead : readNodes source stop (fuel + 1) position = .ok parsed)
    (hErrors : parsed.errors = []) :
    Derives source (.nodes position parsed.position parsed.result) := by
  rw [readNodes] at hRead
  split at hRead
  · obtain ⟨first, hFirst, hLater⟩ := of_bind_ok hRead
    obtain ⟨rest, hRest, hEnd⟩ := of_bind_ok hLater
    cases hEnd
    obtain ⟨hNone, hNoneRest⟩ := List.append_eq_nil_iff.mp hErrors
    exact .next (h.node hFirst hNone) (h.nodes hRest hNoneRest)
  · cases hRead
    exact .done position

/-- The step for one part. -/
theorem node_succ (h : Faultless source fuel) {parsed : Parsed (Option Node)}
    (hRead : readNode source (fuel + 1) position = .ok parsed) (hErrors : parsed.errors = []) :
    Derives source (.node position parsed.position parsed.result) := by
  rw [readNode] at hRead
  dsimp only at hRead
  split at hRead
  · next hText =>
    cases hRead
    exact .text _ hText
  · next hVariable =>
    split at hRead
    · next node rest hNode =>
      cases hRead
      exact .print hVariable hNode
    · obtain ⟨e, -, hEnd⟩ := of_bind_ok hRead
      cases hEnd
      cases hErrors
  · next hTag => exact h.tag hTag hRead hErrors
  · cases hRead
    cases hErrors

/-- A block without a mistake is not skipped. -/
theorem derives_guarded {attempt : Attempt Node}
    (hErrors : (guarded source start attempt).errors = [])
    (h : ∀ node, attempt.result = .ok node → attempt.errors = [] →
      Derives source (.node position attempt.position (some node))) :
    Derives source (.node position (guarded source start attempt).position
      (guarded source start attempt).result) := by
  rw [guarded] at hErrors ⊢
  split at hErrors
  · next node hOk => exact h node hOk hErrors
  · exact absurd hErrors (by simp)

/-- The step for a tag. -/
theorem tag_succ (h : Faultless source fuel) {parsed : Parsed (Option Node)}
    (hStart : (current (source.tokensFrom position)).kind = .tagStart)
    (hRead : readTag source (fuel + 1) position = .ok parsed) (hErrors : parsed.errors = []) :
    Derives source (.node position parsed.position parsed.result) := by
  rw [readTag] at hRead
  dsimp only at hRead
  split at hRead
  · next hWord =>
    obtain ⟨attempt, hAttempt, hEnd⟩ := of_bind_ok hRead
    cases hEnd
    exact derives_guarded hErrors fun node => h.conditional hStart hWord hAttempt
  · next hWord =>
    obtain ⟨attempt, hAttempt, hEnd⟩ := of_bind_ok hRead
    cases hEnd
    exact derives_guarded hErrors fun node => h.loop hStart hWord hAttempt
  · next hWord =>
    split at hRead
    · next node rest hAssign =>
      cases hRead
      exact .assign hStart hWord hAssign
    · obtain ⟨e, -, hEnd⟩ := of_bind_ok hRead
      cases hEnd
      cases hErrors
  all_goals
    cases hRead
    cases hErrors

/-- The step for a body, which has to end at the next tag of its block. -/
theorem body_succ (h : Faultless source fuel) {head : Token} {stop : Nat}
    {attempt : Attempt (List Node)} {nodes : List Node}
    (hRead : readBody source (fuel + 1) head stop position = .ok attempt)
    (hOk : attempt.result = .ok nodes) (hErrors : attempt.errors = []) :
    ∃ body, nodes = trimBody head (current (source.tokensFrom stop)) body ∧
      Derives source (.nodes position stop body) := by
  rw [readBody] at hRead
  obtain ⟨body, hBody, hRest⟩ := of_bind_ok hRead
  dsimp only at hRest
  split at hRest
  · cases hRest
    cases hOk
  · next hStop =>
    cases hRest
    cases hOk
    have hDerives := h.nodes hBody hErrors
    rw [not_not.mp hStop] at hDerives
    exact ⟨_, rfl, hDerives⟩

/-- The step for a loop. -/
theorem loop_succ (h : Faultless source fuel) {attempt : Attempt Node} {node : Node}
    (hStart : (current (source.tokensFrom position)).kind = .tagStart)
    (hWord : (second (source.tokensFrom position)).kind = .forWord)
    (hRead : readLoop source (fuel + 1) position = .ok attempt) (hOk : attempt.result = .ok node)
    (hErrors : attempt.errors = []) :
    Derives source (.node position attempt.position (some node)) := by
  rw [readLoop] at hRead
  dsimp only at hRead
  split at hRead
  · exact absurd hOk (result_of_failed hRead)
  · next head rest hHead =>
    split at hRead
    · cases hRead
    · next last hLast =>
      obtain ⟨block, hBlock, hClose⟩ := Option.bind_eq_some_iff.mp hLast
      obtain ⟨body, hBody, hRest⟩ := of_bind_ok hRead
      split at hRest
      · cases hRest
        cases hOk
      · next nodes hNodes =>
        split at hRest
        · exact absurd hOk (result_of_failed hRest)
        · next shut behind hShut =>
          cases hRest
          cases hOk
          obtain ⟨inner, rfl, hInner⟩ := h.body hBody hNodes hErrors
          exact .loop hStart hWord hBlock hClose hHead hInner hShut

/-- The body of a branch and the branches behind it, whichever kind the branch is of. -/
theorem body_and_later (h : Faultless source fuel) {head : Token} {rest : List Token}
    {tags boundaries : List Nat} {result : Branches} (next : List Node → Branches)
    {attempt : Attempt Branches} {close : Option Nat}
    (hRead : (match boundaries with
      | [] => .error .unclosedBody
      | stop :: later => do
        let body ← readBody source fuel head stop (source.positionOf rest)
        match body.result with
        | .error e => return ⟨.error e, body.errors, body.position⟩
        | .ok nodes =>
          let more ← readBranches source fuel tags later (next nodes)
          return ⟨more.result, body.errors ++ more.errors, more.position⟩ :
        Except Fault (Attempt Branches)) = .ok attempt)
    (hFollows : boundaries = tags ++ close.toList) (hOk : attempt.result = .ok result)
    (hErrors : attempt.errors = []) :
    ∃ stop body last, close = some last ∧
      Derives source (.nodes (source.positionOf rest) stop body) ∧
      Derives source (.branches stop last tags
        (next (trimBody head (current (source.tokensFrom stop)) body)) result) := by
  cases boundaries with
  | nil => cases hRead
  | cons stop later =>
      obtain ⟨body, hBody, hRest⟩ := of_bind_ok hRead
      split at hRest
      · cases hRest
        cases hOk
      · next nodes hNodes =>
        obtain ⟨more, hMore, hEnd⟩ := of_bind_ok hRest
        cases hEnd
        obtain ⟨hNone, hNoneLater⟩ := List.append_eq_nil_iff.mp hErrors
        obtain ⟨inner, rfl, hInner⟩ := h.body hBody hNodes hNone
        obtain ⟨last, hClose, hLater⟩ := h.branches hFollows hMore hOk hNoneLater
        exact ⟨stop, inner, last, hClose, hInner, hLater⟩

/-- The step for branches. The boundaries are the places of the tags that follow, up to
the closing one. -/
theorem branches_succ (h : Faultless source fuel) {branches boundaries : List Nat}
    {found result : Branches} {attempt : Attempt Branches} {close : Option Nat}
    (hFollows : start :: boundaries = branches ++ close.toList)
    (hRead : readBranches source (fuel + 1) branches boundaries found = .ok attempt)
    (hOk : attempt.result = .ok result) (hErrors : attempt.errors = []) :
    ∃ last, close = some last ∧ Derives source (.branches start last branches found result) := by
  cases branches with
  | nil =>
      rw [readBranches] at hRead
      cases hRead
      cases hOk
      cases close with
      | none => cases hFollows
      | some last =>
          cases hFollows
          exact ⟨start, rfl, .noBranch start _⟩
  | cons tag tags =>
      rw [List.cons_append, List.cons.injEq] at hFollows
      obtain ⟨rfl, hFollows⟩ := hFollows
      rw [readBranches] at hRead
      dsimp only at hRead
      split at hRead
      · next hWord =>
        split at hRead
        · exact absurd hOk (result_of_failed hRead)
        · next condition head rest hHead =>
          obtain ⟨stop, body, last, hClose, hBody, hLater⟩ := h.body_and_later
            (fun nodes => { found with branches := found.branches ++ [(condition, nodes)] }) hRead
            hFollows hOk hErrors
          exact ⟨last, hClose, .branch hWord hHead hBody hLater⟩
      · next hWord =>
        split at hRead
        · exact absurd hOk (result_of_failed hRead)
        · next head rest hHead =>
          obtain ⟨stop, body, last, hClose, hBody, hLater⟩ := h.body_and_later
            (fun nodes => { found with otherwise := some nodes }) hRead hFollows hOk hErrors
          exact ⟨last, hClose, .otherwise hWord hHead hBody hLater⟩

/-- The step for a condition with its branches. -/
theorem conditional_succ (h : Faultless source fuel) {attempt : Attempt Node} {node : Node}
    (hStart : (current (source.tokensFrom position)).kind = .tagStart)
    (hWord : (second (source.tokensFrom position)).kind = .ifWord)
    (hRead : readConditional source (fuel + 1) position = .ok attempt)
    (hOk : attempt.result = .ok node) (hErrors : attempt.errors = []) :
    Derives source (.node position attempt.position (some node)) := by
  rw [readConditional] at hRead
  dsimp only at hRead
  split at hRead
  · exact absurd hOk (result_of_failed hRead)
  · next condition head rest hHead =>
    split at hRead
    · cases hRead
    · next first later hBoundaries =>
      cases hBlock : source.blocks.blockAt? position with
      | none =>
          rw [hBlock] at hBoundaries
          cases hBoundaries
      | some block =>
          rw [hBlock, Option.getD_some] at hBoundaries hRead
          obtain ⟨body, hBody, hRest⟩ := of_bind_ok hRead
          split at hRest
          · cases hRest
            cases hOk
          · next nodes hNodes =>
            obtain ⟨more, hMore, hRest⟩ := of_bind_ok hRest
            split at hRest
            · cases hRest
              cases hOk
            · next branches hBranches =>
              split at hRest
              · exact absurd hOk (result_of_failed hRest)
              · next shut behind hShut =>
                cases hRest
                cases hOk
                obtain ⟨hNone, hNoneLater⟩ := List.append_eq_nil_iff.mp hErrors
                obtain ⟨inner, rfl, hInner⟩ := h.body hBody hNodes hNone
                obtain ⟨last, hClose, hLater⟩ :=
                  h.branches hBoundaries.symm hMore hBranches hNoneLater
                rw [hClose, Option.getD_some] at hShut
                exact .conditional hStart hWord hBlock hClose hHead hInner hLater hShut

end Faultless

/-- Whatever the readers give without a mistake is derived, however many steps they
have. -/
theorem faultless (source : Source) (fuel : Nat) : Faultless source fuel := by
  induction fuel with
  | zero =>
      constructor
      case nodes =>
        intro stop position parsed h hErrors
        cases h
        exact .done position
      case node =>
        intro position parsed h hErrors
        cases h
        exact .nothing position
      case tag =>
        intro position parsed hStart h hErrors
        cases h
        exact .nothing position
      case branches =>
        intro start branches boundaries found result attempt close hFollows h hOk hErrors
        rw [readBranches] at h
        cases h
        cases hOk
      case body =>
        intro head stop position attempt nodes h hOk hErrors
        cases h
        cases hOk
      all_goals
        intro position attempt node hStart hWord h hOk hErrors
        cases h
        cases hOk
  | succ fuel ih =>
      exact ⟨ih.nodes_succ, ih.node_succ, ih.tag_succ, ih.conditional_succ, ih.branches_succ,
        ih.loop_succ, ih.body_succ⟩

/-- What is read of a list of tokens without a mistake is derived. -/
theorem derives_of_ofTokens {room : Nat} {tokens : List Token} {blocks : BlockMap}
    {parsed : Parsed (List Node)} (h : ofTokens room tokens blocks = .ok parsed)
    (hErrors : parsed.errors = []) :
    Derives ⟨tokens, blocks, room⟩ (.nodes 0 parsed.position parsed.result) :=
  (faultless _ _).nodes h hErrors

end NoteTemplate.Node
