import NoteTemplate.Proofs.Compose.Nodes
import NoteTemplate.Proofs.Progress.Calls

/-! Reading a template with nothing wrong about its blocks, whatever else is wrong
with it. Every call of a reader gives a result, goes on in its region and finds
its blocks, so reading arrives at the end of the text without a mistake that is
about blocks. Only the rest of an assignment that cannot be read, when it is
skipped, may take the tag of a block with it. -/
namespace NoteTemplate

open Tokens Token Block

namespace Balanced

variable {tokens : List Token} {size i fuel : Nat}

/-- The tokens of a template as a part of themselves. -/
def excerpt (h : Balanced tokens size) : Excerpt where
  origin := Position.start
  part := tokens
  whole := tokens
  size := size
  final := true
  length := h.length
  token := fun i hi => by
    have hLess : i < tokens.length := by rw [h.length]; omega
    exact ⟨tokens[i], List.getElem?_eq_getElem hLess, by
      rw [Token.moved_start, List.getElem?_eq_getElem hLess]⟩
  inner := fun i hi t => h.inner i t hi
  last := by
    obtain ⟨t, hLast, hEnd⟩ := h.last
    exact ⟨t, t, hLast, hEnd, hLast, (Place.moved_start t.place).symm, .inl hEnd⟩
  closed := fun hFinal => Bool.noConfusion hFinal

/-- A template is an excerpt of itself, so that what is known of excerpts holds of it.
-/
theorem within (h : Balanced tokens size) (room : Nat) :
    Within h.excerpt (.ofTokens room tokens) (.ofTokens room tokens) 0 where
  part := rfl
  whole := rfl
  room := rfl
  block := fun start block hBlock => by
    rw [Nat.zero_add, hBlock]
    exact congrArg some (Block.moved_start block).symm
  closed := fun _ _ _ hTag hRole => BlockMap.exists_whole h.issues hTag hRole
  first := .inl rfl

/-- Whatever is wrong with a part, reading goes on behind it. -/
theorem readNode_arrives (h : Balanced tokens size) (hi : i < size)
    (hFuel : 8 * (size - i) + 3 ≤ fuel) (room : Nat) :
    Node.Arrives room tokens (fun parsed => i < parsed.position ∧ parsed.position ≤ size)
      (Node.readNode (.ofTokens room tokens) fuel i) := by
  have hSuffice : Within.Suffice h.excerpt fuel fuel i 3 := by
    rw [Within.Suffice, Nat.min_self]
    exact hFuel
  rcases (((h.within room).reads fuel fuel).node hi hSuffice).cases with
    ⟨node, errors, j, hLess, hj, hRead, -⟩ | ⟨f, hBlamed, hRead, -⟩
  · rw [hRead]
    exact ⟨hLess, hj⟩
  · rw [hRead]
    exact hBlamed

/-- A template is read to its end. -/
theorem ofTokens_arrives (h : Balanced tokens size) (room : Nat) :
    Node.Arrives room tokens (fun parsed => parsed.position = size)
      (Node.ofTokens room tokens (BlockMap.ofTokens tokens)) := by
  have hLength := h.length
  have hSuffice : Within.Suffice h.excerpt (8 * tokens.length + 8) (8 * tokens.length + 8) 0 4 := by
    rw [Within.Suffice, Nat.min_self]
    show 8 * (size - 0) + 4 ≤ _
    omega
  rw [Node.ofTokens, hLength, Nat.add_sub_cancel, ← hLength]
  rcases (h.within room).readNodes_through (Nat.le_of_eq (Nat.zero_add size)) (Nat.zero_le size)
    hSuffice with ⟨nodes, errors, -, hRead, -⟩ | ⟨f, hBlamed, hRead, -⟩
  · rw [show Node.readNodes _ size _ 0 = _ from hRead]
    rfl
  · rw [show Node.readNodes _ size _ 0 = _ from hRead]
    exact hBlamed

end Balanced

namespace Node

/-- Whether no assignment that cannot be read is broken off in front of a tag of
a block. -/
def SparesTags (room : Nat) (tokens : List Token) : Prop :=
  ∀ i f, (current (tokens.drop i)).kind = .tagStart → (second (tokens.drop i)).kind = .setWord →
    readAssign room (tokens.drop i) = .error f → (current f.rest).kind = .tagStart →
      role? (second f.rest).kind = none

/-- What a call of a reader is to keep to, unless one of the tokens or their number is
to blame for a fault. Parts are read up to the place asked for and not past it, and
each of them ends behind the place where it begins. Tags that are read begin a block
or nothing. The block of a condition or of a loop is there and it is closed, every
branch has a boundary behind it, and a body ends where the next tag of the block
begins. -/
def Safe (source : Source) : Call → Prop
  | .nodes stop fuel i => i ≤ stop ∧ Arrives source.room source.tokens
      (fun parsed => parsed.position = stop) (readNodes source stop fuel i)
  | .node fuel i => Arrives source.room source.tokens (fun parsed => i < parsed.position)
      (readNode source fuel i)
  | .tag _ i => ∀ role, role? (second (source.tokensFrom i)).kind = some role →
      ∃ kind, role = .opens kind
  | .conditional _ i | .loop _ i => ∃ block close,
      source.blocks.blockAt? i = some block ∧ block.close = some close
  | .branches _ branches boundaries => boundaries.length = branches.length
  | .body fuel stop i => ∀ head, Arrives source.room source.tokens
      (fun parsed => parsed.position = stop ∧ ∃ nodes, parsed.result = .ok nodes)
      (readBody source fuel head stop i)

theorem clean_nil : Clean [] := List.forall_mem_nil _

theorem clean_single {e : TemplateError} (h : e.mistake.aboutBlocks = false) : Clean [e] :=
  List.forall_mem_singleton.mpr h

theorem Clean.append {first second : List TemplateError} (hFirst : Clean first)
    (hSecond : Clean second) : Clean (first ++ second) :=
  List.forall_mem_append.mpr ⟨hFirst, hSecond⟩

variable {α β : Type} {P Q : Nat → Prop} {tokens rest : List Token} {room size stop fuel i close : Nat}

/-- What follows an attempt goes on from its result or from its mistake. -/
theorem Attempted.bind {act : Except Fault (Attempt α)}
    {next : Attempt α → Except Fault (Attempt β)} (hAct : Attempted room tokens P act)
    (hOk : ∀ a errors j, P j → Clean errors → Attempted room tokens Q (next ⟨.ok a, errors, j⟩))
    (hError : ∀ e errors j, e.mistake.aboutBlocks = false → Clean errors →
      Attempted room tokens Q (next ⟨.error e, errors, j⟩)) : Attempted room tokens Q (act >>= next) := by
  cases hAct with
  | ok a hClean hj => exact hOk a _ _ hj hClean
  | error hMistake hClean j => exact hError _ _ j hMistake hClean
  | fault hBlamed => exact .fault hBlamed

/-- Behind a result there is nothing more to fail. -/
theorem Arrives.attempted {good : Attempt α → Prop} {act : Except Fault (Attempt α)}
    {next : Attempt α → Except Fault (Attempt β)} (hAct : Arrives room tokens good act)
    (hNext : ∀ a, act = .ok a → good a → Attempted room tokens Q (next a)) :
    Attempted room tokens Q (act >>= next) := by
  cases hRead : act with
  | ok a => exact hNext a hRead (hAct.of_ok hRead)
  | error f =>
      rw [hRead] at hAct
      exact .fault hAct

/-- What stops the reader of a construct is noted, or it is a fault. -/
theorem attempted_failed (source : Source) {errors : List TemplateError} (hClean : Clean errors)
    {act : Except Failure (Found β)} {f : Failure} (hRead : act = .error f) {ts : List Token}
    (hTokens : ts <:+ tokens) (hStays : Stays room ts act) :
    Attempted room tokens P (failed source errors f : Except Fault (Attempt α)) := by
  have hExcused := (hStays.of_error hRead).2.of_suffix hTokens
  rw [failed, Failure.mistake]
  cases hCause : f.cause with
  | mistake e =>
      rw [hCause] at hExcused
      exact .error hExcused hClean _
  | fault g =>
      rw [hCause] at hExcused
      exact .fault hExcused

section

variable (h : Balanced tokens size)

include h

/-! Parts. -/

/-- The reader of parts delivers what it is to if the calls that it makes do. -/
theorem delivers_nodes (hFit : Fit tokens size (.nodes stop (fuel + 1) i))
    (hCalls : ∀ call, Makes (.ofTokens room tokens) (.nodes stop (fuel + 1) i) call →
      Delivers room tokens size call) : Delivers room tokens size (.nodes stop (fuel + 1) i) := by
  obtain ⟨hRegion, -⟩ := hFit
  rcases Nat.lt_or_eq_of_le hRegion.le with hLess | rfl
  · have hMore : at? ((Source.ofTokens room tokens).tokensFrom i) .endOfText = false :=
      h.more (Nat.lt_of_lt_of_le hLess hRegion.le_size)
    show Arrives room tokens _ (readNodes _ stop (fuel + 1) i)
    rw [Within.readNodes_more hLess hMore]
    refine (hCalls _ (.first hLess hMore) stop hRegion hLess).bind fun first hFirst hGood => ?_
    refine (hCalls _ (.later hLess hMore hFirst)).bind fun later _ hLater => ?_
    exact ⟨hLater.1, hGood.2.2.append hLater.2⟩
  · show Arrives room tokens _ (readNodes _ i (fuel + 1) i)
    rw [Within.readNodes_done (Nat.lt_irrefl _)]
    exact ⟨rfl, clean_nil⟩

/-- A construct that is read ends in its region. -/
theorem ends_of_goes {a : Option Node} {errors : List TemplateError} (hClean : Clean errors)
    {j : Nat} (hRegion : Region tokens size (i + 1) stop) (hGoes : Goes tokens size (i + 1) j) :
    Ends room tokens size i stop
      (.ok ⟨a, errors, (Source.ofTokens room tokens).positionOf (tokens.drop j)⟩) := by
  rw [h.positionOf_drop _ _ hGoes.le_size]
  exact ⟨hGoes.le, hRegion.goes hGoes, hClean⟩

/-- So does one that is skipped, unless a fault stops the reading. -/
theorem recovered_ends {act : Except Failure (Found Node)} {ts : List Token}
    {skip : List Token → List Token} (hRegion : Region tokens size (i + 1) stop)
    (hTokens : ts <:+ tokens) (hStays : Stays room ts act)
    (hFound : ∀ rest, Passes ts rest → ∃ j, Goes tokens size (i + 1) j ∧ rest = tokens.drop j)
    (hSkip : ∀ f, act = .error f → ∃ j, Goes tokens size (i + 1) j ∧ skip f.rest = tokens.drop j) :
    Ends room tokens size i stop (Within.recovered (.ofTokens room tokens) skip act) := by
  cases hRead : act with
  | ok found =>
      obtain ⟨j, hGoes, hRest⟩ := hFound found.2 (hStays.of_ok hRead)
      rw [Within.recovered, hRest]
      exact ends_of_goes h clean_nil hRegion hGoes
  | error f =>
      obtain ⟨j, hGoes, hRest⟩ := hSkip f hRead
      have hExcused := (hStays.of_error hRead).2.of_suffix hTokens
      rw [Within.recovered, hRest, Failure.mistake]
      cases hCause : f.cause with
      | mistake e =>
          rw [hCause] at hExcused
          exact ends_of_goes h (clean_single hExcused) hRegion hGoes
      | fault g =>
          rw [hCause] at hExcused
          exact hExcused

/-- The reader of one part delivers if its calls do. -/
theorem delivers_node (hCalls : ∀ call, Makes (.ofTokens room tokens) (.node (fuel + 1) i) call →
    Delivers room tokens size call) : Delivers room tokens size (.node (fuel + 1) i) := by
  intro stop hRegion hLess
  have hi : i < size := Nat.lt_of_lt_of_le hLess hRegion.le_size
  have hNext := h.advance_drop hi
  have hHere (hKind : (current (tokens.drop i)).kind ≠ .tagStart) :
      Region tokens size (i + 1) stop :=
    hRegion.goes (h.goes_next hi fun hStart => absurd hStart hKind)
  simp only [readNode, Source.tokensFrom, hNext]
  cases hKind : (current (tokens.drop i)).kind with
  | text =>
      exact ends_of_goes h clean_nil (hHere (by simp [hKind])) (.refl hi)
  | variableStart =>
      have hStays := readVariable_stays room (tokens.drop i)
      rw [hNext] at hStays
      exact recovered_ends h (hHere (by simp [hKind])) (List.drop_suffix _ _) hStays
        (fun rest hPasses => h.goes_of_passes hi hPasses)
        fun f hRead => h.goes_of_passes hi ((hStays.of_error hRead).1.trans (skipVariable_passes _))
  | tagStart => exact hCalls _ (.tag hKind) stop hRegion hLess
  | _ =>
      exact ends_of_goes h (clean_single (unexpected_aboutBlocks _)) (hHere (by simp [hKind]))
        (.refl hi)

/-! Tags. -/

theorem skipTag_goes (hi : i < size) :
    ∃ j, Goes tokens size (i + 1) j ∧ skipTag (tokens.drop i) = tokens.drop j := by
  rw [skipTag, h.advance_drop hi]
  exact h.goes_of_passes hi (skipTagRest_passes _)

/-- What is left of an assignment that cannot be read. -/
theorem skipTag_goes_behind {j : Nat} (hj : j ≤ size)
    (hNone : (current (tokens.drop j)).kind = .tagStart →
      role? (second (tokens.drop j)).kind = none) :
    ∃ k, Goes tokens size j k ∧ skipTag (tokens.drop j) = tokens.drop k := by
  rcases Nat.lt_or_eq_of_le hj with hLess | rfl
  · obtain ⟨k, hGoes, hSkip⟩ := skipTag_goes h hLess
    exact ⟨k, (h.goes_next hLess hNone).trans hGoes, hSkip⟩
  · rw [skipTag, h.advance_end]
    exact h.goes_of_passes hj (skipTagRest_passes _)

/-- A block that was read, or skipped for a mistake. -/
theorem guarded_ends {block : Block} (hFound : (BlockMap.ofTokens tokens).blockAt? i = some block)
    (hClose : block.close = some close) (hBefore : i < close) (hInside : close < size)
    (hBehind : Region tokens size (close + 1) stop) {act : Except Fault (Attempt Node)}
    (hAct : Attempted room tokens (fun j => i < j ∧ Region tokens size j stop) act) :
    Ends room tokens size i stop
      (act >>= fun attempt => pure (guarded (.ofTokens room tokens) i attempt)) := by
  cases hAct with
  | ok node hClean hRegion => exact ⟨hRegion.1, hRegion.2, hClean⟩
  | fault hBlamed => exact hBlamed
  | @error e hMistake errors hClean j =>
      obtain ⟨k, hGoes, hSkip⟩ := skipTag_goes h hInside
      have hBlock : skipBlock (.ofTokens room tokens) i = tokens.drop k := by
        rw [skipBlock, hFound, Option.bind_some, hClose, ← hSkip]
        rfl
      have hLe := hGoes.le
      show Ends room tokens size i stop
        (.ok (guarded (.ofTokens room tokens) i ⟨.error e, errors, j⟩))
      rw [guarded, hBlock, h.positionOf_drop _ _ hGoes.le_size]
      exact ⟨Nat.lt_of_lt_of_le hBefore (Nat.le_of_succ_le hLe), hBehind.goes hGoes,
        hClean.append (clean_single hMistake)⟩

/-- An assignment ends inside of its region, also where it cannot be read. -/
theorem delivers_assign (hSpares : SparesTags room tokens)
    (hStart : (current (tokens.drop i)).kind = .tagStart)
    (hWord : (second (tokens.drop i)).kind = .setWord) (hRegion : Region tokens size i stop)
    (hLess : i < stop) :
    Ends room tokens size i stop
      (Within.recovered (.ofTokens room tokens) skipTag (readAssign room (tokens.drop i))) := by
  have hi : i < size := Nat.lt_of_lt_of_le hLess hRegion.le_size
  have hBehind := hRegion.goes (h.goes_next hi fun _ => congrArg role? hWord)
  have hBegins : begins (second (tokens.drop i)).kind = false := by rw [hWord]; rfl
  have hStays := readAssign_stays room (tokens.drop i)
  have hTokens := (advance_suffix _).trans ((advance_suffix _).trans (List.drop_suffix i tokens))
  refine recovered_ends h hBehind hTokens hStays
    (fun rest hPasses => h.goes_behind_word hi hBegins hPasses) fun f hRead => ?_
  obtain ⟨j, hGoes, hRest⟩ := h.goes_behind_word hi hBegins (hStays.of_error hRead).1
  have hNone := hSpares i f hStart hWord hRead
  rw [hRest] at hNone ⊢
  obtain ⟨k, hMore, hSkip⟩ := skipTag_goes_behind h hGoes.le_size hNone
  exact ⟨k, hGoes.trans hMore, hSkip⟩

/-- The reader of a tag delivers if its calls do. -/
theorem delivers_tag (hSpares : SparesTags room tokens) (hFit : Fit tokens size (.tag (fuel + 1) i))
    (hCalls : ∀ call, Makes (.ofTokens room tokens) (.tag (fuel + 1) i) call →
      Delivers room tokens size call) : Delivers room tokens size (.tag (fuel + 1) i) := by
  obtain ⟨-, hStart, -⟩ := hFit
  intro stop hRegion hLess
  have hi : i < size := Nat.lt_of_lt_of_le hLess hRegion.le_size
  have hOpens {role : Role} (hRole : role? (second (tokens.drop i)).kind = some role) :
      ∃ kind, role = .opens kind :=
    h.opens_of_region hRegion hLess (h.mem_tags hi hStart hRole) rfl
  have hSkipped (hNone : role? (second (tokens.drop i)).kind = none) {mistake : Mistake}
      (hMistake : mistake.aboutBlocks = false) (t : Token) :
      Ends room tokens size i stop (.ok ⟨(none : Option Node), [TemplateError.atToken mistake t],
        (Source.ofTokens room tokens).positionOf (skipTag (tokens.drop i))⟩) := by
    obtain ⟨j, hGoes, hSkip⟩ := skipTag_goes h hi
    rw [hSkip]
    exact ends_of_goes h (clean_single hMistake) (hRegion.goes (h.goes_next hi fun _ => hNone)) hGoes
  have hBlock {kind : BlockKind} (hRole : role? (second (tokens.drop i)).kind = some (.opens kind))
      {act : Except Fault (Attempt Node)}
      (hAct : Attempted room tokens (fun j => i < j ∧ Region tokens size j stop) act) :
      Ends room tokens size i stop
        (act >>= fun attempt => pure (guarded (.ofTokens room tokens) i attempt)) := by
    obtain ⟨block, close, hFound, hClose, -, hSeries, hBehind⟩ :=
      h.exists_block hRegion hLess hStart hRole
    obtain ⟨hBefore, hInside, -⟩ := h.closing_of_series hSeries
    exact guarded_ends h hFound hClose hBefore hInside hBehind hAct
  simp only [readTag, Source.tokensFrom]
  cases hWord : (second (tokens.drop i)).kind with
  | ifWord =>
      exact hBlock (congrArg role? hWord) (hCalls _ (.conditional hWord) stop hRegion hLess)
  | forWord => exact hBlock (congrArg role? hWord) (hCalls _ (.loop hWord) stop hRegion hLess)
  | setWord => exact delivers_assign h hSpares hStart hWord hRegion hLess
  | elseifWord | elseWord | endifWord | endforWord =>
      obtain ⟨kind, hKind⟩ := hOpens (congrArg role? hWord)
      cases hKind
  | _ => exact hSkipped (congrArg role? hWord) rfl _

/-! Blocks. -/

/-- The end of a block that was read up to its closing tag. -/
theorem attempted_closing (hBefore : i < close) (hInside : close < size)
    (hBegins : begins (second (tokens.drop close)).kind = false)
    (hBehind : Region tokens size (close + 1) stop) (word : String) {errors : List TemplateError}
    (hClean : Clean errors) (build : Token → Node) :
    Attempted room tokens (fun j => i < j ∧ Region tokens size j stop)
      (match readClosingTag (.ofTokens room tokens) word close with
        | .error f => failed (.ofTokens room tokens) errors f
        | .ok (shut, rest) =>
          .ok ⟨.ok (build shut), errors, (Source.ofTokens room tokens).positionOf rest⟩) := by
  have hStays := readClosingTag_stays (.ofTokens room tokens) word close
  have hTokens := (advance_suffix _).trans ((advance_suffix _).trans (List.drop_suffix close tokens))
  cases hRead : readClosingTag (.ofTokens room tokens) word close with
  | error f => exact attempted_failed _ hClean hRead hTokens hStays
  | ok found =>
      obtain ⟨j, hGoes, hRest⟩ := h.goes_behind_word hInside hBegins (hStays.of_ok hRead)
      have hLe := hGoes.le
      dsimp only
      rw [hRest, h.positionOf_drop _ _ hGoes.le_size]
      exact .ok _ hClean ⟨by omega, hBehind.goes hGoes⟩

/-- The reader of a condition delivers if its calls do. -/
theorem delivers_conditional (hFit : Fit tokens size (.conditional (fuel + 1) i))
    (hCalls : ∀ call, Makes (.ofTokens room tokens) (.conditional (fuel + 1) i) call →
      Delivers room tokens size call) : Delivers room tokens size (.conditional (fuel + 1) i) := by
  obtain ⟨-, hOpens, -⟩ := hFit
  intro stop hRegion hLess
  obtain ⟨block, close, hFound, hClose, -, hSeries, hBehind⟩ :=
    h.exists_block hRegion hLess hOpens.start hOpens.role
  obtain ⟨hBefore, hInside, hBegins⟩ := h.closing_of_series hSeries
  have hBlock : ((Source.ofTokens room tokens).blocks.blockAt? i).getD default = block := by
    rw [hFound, Option.getD_some]
  simp only [readConditional, hBlock, Source.tokensFrom]
  cases hHead : readCondition room "if" (current (tokens.drop i))
      (advance (advance (tokens.drop i))) with
  | error f =>
      have hTokens := (advance_suffix _).trans ((advance_suffix _).trans (List.drop_suffix i tokens))
      exact attempted_failed _ clean_nil hHead hTokens (readCondition_stays _ _ _ _)
  | ok found =>
      obtain ⟨⟨condition, head⟩, rest⟩ := found
      cases hBounds : block.boundaries with
      | nil => simp [boundaries, hClose] at hBounds
      | cons first later =>
          refine (hCalls _ (.consequent hBlock hHead hBounds) head).attempted fun body hBody hGood => ?_
          obtain ⟨_, errors, j⟩ := body
          obtain ⟨-, hClean, nodes, rfl⟩ := hGood
          refine (hCalls _ (.branches hBlock hHead hBounds hBody) {}).bind
            (fun found more _ _ hLater => ?_)
            (fun e more j hMistake hLater => .error hMistake (hClean.append hLater) j)
          dsimp only
          rw [hClose, Option.getD_some]
          exact attempted_closing h hBefore hInside hBegins hBehind "endif" (hClean.append hLater) _

omit h in
/-- The body of a branch, and the branches behind it. -/
theorem attempted_branch {branch : Nat} {branches later : List Nat} {head : Token}
    (hHead : BranchHead (.ofTokens room tokens) branch head rest)
    (hCalls : ∀ call, Makes (.ofTokens room tokens) (.branches (fuel + 1) (branch :: branches)
      (stop :: later)) call → Delivers room tokens size call) (f : List Node → Branches) :
    Attempted room tokens (fun _ => True) (do
      let body ← readBody (.ofTokens room tokens) fuel head stop
        ((Source.ofTokens room tokens).positionOf rest)
      match body.result with
      | .error e => return ⟨.error e, body.errors, body.position⟩
      | .ok nodes =>
        let more ← readBranches (.ofTokens room tokens) fuel branches later (f nodes)
        return ⟨more.result, body.errors ++ more.errors, more.position⟩) := by
  refine (hCalls _ (.branchBody hHead) head).attempted fun body hBody hGood => ?_
  obtain ⟨_, errors, j⟩ := body
  obtain ⟨-, hClean, nodes, rfl⟩ := hGood
  exact (hCalls _ (.laterBranches hHead hBody) (f nodes)).bind
    (fun found more j _ hLater => .ok found (hClean.append hLater) trivial)
    (fun e more j hMistake hLater => .error hMistake (hClean.append hLater) j)

omit h in
/-- The reader of branches delivers if its calls do. -/
theorem delivers_branches {branches boundaries : List Nat}
    (hFit : Fit tokens size (.branches (fuel + 1) branches boundaries))
    (hCalls : ∀ call, Makes (.ofTokens room tokens) (.branches (fuel + 1) branches boundaries) call →
      Delivers room tokens size call) :
    Delivers room tokens size (.branches (fuel + 1) branches boundaries) := by
  intro found
  obtain ⟨start, close, hSeries, rfl, -⟩ := hFit
  cases branches with
  | nil => exact .ok found clean_nil trivial
  | cons branch branches =>
      rw [List.cons_append, List.tail_cons] at hCalls ⊢
      cases hBounds : branches ++ [close] with
      | nil => simp at hBounds
      | cons stop later =>
          rw [hBounds] at hCalls
          have hTokens := (advance_suffix _).trans
            ((advance_suffix _).trans (List.drop_suffix branch tokens))
          simp only [readBranches]
          split
          · next hWord =>
            cases hRead : readCondition room "elseif" (current (advance (tokens.drop branch)))
                (advance (advance (tokens.drop branch))) with
            | error f =>
                simp only [Source.tokensFrom, hRead]
                exact attempted_failed _ clean_nil hRead hTokens (readCondition_stays _ _ _ _)
            | ok result =>
                obtain ⟨⟨condition, head⟩, rest⟩ := result
                simp only [Source.tokensFrom, hRead]
                exact attempted_branch (BranchHead.conditioned hWord hRead) hCalls _
          · next hWord =>
            cases hRead : expectEnd .tagEnd (.tagNotClosed "else")
                (advance (advance (tokens.drop branch))) with
            | error f =>
                simp only [Source.tokensFrom, hRead]
                exact attempted_failed _ clean_nil hRead hTokens (expectEnd_stays rfl rfl _)
            | ok result =>
                obtain ⟨head, rest⟩ := result
                simp only [Source.tokensFrom, hRead]
                exact attempted_branch (BranchHead.otherwise hWord hRead) hCalls _

/-- The reader of a loop delivers if its calls do. -/
theorem delivers_loop (hFit : Fit tokens size (.loop (fuel + 1) i))
    (hCalls : ∀ call, Makes (.ofTokens room tokens) (.loop (fuel + 1) i) call →
      Delivers room tokens size call) : Delivers room tokens size (.loop (fuel + 1) i) := by
  obtain ⟨-, hOpens, -⟩ := hFit
  intro stop hRegion hLess
  obtain ⟨block, close, hFound, hClose, -, hSeries, hBehind⟩ :=
    h.exists_block hRegion hLess hOpens.start hOpens.role
  obtain ⟨hBefore, hInside, hBegins⟩ := h.closing_of_series hSeries
  have hShut : ((Source.ofTokens room tokens).blocks.blockAt? i).bind (·.close) = some close := by
    rw [hFound, Option.bind_some, hClose]
  simp only [readLoop, hShut, Source.tokensFrom]
  cases hHead : readLoopHead room (tokens.drop i) with
  | error f =>
      have hTokens := (advance_suffix _).trans ((advance_suffix _).trans (List.drop_suffix i tokens))
      exact attempted_failed _ clean_nil hHead hTokens (readLoopHead_stays _ _)
  | ok found =>
      refine (hCalls _ (.loopBody hHead hShut) found.1.close).attempted fun body hBody hGood => ?_
      obtain ⟨_, errors, j⟩ := body
      obtain ⟨-, hClean, nodes, rfl⟩ := hGood
      exact attempted_closing h hBefore hInside hBegins hBehind "endfor" hClean _

omit h in
/-- The reader of a body delivers if its calls do. -/
theorem delivers_body (hCalls : ∀ call, Makes (.ofTokens room tokens) (.body (fuel + 1) stop i) call →
    Delivers room tokens size call) : Delivers room tokens size (.body (fuel + 1) stop i) := by
  intro head
  rw [readBody]
  refine (hCalls _ .inside).bind fun body _ hGood => ?_
  dsimp only
  rw [if_neg (not_not.mpr hGood.1)]
  exact ⟨hGood.1, hGood.2, _, rfl⟩

/-! All calls. -/

omit h in
theorem fit_first {call : Call} (hMakes : Makes (.ofTokens room tokens) call (.node fuel i))
    (hFit : Fit tokens size call) : Fit tokens size (.node fuel i) := by
  cases hMakes with
  | first hLess hMore => exact ⟨⟨_, hFit.1, hLess⟩, Nat.le_of_succ_le_succ hFit.2⟩

/-- A call that fits delivers, since those that it makes do. -/
theorem Fit.delivers (hSpares : SparesTags room tokens) {call : Call} (hFit : Fit tokens size call) :
    Delivers room tokens size call := by
  obtain ⟨fuel, hFuel⟩ : ∃ fuel, call.fuel = fuel := ⟨_, rfl⟩
  induction fuel generalizing call with
  | zero => exact absurd (hFit.fuel_pos h) (by omega)
  | succ fuel ih =>
      have hFewer {callee : Call} (hMakes : Makes (.ofTokens room tokens) call callee)
          (hCallee : Fit tokens size callee) : Delivers room tokens size callee :=
        ih hCallee (by have hSteps := hMakes.fuel; omega)
      have hCalls : ∀ callee, Makes (.ofTokens room tokens) call callee →
          Delivers room tokens size callee :=
        fun callee hMakes => hFewer hMakes (hMakes.fit h hFit fun _ _ hNode =>
          hFewer hNode (fit_first hNode hFit))
      cases call with
      | nodes => cases hFuel; exact delivers_nodes h hFit hCalls
      | node => cases hFuel; exact delivers_node h hCalls
      | tag => cases hFuel; exact delivers_tag h hSpares hFit hCalls
      | conditional => cases hFuel; exact delivers_conditional h hFit hCalls
      | branches => cases hFuel; exact delivers_branches hFit hCalls
      | loop => cases hFuel; exact delivers_loop h hFit hCalls
      | body => cases hFuel; exact delivers_body hCalls

theorem Fit.reaches (hSpares : SparesTags room tokens) {call callee : Call} (hFit : Fit tokens size call)
    (hReaches : Reaches (.ofTokens room tokens) call callee) : Fit tokens size callee := by
  induction hReaches with
  | refl => exact hFit
  | tail _ hMakes ih =>
      exact hMakes.fit h ih fun _ _ hNode => (fit_first hNode ih).delivers h hSpares

/-- By induction on the steps of a call: every call that fits is safe, and so are those
that follow from it. -/
theorem Fit.safe (hSpares : SparesTags room tokens) {call : Call} (hFit : Fit tokens size call) :
    Safe (.ofTokens room tokens) call := by
  have hDelivers := hFit.delivers h hSpares
  cases call with
  | nodes stop fuel i =>
      exact ⟨hFit.1.le, hDelivers.imp fun _ hGood => hGood.1⟩
  | node fuel i =>
      obtain ⟨stop, hRegion, hLess⟩ := hFit.1
      exact (hDelivers stop hRegion hLess).imp fun _ hGood => hGood.1
  | tag fuel i =>
      intro role hRole
      obtain ⟨⟨stop, hRegion, hLess⟩, hStart, -⟩ := hFit
      have hi := Nat.lt_of_lt_of_le hLess hRegion.le_size
      exact h.opens_of_region hRegion hLess (h.mem_tags hi hStart hRole) rfl
  | conditional fuel i =>
      obtain ⟨-, block, close, hFound, hClose, -⟩ := exists_boundaries h hFit.1 hFit.2.1
      exact ⟨block, close, hFound, hClose⟩
  | loop fuel i =>
      obtain ⟨-, block, close, hFound, hClose, -⟩ := exists_boundaries h hFit.1 hFit.2.1
      exact ⟨block, close, hFound, hClose⟩
  | branches fuel branches boundaries =>
      obtain ⟨start, close, -, rfl, -⟩ := hFit
      show (branches ++ [close]).tail.length = branches.length
      rw [List.length_tail, List.length_append, List.length_singleton, Nat.add_sub_cancel]
  | body fuel stop i =>
      intro head
      exact (hDelivers head).imp fun _ hGood => ⟨hGood.1, hGood.2.2⟩

/-- The call for a whole template fits. -/
theorem fit_whole (hFuel : 8 * size + 4 ≤ fuel) : Fit tokens size (.nodes size fuel 0) := by
  refine ⟨⟨Nat.zero_le _, Nat.le_refl _, ?_, .inl rfl⟩, hFuel⟩
  have hNone : (tagsFrom 0 tokens).filter (·.index < 0) = [] :=
    List.filter_eq_nil_iff.mpr fun tag _ => by simp
  have hAll : (tagsFrom 0 tokens).filter (·.index < size) = tagsFrom 0 tokens :=
    List.filter_eq_self.mpr fun tag hTag => decide_eq_true (h.of_mem_tags hTag).1
  rw [level, level, countTo, countTo, hNone, hAll]
  exact (BlockMap.of_issues h.issues).1.symm

end

/-- A template without mistakes about its blocks is read to its end, whatever
stands in its tags and expressions, and every part that is read ends behind the place
where it begins, unless a number that cannot be read, or too little room for so many
tokens, is to blame for a fault. If moreover no assignment that cannot be read is broken
off in front of a tag of a block, no mistake is about blocks and every call of a reader
is safe. -/
theorem ofTokens_safe {text : String} {tokens : List Token} (hScan : Token.scan text = .ok tokens)
    (hIssues : (BlockMap.ofTokens tokens).issues = []) (room : Nat) :
    (∀ i fuel, i < tokens.length - 1 → 8 * (tokens.length - 1 - i) + 3 ≤ fuel →
      Arrives room tokens
        (fun parsed => i < parsed.position ∧ parsed.position ≤ tokens.length - 1)
        (readNode (.ofTokens room tokens) fuel i)) ∧
    Arrives room tokens
      (fun parsed => parsed.position = tokens.length - 1 ∧
        (current (tokens.drop parsed.position)).kind = .endOfText ∧
        (SparesTags room tokens → ∀ e ∈ parsed.errors, e.mistake.aboutBlocks = false))
      (Node.ofTokens room tokens (BlockMap.ofTokens tokens)) ∧
    (SparesTags room tokens → ∀ call, Reaches (.ofTokens room tokens)
      (.nodes (tokens.length - 1) (8 * tokens.length + 8) 0) call →
        Safe (.ofTokens room tokens) call) := by
  have hBalanced := balanced_of_scan hScan hIssues
  have hFit : Fit tokens (tokens.length - 1)
      (.nodes (tokens.length - 1) (8 * tokens.length + 8) 0) := fit_whole hBalanced (by omega)
  have hWhole := hBalanced.ofTokens_arrives room
  refine ⟨fun i fuel hi hFuel => hBalanced.readNode_arrives hi hFuel room, ?_, ?_⟩
  · cases hRead : Node.ofTokens room tokens (BlockMap.ofTokens tokens) with
    | error f =>
        rw [hRead] at hWhole
        exact hWhole
    | ok parsed =>
        have hPosition := hWhole.of_ok hRead
        refine ⟨hPosition, ?_, fun hSpares => ?_⟩
        · obtain ⟨last, hLast, hEnd⟩ := hBalanced.last
          rw [current, List.headD_eq_head?_getD, List.head?_drop, hPosition, hLast]
          exact hEnd
        · exact ((hFit.delivers hBalanced hSpares).of_ok hRead).2
  · exact fun hSpares call hReaches =>
      (hFit.reaches hBalanced hSpares hReaches).safe hBalanced hSpares

/-- A condition around a variable and an assignment that cannot be read. -/
def brokenText : String :=
  "\x7b% if a %\x7d\x7b\x7b|\x7d\x7d\x7b% set %\x7d\x7b% endif %\x7d"

/-- The tokens of the broken parts. -/
def brokenTokens : List Token :=
  [⟨.tagStart, "\x7b%", ⟨0, 1, 1⟩, false, false⟩, ⟨.ifWord, "if", ⟨3, 1, 4⟩, false, false⟩,
    ⟨.identifier, "a", ⟨6, 1, 7⟩, false, false⟩, ⟨.tagEnd, "%\x7d", ⟨8, 1, 9⟩, false, false⟩,
    ⟨.variableStart, "\x7b\x7b", ⟨10, 1, 11⟩, false, false⟩, ⟨.pipe, "|", ⟨12, 1, 13⟩, false, false⟩,
    ⟨.variableEnd, "\x7d\x7d", ⟨13, 1, 14⟩, false, false⟩,
    ⟨.tagStart, "\x7b%", ⟨15, 1, 16⟩, false, false⟩, ⟨.setWord, "set", ⟨18, 1, 19⟩, false, false⟩,
    ⟨.tagEnd, "%\x7d", ⟨22, 1, 23⟩, false, false⟩, ⟨.tagStart, "\x7b%", ⟨24, 1, 25⟩, false, false⟩,
    ⟨.endifWord, "endif", ⟨27, 1, 28⟩, false, false⟩, ⟨.tagEnd, "%\x7d", ⟨33, 1, 34⟩, false, false⟩,
    ⟨.endOfText, "", ⟨35, 1, 36⟩, false, false⟩]

theorem ofTokens_safe_broken :
    Arrives Template.usualRoom brokenTokens
        (fun parsed => 7 < parsed.position ∧ parsed.position ≤ 13)
        (readNode (.ofTokens Template.usualRoom brokenTokens) 51 7) ∧
      Arrives Template.usualRoom brokenTokens
        (fun parsed => parsed.position = 13 ∧
          (current (brokenTokens.drop parsed.position)).kind = .endOfText ∧
          ∀ e ∈ parsed.errors, e.mistake.aboutBlocks = false)
        (Node.ofTokens Template.usualRoom brokenTokens (BlockMap.ofTokens brokenTokens)) ∧
      ∀ call, Reaches (.ofTokens Template.usualRoom brokenTokens) (.nodes 13 120 0) call →
        Safe (.ofTokens Template.usualRoom brokenTokens) call := by
  have hScan : Token.scan brokenText = .ok brokenTokens := by decide +kernel
  have hIssues : (BlockMap.ofTokens brokenTokens).issues = [] := by decide +kernel
  have hOnly : ∀ i < 14, (second (brokenTokens.drop i)).kind = .setWord →
      (current (brokenTokens.drop i)).kind = .tagStart → i = 7 := by decide +kernel
  have hSpares : SparesTags Template.usualRoom brokenTokens := by
    intro i f hStart hWord hRead
    have hInside : i < 14 := by
      by_contra hPast
      rw [List.drop_eq_nil_of_le (Nat.not_lt.mp hPast)] at hWord
      cases hWord
    obtain rfl := hOnly i hInside hWord hStart
    have hSame : readAssign Template.usualRoom (brokenTokens.drop 7) =
        .error ⟨.mistake ⟨.noTarget, 1, 16⟩, brokenTokens.drop 9⟩ := rfl
    rw [hSame] at hRead
    cases hRead
    intro hTag
    cases hTag
  obtain ⟨hNode, hWhole, hCalls⟩ := ofTokens_safe hScan hIssues Template.usualRoom
  exact ⟨hNode 7 51 (by decide) (by decide),
    hWhole.imp fun _ hGood => ⟨hGood.1, hGood.2.1, hGood.2.2 hSpares⟩, hCalls hSpares⟩

/-- An assignment that is not closed in front of a condition. -/
def swallowedText : String := "\x7b% set x = 1 \x7b% if a %\x7d\x7b% endif %\x7d"

/-- The tokens of the assignment and the condition. -/
def swallowedTokens : List Token :=
  [⟨.tagStart, "\x7b%", ⟨0, 1, 1⟩, false, false⟩, ⟨.setWord, "set", ⟨3, 1, 4⟩, false, false⟩,
    ⟨.identifier, "x", ⟨7, 1, 8⟩, false, false⟩, ⟨.assign, "=", ⟨9, 1, 10⟩, false, false⟩,
    ⟨.number, "1", ⟨11, 1, 12⟩, false, false⟩, ⟨.tagStart, "\x7b%", ⟨13, 1, 14⟩, false, false⟩,
    ⟨.ifWord, "if", ⟨16, 1, 17⟩, false, false⟩, ⟨.identifier, "a", ⟨19, 1, 20⟩, false, false⟩,
    ⟨.tagEnd, "%\x7d", ⟨21, 1, 22⟩, false, false⟩, ⟨.tagStart, "\x7b%", ⟨23, 1, 24⟩, false, false⟩,
    ⟨.endifWord, "endif", ⟨26, 1, 27⟩, false, false⟩, ⟨.tagEnd, "%\x7d", ⟨32, 1, 33⟩, false, false⟩,
    ⟨.endOfText, "", ⟨34, 1, 35⟩, false, false⟩]

/-- Skipping the rest of the assignment takes the tag that opens the condition with
it, and the one that closes it is reported as belonging to nothing. -/
theorem skipped_tag_swallows_opening :
    Token.scan swallowedText = .ok swallowedTokens ∧
      (BlockMap.ofTokens swallowedTokens).issues = [] ∧
      ∃ parsed, Node.ofTokens Template.usualRoom swallowedTokens
          (BlockMap.ofTokens swallowedTokens) = .ok parsed ∧
        parsed.errors = [⟨.tagNotClosed "set", 1, 14⟩, ⟨.strayTag "endif", 1, 27⟩] := by
  have hBlocks : (BlockMap.ofTokens swallowedTokens).blocks =
      [⟨.conditional, 5, ⟨.ifWord, "if", ⟨16, 1, 17⟩, false, false⟩, [], some 9⟩] := by decide +kernel
  have hIssues : (BlockMap.ofTokens swallowedTokens).issues = [] := by decide +kernel
  have hMap : BlockMap.ofTokens swallowedTokens =
      ⟨[⟨.conditional, 5, ⟨.ifWord, "if", ⟨16, 1, 17⟩, false, false⟩, [], some 9⟩], []⟩ := by
    rw [← hBlocks, ← hIssues]
  refine ⟨by decide +kernel, hIssues, ?_⟩
  rw [hMap]
  exact ⟨_, rfl, by decide +kernel⟩

end Node

end NoteTemplate
