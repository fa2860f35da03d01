import Mathlib.Logic.Relation
import NoteTemplate.Proofs.Progress.Exprs
import NoteTemplate.Proofs.Progress.Regions

/-! The calls that the readers of parts make of each other while they read a
template. A call fits when it is made for a region of the template, with more
steps than tokens are left; a call that fits makes no others than such. -/
namespace NoteTemplate

open Tokens Token Block

namespace Node

/-- A call of one of the readers of parts, by what it does to the calls that
follow from it. -/
inductive Call where
  | nodes (stop fuel position : Nat)
  | node (fuel position : Nat)
  | tag (fuel position : Nat)
  | conditional (fuel position : Nat)
  | branches (fuel : Nat) (branches boundaries : List Nat)
  | loop (fuel position : Nat)
  | body (fuel stop position : Nat)

/-- The steps that a call is given. -/
def Call.fuel : Call → Nat
  | nodes _ fuel _ | node fuel _ | tag fuel _ | conditional fuel _ | branches fuel _ _
  | loop fuel _ | body fuel _ _ => fuel

/-- The end of the tag of a branch, and the tokens of its body. -/
inductive BranchHead (source : Source) (branch : Nat) : Token → List Token → Prop where
  | conditioned {condition : Expr} {close : Token} {rest : List Token}
      (hWord : (current (advance (source.tokensFrom branch))).kind = .elseifWord)
      (hRead : readCondition source.room "elseif" (current (advance (source.tokensFrom branch)))
        (advance (advance (source.tokensFrom branch))) = .ok ((condition, close), rest)) :
      BranchHead source branch close rest
  | otherwise {close : Token} {rest : List Token}
      (hWord : (current (advance (source.tokensFrom branch))).kind ≠ .elseifWord)
      (hRead : expectEnd .tagEnd (.tagNotClosed "else")
        (advance (advance (source.tokensFrom branch))) = .ok (close, rest)) :
      BranchHead source branch close rest

/-- The calls that a call makes while it reads a template. -/
inductive Makes (source : Source) : Call → Call → Prop where
  | first {stop fuel i : Nat} (hLess : i < stop)
      (hMore : at? (source.tokensFrom i) .endOfText = false) :
      Makes source (.nodes stop (fuel + 1) i) (.node fuel i)
  | later {stop fuel i : Nat} {first : Parsed (Option Node)} (hLess : i < stop)
      (hMore : at? (source.tokensFrom i) .endOfText = false)
      (hFirst : readNode source fuel i = .ok first) :
      Makes source (.nodes stop (fuel + 1) i) (.nodes stop fuel first.position)
  | tag {fuel i : Nat} (hStart : (current (source.tokensFrom i)).kind = .tagStart) :
      Makes source (.node (fuel + 1) i) (.tag fuel i)
  | conditional {fuel i : Nat} (hWord : (second (source.tokensFrom i)).kind = .ifWord) :
      Makes source (.tag (fuel + 1) i) (.conditional fuel i)
  | loop {fuel i : Nat} (hWord : (second (source.tokensFrom i)).kind = .forWord) :
      Makes source (.tag (fuel + 1) i) (.loop fuel i)
  | consequent {fuel i stop : Nat} {condition : Expr} {close : Token} {rest : List Token}
      {block : Block} {later : List Nat}
      (hBlock : (source.blocks.blockAt? i).getD default = block)
      (hHead : readCondition source.room "if" (current (source.tokensFrom i))
        (advance (advance (source.tokensFrom i))) = .ok ((condition, close), rest))
      (hBounds : block.boundaries = stop :: later) :
      Makes source (.conditional (fuel + 1) i) (.body fuel stop (source.positionOf rest))
  | branches {fuel i stop j : Nat} {condition : Expr} {close : Token} {rest : List Token}
      {block : Block} {later : List Nat} {nodes : List Node} {errors : List TemplateError}
      (hBlock : (source.blocks.blockAt? i).getD default = block)
      (hHead : readCondition source.room "if" (current (source.tokensFrom i))
        (advance (advance (source.tokensFrom i))) = .ok ((condition, close), rest))
      (hBounds : block.boundaries = stop :: later)
      (hBody : readBody source fuel close stop (source.positionOf rest) =
        .ok ⟨.ok nodes, errors, j⟩) :
      Makes source (.conditional (fuel + 1) i) (.branches fuel block.branches later)
  | branchBody {fuel branch stop : Nat} {branches later : List Nat} {close : Token}
      {rest : List Token} (hHead : BranchHead source branch close rest) :
      Makes source (.branches (fuel + 1) (branch :: branches) (stop :: later))
        (.body fuel stop (source.positionOf rest))
  | laterBranches {fuel branch stop j : Nat} {branches later : List Nat} {close : Token}
      {rest : List Token} {nodes : List Node} {errors : List TemplateError}
      (hHead : BranchHead source branch close rest)
      (hBody : readBody source fuel close stop (source.positionOf rest) =
        .ok ⟨.ok nodes, errors, j⟩) :
      Makes source (.branches (fuel + 1) (branch :: branches) (stop :: later))
        (.branches fuel branches later)
  | loopBody {fuel i stop : Nat} {head : LoopHead} {rest : List Token}
      (hHead : readLoopHead source.room (source.tokensFrom i) = .ok (head, rest))
      (hClose : (source.blocks.blockAt? i).bind (·.close) = some stop) :
      Makes source (.loop (fuel + 1) i) (.body fuel stop (source.positionOf rest))
  | inside {fuel stop i : Nat} : Makes source (.body (fuel + 1) stop i) (.nodes stop fuel i)

theorem Makes.fuel {source : Source} {call callee : Call} (h : Makes source call callee) :
    callee.fuel + 1 = call.fuel := by
  cases h <;> rfl

/-- The calls that are made, by whatever other calls, in the course of one. -/
abbrev Reaches (source : Source) : Call → Call → Prop := Relation.ReflTransGen (Makes source)

/-- A template by its tokens. -/
abbrev Source.ofTokens (room : Nat) (tokens : List Token) : Source :=
  ⟨tokens, BlockMap.ofTokens tokens, room⟩

/-- Whether no mistake is about blocks. -/
def Clean (errors : List TemplateError) : Prop :=
  ∀ e ∈ errors, e.mistake.aboutBlocks = false

/-- Whether a tag that opens a block of a kind begins at a place. -/
structure OpensAt (tokens : List Token) (i : Nat) (kind : BlockKind) : Prop where
  start : (current (tokens.drop i)).kind = .tagStart
  role : role? (second (tokens.drop i)).kind = some (.opens kind)

/-- A place inside a region. -/
def Inside (tokens : List Token) (size i : Nat) : Prop :=
  ∃ stop, Region tokens size i stop ∧ i < stop

/-- A call for a region of a template. Each token in the rest of it is worth eight
steps, since no more readers than that call each other in front of one. -/
def Fit (tokens : List Token) (size : Nat) : Call → Prop
  | .nodes stop fuel i => Region tokens size i stop ∧ 8 * (size - i) + 4 ≤ fuel
  | .node fuel i => Inside tokens size i ∧ 8 * (size - i) + 3 ≤ fuel
  | .tag fuel i => Inside tokens size i ∧ (current (tokens.drop i)).kind = .tagStart ∧
      8 * (size - i) + 2 ≤ fuel
  | .conditional fuel i => Inside tokens size i ∧ OpensAt tokens i .conditional ∧
      8 * (size - i) + 1 ≤ fuel
  | .branches fuel branches boundaries => ∃ start close, Series tokens start branches close ∧
      boundaries = (branches ++ [close]).tail ∧ 8 * (size - start) ≤ fuel
  | .loop fuel i => Inside tokens size i ∧ OpensAt tokens i .loop ∧ 8 * (size - i) + 1 ≤ fuel
  | .body fuel stop i => Region tokens size i stop ∧ 8 * (size - i) + 5 ≤ fuel

/-- A reader comes to a good result, or one of the tokens or their number is to blame
for a fault. -/
def Arrives (room : Nat) (tokens : List Token) {α : Type} (good : α → Prop) : Except Fault α → Prop
  | .ok a => good a
  | .error f => Blamed room tokens f

/-- A result behind the place where it begins, in the same region. -/
def Ends (room : Nat) (tokens : List Token) (size i stop : Nat) {α : Type} :
    Except Fault (Parsed α) → Prop :=
  Arrives room tokens fun parsed =>
    i < parsed.position ∧ Region tokens size parsed.position stop ∧ Clean parsed.errors

/-- The result of a construct that may have failed, but over nothing that is about
blocks. -/
inductive Attempted (room : Nat) (tokens : List Token) {α : Type} (P : Nat → Prop) :
    Except Fault (Attempt α) → Prop where
  | ok (a : α) {errors : List TemplateError} (hClean : Clean errors) {j : Nat} (h : P j) :
      Attempted room tokens P (.ok ⟨.ok a, errors, j⟩)
  | error {e : TemplateError} (hError : e.mistake.aboutBlocks = false)
      {errors : List TemplateError} (hClean : Clean errors) (j : Nat) :
      Attempted room tokens P (.ok ⟨.error e, errors, j⟩)
  | fault {f : Fault} (hBlamed : Blamed room tokens f) : Attempted room tokens P (.error f)

/-- What a call is to do. -/
def Delivers (room : Nat) (tokens : List Token) (size : Nat) : Call → Prop
  | .nodes stop fuel i => Arrives room tokens (fun parsed => parsed.position = stop ∧ Clean parsed.errors)
      (readNodes (.ofTokens room tokens) stop fuel i)
  | .node fuel i => ∀ stop, Region tokens size i stop → i < stop →
      Ends room tokens size i stop (readNode (.ofTokens room tokens) fuel i)
  | .tag fuel i => ∀ stop, Region tokens size i stop → i < stop →
      Ends room tokens size i stop (readTag (.ofTokens room tokens) fuel i)
  | .conditional fuel i => ∀ stop, Region tokens size i stop → i < stop →
      Attempted room tokens (fun j => i < j ∧ Region tokens size j stop)
        (readConditional (.ofTokens room tokens) fuel i)
  | .branches fuel branches boundaries => ∀ found,
      Attempted room tokens (fun _ => True)
        (readBranches (.ofTokens room tokens) fuel branches boundaries found)
  | .loop fuel i => ∀ stop, Region tokens size i stop → i < stop →
      Attempted room tokens (fun j => i < j ∧ Region tokens size j stop)
        (readLoop (.ofTokens room tokens) fuel i)
  | .body fuel stop i => ∀ head, Arrives room tokens (fun parsed => parsed.position = stop ∧
        Clean parsed.errors ∧ ∃ nodes, parsed.result = .ok nodes)
      (readBody (.ofTokens room tokens) fuel head stop i)

variable {tokens rest : List Token} {room size i : Nat}

theorem Arrives.of_ok {α : Type} {good : α → Prop} {act : Except Fault α} {a : α}
    (h : Arrives room tokens good act) (hAct : act = .ok a) : good a := by
  rw [hAct] at h
  exact h

theorem Arrives.imp {α : Type} {good other : α → Prop} {act : Except Fault α}
    (h : Arrives room tokens good act) (hGood : ∀ a, good a → other a) :
    Arrives room tokens other act := by
  cases act with
  | ok a => exact hGood a h
  | error f => exact h

/-- What follows an arrival may arrive somewhere else. -/
theorem Arrives.bind {α β : Type} {good : α → Prop} {other : β → Prop} {act : Except Fault α}
    {next : α → Except Fault β} (h : Arrives room tokens good act)
    (hNext : ∀ a, act = .ok a → good a → Arrives room tokens other (next a)) :
    Arrives room tokens other (act >>= next) := by
  cases hAct : act with
  | ok a => exact hNext a hAct (h.of_ok hAct)
  | error f =>
      rw [hAct] at h
      exact h

/-- The body of a branch begins behind its word. -/
theorem BranchHead.passes {source : Source} {branch : Nat} {close : Token}
    (h : BranchHead source branch close rest) :
    Passes (advance (advance (source.tokensFrom branch))) rest := by
  cases h with
  | conditioned hWord hRead => exact (readCondition_stays source.room _ _ _).of_ok hRead
  | otherwise hWord hRead =>
      have hStays : Stays source.room (advance (advance (source.tokensFrom branch)))
          (expectEnd .tagEnd (.tagNotClosed "else") _) := expectEnd_stays rfl rfl _
      exact hStays.of_ok hRead

theorem OpensAt.begins {kind : BlockKind} (h : OpensAt tokens i kind) :
    Tokens.begins (second (tokens.drop i)).kind = false :=
  begins_of_role? h.role

section

variable (h : Balanced tokens size)

include h

/-- A call that fits has steps left. -/
theorem Fit.fuel_pos {call : Call} (hFit : Fit tokens size call) : 0 < call.fuel := by
  cases call with
  | branches fuel branches boundaries =>
      obtain ⟨start, close, hSeries, -, hFuel⟩ := hFit
      obtain ⟨hBefore, hInside, -⟩ := h.closing_of_series hSeries
      show 0 < fuel
      omega
  | nodes => exact Nat.lt_of_lt_of_le (Nat.succ_pos _) hFit.2
  | node => exact Nat.lt_of_lt_of_le (Nat.succ_pos _) hFit.2
  | tag => exact Nat.lt_of_lt_of_le (Nat.succ_pos _) hFit.2.2
  | conditional => exact Nat.lt_of_lt_of_le (Nat.succ_pos _) hFit.2.2
  | loop => exact Nat.lt_of_lt_of_le (Nat.succ_pos _) hFit.2.2
  | body => exact Nat.lt_of_lt_of_le (Nat.succ_pos _) hFit.2

/-- The body behind the head of a tag, up to the next tag of the block. -/
theorem fit_body {start close stop fuel : Nat} {branches later : List Nat}
    (hSeries : Series tokens start branches close) (hBounds : branches ++ [close] = stop :: later)
    (hi : start < size) (hWord : begins (second (tokens.drop start)).kind = false)
    (hPasses : Passes (advance (advance (tokens.drop start))) rest)
    (hFuel : 8 * (size - start) ≤ fuel + 3) :
    Fit tokens size (.body fuel stop ((Source.ofTokens room tokens).positionOf rest)) := by
  obtain ⟨j, hGoes, rfl⟩ := h.goes_behind_word hi hWord hPasses
  rw [h.positionOf_drop _ _ hGoes.le_size]
  have hLe := hGoes.le
  have hLess := hGoes.le_size
  exact ⟨(h.region_of_series hSeries hBounds).goes hGoes, by omega⟩

/-- The word of a branch. -/
theorem word_of_branch {start branch close : Nat} {branches : List Nat}
    (hSeries : Series tokens start (branch :: branches) close) :
    start < branch ∧ branch < size ∧ begins (second (tokens.drop branch)).kind = false := by
  obtain ⟨tag, hTag, rfl⟩ := hSeries.branch branch List.mem_cons_self
  obtain ⟨hInside, -, hRole⟩ := h.of_mem_tags hTag
  exact ⟨(List.pairwise_cons.mp hSeries.ordered).1 _ List.mem_cons_self, hInside,
    begins_of_role? hRole⟩

/-- The block at a tag that opens one, with its boundaries. -/
theorem exists_boundaries {kind : BlockKind} (hInside : Inside tokens size i)
    (hOpens : OpensAt tokens i kind) : i < size ∧ ∃ block close,
      (BlockMap.ofTokens tokens).blockAt? i = some block ∧ block.close = some close ∧
      block.boundaries = block.branches ++ [close] ∧ (kind = .loop → block.branches = []) ∧
      Series tokens i block.branches close := by
  obtain ⟨stop, hRegion, hLess⟩ := hInside
  obtain ⟨block, close, hFound, hClose, hLoop, hSeries, -⟩ :=
    h.exists_block hRegion hLess hOpens.start hOpens.role
  refine ⟨Nat.lt_of_lt_of_le hLess hRegion.le_size, block, close, hFound, hClose, ?_, hLoop, hSeries⟩
  rw [boundaries, hClose]
  rfl

/-- A call that fits makes calls that fit, if reading a part goes on in its
region. -/
theorem Makes.fit {call callee : Call} (hMakes : Makes (.ofTokens room tokens) call callee)
    (hFit : Fit tokens size call)
    (hNode : ∀ fuel i, Makes (.ofTokens room tokens) call (.node fuel i) →
      Delivers room tokens size (.node fuel i)) : Fit tokens size callee := by
  cases hMakes with
  | first hLess hMore => exact ⟨⟨_, hFit.1, hLess⟩, Nat.le_of_succ_le_succ hFit.2⟩
  | later hLess hMore hFirst =>
      obtain ⟨hRegion, hFuel⟩ := hFit
      obtain ⟨hBehind, hRest, -⟩ :=
        (hNode _ _ (.first hLess hMore) _ hRegion hLess).of_ok hFirst
      have hSize := hRegion.le_size
      exact ⟨hRest, by omega⟩
  | tag hStart => exact ⟨hFit.1, hStart, Nat.le_of_succ_le_succ hFit.2⟩
  | conditional hWord =>
      obtain ⟨hInside, hStart, hFuel⟩ := hFit
      exact ⟨hInside, ⟨hStart, congrArg role? hWord⟩, Nat.le_of_succ_le_succ hFuel⟩
  | loop hWord =>
      obtain ⟨hInside, hStart, hFuel⟩ := hFit
      exact ⟨hInside, ⟨hStart, congrArg role? hWord⟩, Nat.le_of_succ_le_succ hFuel⟩
  | consequent hBlock hHead hBounds =>
      obtain ⟨hInside, hOpens, hFuel⟩ := hFit
      obtain ⟨hi, block, close, hFound, -, hAll, -, hSeries⟩ := exists_boundaries h hInside hOpens
      rw [hFound, Option.getD_some] at hBlock
      subst hBlock
      exact fit_body h hSeries (hAll.symm.trans hBounds) hi hOpens.begins
        ((readCondition_stays _ _ _ _).of_ok hHead) (by omega)
  | branches hBlock hHead hBounds hBody =>
      obtain ⟨hInside, hOpens, hFuel⟩ := hFit
      obtain ⟨-, block, close, hFound, -, hAll, -, hSeries⟩ := exists_boundaries h hInside hOpens
      rw [hFound, Option.getD_some] at hBlock
      subst hBlock
      exact ⟨_, close, hSeries, by rw [← hAll, hBounds]; rfl, Nat.le_of_succ_le_succ hFuel⟩
  | branchBody hHead =>
      obtain ⟨start, close, hSeries, hBounds, hFuel⟩ := hFit
      obtain ⟨hBefore, hi, hWord⟩ := word_of_branch h hSeries
      exact fit_body h hSeries.next hBounds.symm hi hWord hHead.passes (by omega)
  | laterBranches hHead hBody =>
      obtain ⟨start, close, hSeries, hBounds, hFuel⟩ := hFit
      obtain ⟨hBefore, hi, -⟩ := word_of_branch h hSeries
      exact ⟨_, close, hSeries.next, congrArg List.tail hBounds, by omega⟩
  | loopBody hHead hClose =>
      obtain ⟨hInside, hOpens, hFuel⟩ := hFit
      obtain ⟨hi, block, close, hFound, hShut, -, hLoop, hSeries⟩ := exists_boundaries h hInside hOpens
      rw [hFound, Option.bind_some, hShut] at hClose
      cases hClose
      rw [hLoop rfl] at hSeries
      exact fit_body h hSeries rfl hi hOpens.begins ((readLoopHead_stays _ _).of_ok hHead)
        (by omega)
  | inside => exact ⟨hFit.1, Nat.le_of_succ_le_succ hFit.2⟩

end

end Node

end NoteTemplate
