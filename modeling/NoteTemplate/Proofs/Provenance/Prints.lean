import NoteTemplate.Proofs.Progress.Template
import NoteTemplate.Proofs.Provenance.Nodes

/-! What a template prints and what its text asks to print. A reader that finds no
mistake goes from one place in the list of tokens to another one behind it, and
what it reads prints the expressions that begin between the two, each of them
once. A second branch without a condition would take the place of the first one,
so there must be only one of them. -/
namespace NoteTemplate

open Tokens Token

mutual

/-- The places of the expressions to print in a part. -/
def Node.printPlaces : Node → List Place
  | .text _ _ => []
  | .print _ _ place => [place]
  | .conditional _ body branches otherwise _ _ =>
    printPlacesOfNodes body ++ (printPlacesOfBranches branches ++ printPlacesOfOtherwise otherwise)
  | .loop _ _ body _ _ => printPlacesOfNodes body
  | .assign _ _ _ _ => []

/-- The places of the expressions to print in parts. -/
def Node.printPlacesOfNodes : List Node → List Place
  | [] => []
  | node :: rest => node.printPlaces ++ printPlacesOfNodes rest

/-- The places of the expressions to print in the branches of a condition. -/
def Node.printPlacesOfBranches : List (Expr × List Node) → List Place
  | [] => []
  | (_, body) :: rest => printPlacesOfNodes body ++ printPlacesOfBranches rest

/-- The places of the expressions to print in a branch without a condition. -/
def Node.printPlacesOfOtherwise : Option (List Node) → List Place
  | some body => printPlacesOfNodes body
  | none => []

end

/-- The places of the tokens with which an expression to print begins. -/
def Tokens.openings (ts : List Token) : List Place :=
  (ts.filter (·.kind == .variableStart)).map Token.place

namespace Tokens

theorem openings_append (first second : List Token) :
    openings (first ++ second) = openings first ++ openings second := by
  rw [openings, List.filter_append, List.map_append, openings, openings]

/-- Going from a list of tokens to a rest of it, past given expressions to print. -/
def Opens (ts rest : List Token) (places : List Place) : Prop :=
  ∃ taken, ts = taken ++ rest ∧ openings taken = places

variable {ts middle rest : List Token} {places more : List Place}

theorem Opens.trans (hFirst : Opens ts middle places) (hSecond : Opens middle rest more) :
    Opens ts rest (places ++ more) := by
  obtain ⟨first, rfl, rfl⟩ := hFirst
  obtain ⟨second, rfl, rfl⟩ := hSecond
  exact ⟨first ++ second, (List.append_assoc ..).symm, openings_append first second⟩

/-- What passes tokens that begin nothing passes no expression to print. -/
theorem Passes.opens (h : Passes ts rest) : Opens ts rest [] := by
  obtain ⟨taken, hTokens, hTaken⟩ := h
  refine ⟨taken, hTokens, ?_⟩
  rw [openings, List.map_eq_nil_iff, List.filter_eq_nil_iff]
  intro t hMem hKind
  have hBegins := hTaken t hMem
  rw [eq_of_beq hKind] at hBegins
  cases hBegins

/-- A token that is no opening delimiter prints nothing. -/
theorem opens_advance (h : (current ts).kind ≠ .variableStart) : Opens ts (advance ts) [] := by
  cases ts with
  | nil => exact (Passes.refl []).opens
  | cons t rest =>
      have hOther : (t.kind == .variableStart) = false := beq_false_of_ne h
      rw [advance]
      split
      · exact (Passes.refl _).opens
      · exact ⟨[t], rfl, by rw [openings, List.filter_cons, hOther]; rfl⟩

/-- An opening delimiter prints at its place. -/
theorem opens_variable (h : (current ts).kind = .variableStart) :
    Opens ts (advance ts) [(current ts).place] := by
  cases ts with
  | nil => cases h
  | cons t rest =>
      have hKind : t.kind = .variableStart := h
      have hMore : t.kind ≠ .endOfText := by rw [hKind]; exact Kind.noConfusion
      rw [advance, if_neg hMore]
      exact ⟨[t], rfl, by rw [openings, List.filter_cons, hKind]; rfl⟩

/-- The delimiter and the word of a tag. -/
theorem opens_word {kind : Kind} (hStart : (current ts).kind = .tagStart)
    (hWord : (second ts).kind = kind) (hTag : kind ≠ .tagStart) (hPrint : kind ≠ .variableStart) :
    Opens ts (advance (advance ts)) [] := by
  have hNext := current_advance_of_second hStart hWord Kind.noConfusion hTag.symm
  exact (opens_advance (by rw [hStart]; exact Kind.noConfusion)).trans
    (opens_advance (by rw [hNext]; exact hPrint))

end Tokens

namespace Node

theorem printPlacesOfNodes_eq_flatMap (nodes : List Node) :
    printPlacesOfNodes nodes = nodes.flatMap printPlaces := by
  induction nodes with
  | nil => rfl
  | cons node rest ih => rw [printPlacesOfNodes, ih, List.flatMap_cons]

theorem printPlacesOfNodes_append (first second : List Node) :
    printPlacesOfNodes (first ++ second) = printPlacesOfNodes first ++ printPlacesOfNodes second := by
  simp only [printPlacesOfNodes_eq_flatMap, List.flatMap_append]

theorem printPlacesOfBranches_append (first second : List (Expr × List Node)) :
    printPlacesOfBranches (first ++ second) =
      printPlacesOfBranches first ++ printPlacesOfBranches second := by
  induction first with
  | nil => rfl
  | cons branch rest ih =>
      rw [List.cons_append, printPlacesOfBranches, ih, printPlacesOfBranches, List.append_assoc]

/-- What is cut at the ends of a body is printed by no expression. -/
theorem printPlaces_trimBody (head next : Token) (nodes : List Node) :
    printPlacesOfNodes (trimBody head next nodes) = printPlacesOfNodes nodes := by
  rw [printPlacesOfNodes_eq_flatMap, printPlacesOfNodes_eq_flatMap,
    flatMap_trimBody (fun _ _ => rfl)]

theorem printPlaces_ofText (previous : Option Token) (token : Token) :
    printPlacesOfNodes (ofText previous token).toList = [] := by
  unfold ofText
  extract_lets text kept
  split <;> rfl

/-- The places of the expressions to print in the branches that were read. -/
def Branches.printPlaces (found : Branches) : List Place :=
  printPlacesOfBranches found.branches ++ printPlacesOfOtherwise found.otherwise

variable {source : Source} {start middle last : Nat} {places more : List Place}

/-- The places of the expressions to print between two places in the list of
tokens, in some order. -/
structure Covers (source : Source) (start last : Nat) (places : List Place) : Prop where
  le : start ≤ last
  le_length : last ≤ source.tokens.length
  perm : places.Perm (openings (source.segment start last))

theorem covers_refl (hStart : start ≤ source.tokens.length) : Covers source start start [] := by
  refine ⟨Nat.le_refl start, hStart, ?_⟩
  rw [Source.segment, Nat.sub_self, List.take_zero]
  exact List.Perm.refl []

theorem Covers.append (hFirst : Covers source start middle places)
    (hSecond : Covers source middle last more) : Covers source start last (places ++ more) := by
  refine ⟨Nat.le_trans hFirst.le hSecond.le, hSecond.le_length, ?_⟩
  rw [← segment_append hFirst.le hSecond.le, openings_append]
  exact hFirst.perm.append hSecond.perm

theorem Covers.congr (h : Covers source start last places) (hPerm : more.Perm places) :
    Covers source start last more :=
  ⟨h.le, h.le_length, hPerm.trans h.perm⟩

/-- A reader of tokens covers the stretch from where it begins to where its rest begins.
-/
theorem covers_of_opens {rest : List Token} (hStart : start ≤ source.tokens.length)
    (h : Opens (source.tokensFrom start) rest places) :
    Covers source start (source.positionOf rest) places := by
  obtain ⟨taken, hTokens, hPlaces⟩ := h
  have hLength := congrArg List.length hTokens
  rw [Source.tokensFrom, List.length_drop, List.length_append] at hLength
  have hPosition : source.positionOf rest = start + taken.length := by
    rw [Source.positionOf]
    omega
  rw [Source.tokensFrom] at hTokens
  refine ⟨by omega, by omega, ?_⟩
  rw [Source.segment, hPosition, hTokens, Nat.add_sub_cancel_left, List.take_left, hPlaces]

/-- The branches of a block that have no condition. -/
def Source.unconditioned (source : Source) (branches : List Nat) : Nat :=
  branches.countP fun branch => (current (advance (source.tokensFrom branch))).kind != .elseifWord

/-- Whether the tags of each block are tags, and at most one of its branches has no
condition. -/
structure Orderly (source : Source) : Prop where
  tag : ∀ start block, source.blocks.blockAt? start = some block → ∀ index ∈ block.boundaries,
    Opens (source.tokensFrom index) (advance (advance (source.tokensFrom index))) []
  single : ∀ start block, source.blocks.blockAt? start = some block →
    source.unconditioned block.branches ≤ 1

/-- An expression to print has the place of its opening delimiter. -/
theorem printPlaces_of_readVariable {room : Nat} {ts rest : List Token} {node : Node}
    (h : readVariable room ts = .ok (node, rest)) : node.printPlaces = [(current ts).place] := by
  rw [readVariable] at h
  dsimp only at h
  split at h
  · cases h
  · obtain ⟨⟨found, behind⟩, -, hRest⟩ := of_bind_ok h
    cases found with
    | none =>
        dsimp only at hRest
        split at hRest <;> cases hRest
    | some e =>
        dsimp only at hRest
        split at hRest
        · cases hRest
        · obtain ⟨⟨t, final⟩, -, hRest⟩ := of_bind_ok hRest
          cases hRest
          rfl

/-- An assignment prints nothing. -/
theorem printPlaces_of_readAssign {room : Nat} {ts rest : List Token} {node : Node}
    (h : readAssign room ts = .ok (node, rest)) : node.printPlaces = [] := by
  rw [readAssign] at h
  dsimp only at h
  split at h
  · cases h
  · split at h
    · cases h
    · obtain ⟨⟨found, behind⟩, -, hRest⟩ := of_bind_ok h
      cases found with
      | none => cases hRest
      | some e =>
          obtain ⟨⟨t, final⟩, -, hRest⟩ := of_bind_ok hRest
          cases hRest
          rfl

/-- The closing tag of a block prints nothing. -/
theorem covers_closing {start close : Nat} {block : Block} {word : String} {shut : Token}
    {rest : List Token} (hOrderly : Orderly source)
    (hBlock : source.blocks.blockAt? start = some block) (hShut : block.close = some close)
    (hClose : close ≤ source.tokens.length)
    (hRead : readClosingTag source word close = .ok (shut, rest)) :
    Covers source close (source.positionOf rest) [] := by
  have hMem : close ∈ block.boundaries := by
    rw [Block.boundaries, hShut]
    exact List.mem_append_right _ (List.mem_singleton_self close)
  have hWord := hOrderly.tag start block hBlock close hMem
  exact covers_of_opens hClose
    (hWord.trans ((readClosingTag_stays source word close).of_ok hRead).opens)

/-- One more branch with a condition, although it comes to stand in front of the
branch without one. -/
theorem perm_of_branch (found : Branches) (condition : Expr) (nodes : List Node) :
    (Branches.printPlaces { found with branches := found.branches ++ [(condition, nodes)] }).Perm
      (found.printPlaces ++ printPlacesOfNodes nodes) := by
  rw [Branches.printPlaces, Branches.printPlaces, printPlacesOfBranches_append,
    printPlacesOfBranches, printPlacesOfBranches, List.append_nil, List.append_assoc,
    List.append_assoc]
  exact List.perm_append_comm.append_left _

/-- A branch without a condition, if there was none. -/
theorem perm_of_otherwise {found : Branches} (hNone : found.otherwise = none) (nodes : List Node) :
    (Branches.printPlaces { found with otherwise := some nodes }).Perm
      (found.printPlaces ++ printPlacesOfNodes nodes) := by
  rw [Branches.printPlaces, Branches.printPlaces, hNone, printPlacesOfOtherwise,
    printPlacesOfOtherwise, List.append_nil]

/-- What was read prints what the tokens of the passage ask to print. Of branches it
is required that their tags are tags, and that no two have no condition, with those
found before. -/
def Passage.Kept (source : Source) : Passage → Prop
  | .nodes start last parts => Covers source start last (printPlacesOfNodes parts)
  | .node start last part => Covers source start last (printPlacesOfNodes part.toList)
  | .branches start last tags found result =>
    (∀ tag ∈ tags, Opens (source.tokensFrom tag) (advance (advance (source.tokensFrom tag))) []) →
      found.otherwise.toList.length + source.unconditioned tags ≤ 1 →
      ∃ more, Covers source start last more ∧ result.printPlaces.Perm (found.printPlaces ++ more)

/-- A branch that was read, and what is read behind it. -/
theorem exists_covers_branch {found next result : Branches} {nodes : List Node} {stop : Nat}
    (hHead : Covers source start middle [])
    (hBody : Covers source middle stop (printPlacesOfNodes nodes))
    (hLater : ∃ more, Covers source stop last more ∧
      result.printPlaces.Perm (next.printPlaces ++ more))
    (hNext : next.printPlaces.Perm (found.printPlaces ++ printPlacesOfNodes nodes)) :
    ∃ more, Covers source start last more ∧ result.printPlaces.Perm (found.printPlaces ++ more) := by
  obtain ⟨more, hMore, hPerm⟩ := hLater
  refine ⟨printPlacesOfNodes nodes ++ more, (hHead.append hBody).append hMore, ?_⟩
  rw [← List.append_assoc]
  exact hPerm.trans (hNext.append_right more)

/-- By induction on how it was read: whatever is read without a mistake keeps the
expressions to print. -/
theorem Derives.kept {passage : Passage} (h : Derives source passage) (hOrderly : Orderly source)
    (hStart : passage.start ≤ source.tokens.length) : passage.Kept source := by
  induction h with
  | done | nothing => exact covers_refl hStart
  | next _ _ ihFirst ihRest =>
      have hFirst : Covers source _ _ _ := ihFirst hStart
      have hRest : Covers source _ _ _ := ihRest hFirst.le_length
      show Covers source _ _ (printPlacesOfNodes _)
      rw [printPlacesOfNodes_append]
      exact hFirst.append hRest
  | text previous hKind =>
      show Covers source _ _ (printPlacesOfNodes _)
      rw [printPlaces_ofText]
      exact covers_of_opens hStart (opens_advance (by rw [hKind]; exact Kind.noConfusion))
  | print hKind hRead =>
      have hOpens := (opens_variable hKind).trans ((readVariable_stays _ _).of_ok hRead).opens
      rw [← printPlaces_of_readVariable hRead] at hOpens
      exact covers_of_opens hStart hOpens
  | @assign _ node _ hKind hWord hRead =>
      have hOpens := opens_word hKind hWord Kind.noConfusion Kind.noConfusion
      have hCovers := covers_of_opens hStart
        (hOpens.trans ((readAssign_stays _ _).of_ok hRead).opens)
      show Covers source _ _ (node.printPlaces ++ [])
      rwa [printPlaces_of_readAssign hRead]
  | @conditional start stop last block _ close _ _ _ _ _ hKind hWord hBlock hClose hHead _ _
      hShut ihBody ihBranches =>
      have hBefore := covers_of_opens hStart
        ((opens_word hKind hWord Kind.noConfusion Kind.noConfusion).trans
          ((readCondition_stays _ _ _ _).of_ok hHead).opens)
      have hInner : Covers source _ _ _ := ihBody hBefore.le_length
      have hTags : ∀ tag ∈ block.branches,
          Opens (source.tokensFrom tag) (advance (advance (source.tokensFrom tag))) [] :=
        fun tag hMem => hOrderly.tag start block hBlock tag (List.mem_append_left _ hMem)
      have hSingle : (none : Option (List Node)).toList.length +
          source.unconditioned block.branches ≤ 1 := by
        rw [Option.toList_none, List.length_nil, Nat.zero_add]
        exact hOrderly.single start block hBlock
      obtain ⟨places, hLater, hPerm⟩ := ihBranches hInner.le_length hTags hSingle
      have hEnd := covers_closing hOrderly hBlock hClose hLater.le_length hShut
      have hAll := ((hBefore.append hInner).append hLater).append hEnd
      rw [List.nil_append, List.append_nil,
        ← printPlaces_trimBody close (current (source.tokensFrom stop))] at hAll
      show Covers source _ _ (Node.printPlaces _ ++ [])
      rw [List.append_nil]
      exact hAll.congr (hPerm.append_left _)
  | @loop start last _ head _ _ _ _ hKind hWord hBlock hClose hHead _ hShut ihBody =>
      have hBefore := covers_of_opens hStart
        ((opens_word hKind hWord Kind.noConfusion Kind.noConfusion).trans
          ((readLoopHead_stays _ _).of_ok hHead).opens)
      have hInner : Covers source _ _ _ := ihBody hBefore.le_length
      have hEnd := covers_closing hOrderly hBlock hClose hInner.le_length hShut
      have hAll := (hBefore.append hInner).append hEnd
      rw [List.nil_append,
        ← printPlaces_trimBody head.close (current (source.tokensFrom last))] at hAll
      exact hAll
  | noBranch last found =>
      intro _ _
      exact ⟨[], covers_refl hStart, by rw [List.append_nil]⟩
  | @branch tag next _ tags found _ condition close _ body hElseif hHead _ _ ihBody ihLater =>
      intro hTags hSingle
      obtain ⟨hTag, hLaterTags⟩ := List.forall_mem_cons.mp hTags
      rw [Source.unconditioned, List.countP_cons_of_neg (by simp [hElseif])] at hSingle
      have hBefore := covers_of_opens hStart
        (hTag.trans ((readCondition_stays _ _ _ _).of_ok hHead).opens)
      have hInner : Covers source _ _ _ := ihBody hBefore.le_length
      have hLater := ihLater hInner.le_length hLaterTags hSingle
      rw [← printPlaces_trimBody close (current (source.tokensFrom next))] at hInner
      exact exists_covers_branch hBefore hInner hLater (perm_of_branch found condition _)
  | @otherwise tag next _ tags found _ close _ body hElse hHead _ _ ihBody ihLater =>
      intro hTags hSingle
      obtain ⟨hTag, hLaterTags⟩ := List.forall_mem_cons.mp hTags
      rw [Source.unconditioned, List.countP_cons_of_pos (by simp [hElse])] at hSingle
      have hStays : Stays source.room (advance (advance (source.tokensFrom tag)))
          (expectEnd .tagEnd (.tagNotClosed "else") _) := expectEnd_stays rfl rfl _
      have hBefore := covers_of_opens hStart (hTag.trans (hStays.of_ok hHead).opens)
      have hInner : Covers source _ _ _ := ihBody hBefore.le_length
      have hFirst : found.otherwise = none := by
        cases hFound : found.otherwise with
        | none => rfl
        | some nodes =>
            rw [hFound, Option.toList_some, List.length_singleton] at hSingle
            omega
      rw [hFirst, Option.toList_none, List.length_nil, Nat.zero_add] at hSingle
      have hOnly : (some (trimBody close (current (source.tokensFrom next)) body)).toList.length +
          source.unconditioned tags ≤ 1 := by
        rw [Option.toList_some, List.length_singleton, Source.unconditioned]
        omega
      have hLater := ihLater hInner.le_length hLaterTags hOnly
      rw [← printPlaces_trimBody close (current (source.tokensFrom next))] at hInner
      exact exists_covers_branch hBefore hInner hLater (perm_of_otherwise hFirst _)

end Node

end NoteTemplate
