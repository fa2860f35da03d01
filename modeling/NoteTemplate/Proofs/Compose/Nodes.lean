import NoteTemplate.Proofs.Compose.Blocks
import NoteTemplate.Proofs.Compose.Constructs
import NoteTemplate.Proofs.Progress.Exprs

/-! Reading the parts of a template from a part of its tokens. With the blocks of
the one among those of the other, every reader finds the same parts, moved, notes
the same mistakes, moved, and stops at the same token, or the same is at fault.
That an opening tag has no closing one is never at fault. -/
namespace NoteTemplate

open Tokens Token Node

/-- Tokens as a template by themselves, and a template with them from an index
on. Behind a text of the template, the next one begins with something else. -/
structure Within (x : Excerpt) (inner outer : Source) (before : Nat) : Prop where
  part : inner.tokens = x.part
  whole : outer.tokens.drop before = x.whole
  room : inner.room = outer.room
  block : ∀ start block, inner.blocks.blockAt? start = some block →
    outer.blocks.blockAt? (before + start) = some (block.moved x.origin before)
  closed : ∀ start keyword kind, BlockMap.TagAt x.part start keyword →
    Block.role? keyword.kind = some (.opens kind) →
      ∃ block close, BlockMap.Whole x.part inner.blocks start block close
  first : before = 0 ∨ ∀ t, x.part[0]? = some t → t.kind ≠ .text

namespace Within

variable {x : Excerpt} {inner outer : Source} {before : Nat} {i p stop fuel fuel' : Nat}
  {α β : Type} {g : α → α} {k : β → β}

theorem tokensFrom_inner (h : Within x inner outer before) (i : Nat) :
    inner.tokensFrom i = x.part.drop i := by
  rw [Source.tokensFrom, h.part]

theorem tokensFrom_outer (h : Within x inner outer before) (i : Nat) :
    outer.tokensFrom (before + i) = x.whole.drop i := by
  rw [Source.tokensFrom, ← h.whole, List.drop_drop]

theorem positionOf_inner (h : Within x inner outer before) (hi : i ≤ x.size) :
    inner.positionOf (x.part.drop i) = i := by
  have hLength := x.length
  rw [Source.positionOf, h.part, List.length_drop]
  omega

/-- A rest of the whole begins behind the tokens in front of the part. -/
theorem positionOf_outer (h : Within x inner outer before) (hi : i ≤ x.size) :
    outer.positionOf (x.whole.drop i) = before + i := by
  obtain ⟨_, _, -, -, hLast, -⟩ := x.last
  obtain ⟨hLength, -⟩ := List.getElem?_eq_some_iff.mp hLast
  have hWhole := congrArg List.length h.whole
  rw [List.length_drop] at hWhole
  rw [Source.positionOf, List.length_drop]
  omega

/-- What a reader gives on both sides: the same, moved, up to the same place, or the
same fault, for which something in the part is to blame. -/
inductive Agree (x : Excerpt) (room before : Nat) {α : Type} (g : α → α) (i : Nat) :
    Except Fault (Parsed α) → Except Fault (Parsed α) → Prop where
  | ok (a : α) (errors : List TemplateError) {j : Nat} (hLe : i ≤ j) (hj : j ≤ x.size) :
      Agree x room before g i (.ok ⟨a, errors, j⟩)
        (.ok ⟨g a, errors.map (TemplateError.moved x.origin), before + j⟩)
  | fault {f : Fault} (hBlamed : Blamed room x.part f) :
      Agree x room before g i (.error f) (.error f)

/-- Readers that agree may be put one behind the other. -/
theorem Agree.bind {m room : Nat} {act act' : Except Fault (Parsed α)}
    {next next' : Parsed α → Except Fault (Parsed β)} (h : Agree x room before g i act act')
    (hNext : ∀ a errors j, i ≤ j → j ≤ x.size → Agree x room before k m (next ⟨a, errors, j⟩)
      (next' ⟨g a, errors.map (TemplateError.moved x.origin), before + j⟩)) :
    Agree x room before k m (act >>= next) (act' >>= next') := by
  cases h with
  | ok a errors hLe hj => exact hNext a errors _ hLe hj
  | fault hBlamed => exact .fault hBlamed

/-- The two outcomes of a reading on both sides. -/
theorem Agree.cases {room : Nat} {act act' : Except Fault (Parsed α)}
    (h : Agree x room before g i act act') :
    (∃ a errors j, i ≤ j ∧ j ≤ x.size ∧ act = .ok ⟨a, errors, j⟩ ∧
      act' = .ok ⟨g a, errors.map (TemplateError.moved x.origin), before + j⟩) ∨
      ∃ f, Blamed room x.part f ∧ act = .error f ∧ act' = .error f := by
  cases h with
  | ok a errors hLe hj => exact .inl ⟨a, errors, _, hLe, hj, rfl, rfl⟩
  | fault hBlamed => exact .inr ⟨_, hBlamed, rfl, rfl⟩

/-- What a reader that may fail gives on both sides. Where it stops matters only
if it does not fail. -/
inductive Tried (x : Excerpt) (room : Nat) {α : Type} (g : α → α) (same : Nat → Nat → Prop) :
    Except Fault (Attempt α) → Except Fault (Attempt α) → Prop where
  | ok (a : α) (errors : List TemplateError) {q q' : Nat} (hSame : same q q') :
      Tried x room g same (.ok ⟨.ok a, errors, q⟩)
        (.ok ⟨.ok (g a), errors.map (TemplateError.moved x.origin), q'⟩)
  | error (e : TemplateError) (errors : List TemplateError) (q q' : Nat) :
      Tried x room g same (.ok ⟨.error e, errors, q⟩)
        (.ok ⟨.error (e.moved x.origin), errors.map (TemplateError.moved x.origin), q'⟩)
  | fault {f : Fault} (hBlamed : Blamed room x.part f) : Tried x room g same (.error f) (.error f)

/-- The same place behind a construct on both sides. -/
def Behind (x : Excerpt) (before i q q' : Nat) : Prop := i < q ∧ q ≤ x.size ∧ q' = before + q

/-- No place in particular. -/
def Anywhere (_ _ : Nat) : Prop := True

/-- Enough steps for a reader of parts on both sides. Behind each token there are
eight more to spend, since no more readers than that call each other in front of
one. -/
def Suffice (x : Excerpt) (fuel fuel' i level : Nat) : Prop :=
  8 * (x.size - i) + level ≤ min fuel fuel'

/-- What each reader of parts is to do with the steps given. -/
structure Reads (x : Excerpt) (inner outer : Source) (before fuel fuel' : Nat) : Prop where
  nodes {stop i : Nat} (hStop : stop ≤ x.size) (hi : i ≤ x.size)
    (hFuel : Suffice x fuel fuel' i 4) :
    Agree x inner.room before (movedAll x.origin) i (readNodes inner stop fuel i)
      (readNodes outer (before + stop) fuel' (before + i))
  node {i : Nat} (hi : i < x.size) (hFuel : Suffice x fuel fuel' i 3) :
    Agree x inner.room before (Option.map (Node.moved x.origin)) (i + 1) (readNode inner fuel i)
      (readNode outer fuel' (before + i))
  tag {i : Nat} (hi : i < x.size) (hStart : (x.at_ i).kind = .tagStart)
    (hFuel : Suffice x fuel fuel' i 2) :
    Agree x inner.room before (Option.map (Node.moved x.origin)) (i + 1) (readTag inner fuel i)
      (readTag outer fuel' (before + i))
  conditional {i : Nat} {block : Block} {close : Nat}
    (hWhole : BlockMap.Whole x.part inner.blocks i block close) (hi : i < x.size)
    (hStart : (x.at_ i).kind = .tagStart) (hWord : (x.at_ (i + 1)).kind = .ifWord)
    (hFuel : Suffice x fuel fuel' i 1) :
    Tried x inner.room (Node.moved x.origin) (Behind x before i) (readConditional inner fuel i)
      (readConditional outer fuel' (before + i))
  branches {start : Nat} {branches : List Nat} {close : Nat}
    (hOrdered : (start :: (branches ++ [close])).Pairwise (· < ·)) (hClose : close < x.size)
    (hBranch : ∀ index ∈ branches, ∃ keyword, BlockMap.TagAt x.part index keyword ∧
      Block.role? keyword.kind = some .branches) (found : Branches)
    (hFuel : Suffice x fuel fuel' start 0) :
    Tried x inner.room (Branches.moved x.origin) Anywhere
      (readBranches inner fuel branches (branches ++ [close]).tail found)
      (readBranches outer fuel' (branches.map (before + ·))
        ((branches ++ [close]).tail.map (before + ·)) (found.moved x.origin))
  loop {i : Nat} {block : Block} {close : Nat}
    (hWhole : BlockMap.Whole x.part inner.blocks i block close) (hi : i < x.size)
    (hStart : (x.at_ i).kind = .tagStart) (hWord : (x.at_ (i + 1)).kind = .forWord)
    (hFuel : Suffice x fuel fuel' i 1) :
    Tried x inner.room (Node.moved x.origin) (Behind x before i) (readLoop inner fuel i)
      (readLoop outer fuel' (before + i))
  body (head : Token) {stop i : Nat} (hStop : stop < x.size) (hi : i ≤ x.size)
    (hFuel : Suffice x fuel fuel' i 5) :
    Tried x inner.room (movedAll x.origin) Anywhere (readBody inner fuel head stop i)
      (readBody outer fuel' (head.moved x.origin) (before + stop) (before + i))

theorem Suffice.here {level less j : Nat} (h : Suffice x (fuel + 1) (fuel' + 1) i level)
    (hLess : less < level) (hLe : i ≤ j) : Suffice x fuel fuel' j less := by
  rw [Suffice] at h ⊢
  omega

theorem Suffice.later {level less j : Nat} (h : Suffice x (fuel + 1) (fuel' + 1) i level)
    (hLess : less < level + 8) (hi : i < x.size) (hLater : i < j) : Suffice x fuel fuel' j less := by
  rw [Suffice] at h ⊢
  omega

/-! Parts one after the other. -/

theorem more_nodes (h : Within x inner outer before) (hi : i < x.size) :
    at? (inner.tokensFrom i) .endOfText = false ∧
      at? (outer.tokensFrom (before + i)) .endOfText = false := by
  obtain ⟨t, hPart, -⟩ := x.token i (.inl hi)
  rw [h.tokensFrom_inner, h.tokensFrom_outer, Excerpt.at?_whole (.inl hi),
    Excerpt.drop_of_getElem? hPart]
  exact ⟨beq_false_of_ne (x.inner i hi t hPart), beq_false_of_ne (x.inner i hi t hPart)⟩

/-- Reading parts goes on behind the first one. -/
theorem readNodes_more {source : Source} (hLess : i < stop)
    (hMore : at? (source.tokensFrom i) .endOfText = false) :
    readNodes source stop (fuel + 1) i = (do
      let first ← readNode source fuel i
      let rest ← readNodes source stop fuel first.position
      return ⟨first.result.toList ++ rest.result, first.errors ++ rest.errors, rest.position⟩) := by
  rw [readNodes, hMore, if_pos (by simpa using hLess)]

theorem readNodes_done {source : Source} (hStop : ¬ i < stop) :
    readNodes source stop fuel i = .ok ⟨[], [], i⟩ := by
  cases fuel with
  | zero => rfl
  | succ fuel => rw [readNodes, if_neg (by simp [hStop])]

theorem movedAll_toList_append {origin : Position} (node : Option Node) (rest : List Node) :
    movedAll origin (node.toList ++ rest) =
      (node.map (Node.moved origin)).toList ++ movedAll origin rest := by
  cases node with
  | none => rfl
  | some node => exact movedAll.eq_2 origin node rest

/-- Each reader with one step more agrees if all do with one step less: here the reader
of parts. -/
theorem Reads.nodes_succ (h : Within x inner outer before)
    (hReads : Reads x inner outer before fuel fuel') (hStop : stop ≤ x.size) (hi : i ≤ x.size)
    (hFuel : Suffice x (fuel + 1) (fuel' + 1) i 4) :
    Agree x inner.room before (movedAll x.origin) i (readNodes inner stop (fuel + 1) i)
      (readNodes outer (before + stop) (fuel' + 1) (before + i)) := by
  by_cases hLess : i < stop
  · have hSize : i < x.size := Nat.lt_of_lt_of_le hLess hStop
    obtain ⟨hMore, hMoreOuter⟩ := h.more_nodes hSize
    rw [readNodes_more hLess hMore, readNodes_more (Nat.add_lt_add_left hLess before) hMoreOuter]
    have hNode := hReads.node hSize (hFuel.here (by decide) (Nat.le_refl i))
    refine hNode.bind fun node errors j hLe hj => ?_
    have hRest := hReads.nodes hStop hj (hFuel.later (by decide) hSize hLe)
    refine hRest.bind fun rest more k hLater hk => ?_
    dsimp only
    rw [← movedAll_toList_append, ← List.map_append]
    exact .ok _ _ (Nat.le_trans (Nat.le_of_succ_le hLe) hLater) hk
  · rw [readNodes_done hLess, readNodes_done (by omega)]
    exact .ok [] [] (Nat.le_refl i) hi

/-! One part. -/

/-- A construct that was read, or its mistake and the place to go on from. -/
def recovered (source : Source) (skip : List Token → List Token) :
    Except Failure (Found Node) → Except Fault (Parsed (Option Node))
  | .ok (node, rest) => .ok ⟨some node, [], source.positionOf rest⟩
  | .error f => do return ⟨none, [← f.mistake], source.positionOf (skip f.rest)⟩

/-- What stands behind a mistake is skipped alike, so that both go on at the same token.
-/
theorem recovered_agree (h : Within x inner outer before) {act act' : Except Failure (Found Node)}
    (hEnds : x.Ends (Node.moved x.origin) i act act') {ts : List Token} (hTokens : ts <:+ x.part)
    (hStays : Stays inner.room ts act) {skip : List Token → List Token}
    (hSkip : ∀ j, x.Covers j → ∃ k, j ≤ k ∧ k ≤ x.size ∧ skip (x.part.drop j) = x.part.drop k ∧
      skip (x.whole.drop j) = x.whole.drop k) :
    Agree x inner.room before (Option.map (Node.moved x.origin)) i (recovered inner skip act)
      (recovered outer skip act') := by
  cases hEnds with
  | ok node hLe hj =>
      rw [recovered, recovered, h.positionOf_inner hj, h.positionOf_outer hj]
      exact .ok (some node) [] hLe hj
  | error c hLe hj =>
      obtain ⟨k, hLater, hk, hPart, hWhole⟩ := hSkip _ hj
      rw [recovered, recovered, hPart, hWhole, h.positionOf_inner hk, h.positionOf_outer hk]
      cases c with
      | mistake e => exact .ok none [e] (Nat.le_trans hLe hLater) hk
      | fault f => exact .fault (hStays.2.of_suffix hTokens)

theorem at_of_getElem? {t : Token} (h : x.part[i]? = some t) : x.at_ i = t := by
  rw [Excerpt.at_, Excerpt.drop_of_getElem? h]
  rfl

/-- The token in front of a text. -/
theorem previous_outer (h : Within x inner outer before) (hi : i < x.size)
    (hText : (x.at_ i).kind = .text) :
    (if before + i = 0 then none else outer.tokens[before + i - 1]?) =
      (if i = 0 then none else inner.tokens[i - 1]?).map (Token.moved x.origin) := by
  cases i with
  | zero =>
      rcases h.first with rfl | hFirst
      · rfl
      · obtain ⟨t, hPart, -⟩ := x.token 0 (.inl hi)
        rw [at_of_getElem? hPart] at hText
        exact absurd hText (hFirst t hPart)
  | succ i =>
      obtain ⟨t, hPart, hWhole⟩ := x.token i (.inl (Nat.lt_of_succ_lt hi))
      rw [← h.whole, List.getElem?_drop] at hWhole
      rw [if_neg (by omega), if_neg (by omega), h.part, ← Nat.add_assoc, Nat.add_sub_cancel,
        Nat.add_sub_cancel, hPart, hWhole]
      rfl

/-- The step for one part. -/
theorem Reads.node_succ (h : Within x inner outer before)
    (hReads : Reads x inner outer before fuel fuel') (hi : i < x.size)
    (hFuel : Suffice x (fuel + 1) (fuel' + 1) i 3) :
    Agree x inner.room before (Option.map (Node.moved x.origin)) (i + 1) (readNode inner (fuel + 1) i)
      (readNode outer (fuel' + 1) (before + i)) := by
  have hCovers : x.Covers i := .inl hi
  have hMore : (x.at_ i).kind ≠ .endOfText := by
    obtain ⟨t, hPart, -⟩ := x.token i hCovers
    rw [at_of_getElem? hPart]
    exact x.inner i hi t hPart
  have hPartNext := h.positionOf_inner hi
  have hWholeNext := h.positionOf_outer hi
  rw [← Excerpt.advance_part hMore] at hPartNext
  rw [← Excerpt.advance_whole hCovers hMore] at hWholeNext
  simp only [readNode, h.tokensFrom_inner, h.tokensFrom_outer, Excerpt.current_whole hCovers,
    Token.moved_kind]
  rw [← Excerpt.at_]
  cases hKind : (x.at_ i).kind with
  | text =>
      dsimp only
      rw [hPartNext, hWholeNext, h.previous_outer hi hKind, ofText_moved]
      exact .ok (ofText _ (x.at_ i)) [] (Nat.le_refl _) hi
  | variableStart =>
      rw [← h.room]
      exact h.recovered_agree (Excerpt.readVariable_ends inner.room hCovers hKind)
        ((advance_suffix _).trans (List.drop_suffix i x.part)) (readVariable_stays inner.room _)
        fun j hj => Excerpt.skipVariable_skips.ends hj.le
  | tagStart => exact hReads.tag hi hKind (hFuel.here (by decide) (Nat.le_refl i))
  | _ =>
      dsimp only
      rw [hPartNext, hWholeNext]
      exact .ok none [TemplateError.atToken (unexpected (x.at_ i)) (x.at_ i)] (Nat.le_refl _) hi

/-! Tags. -/

theorem getElem?_at (hi : x.Covers i) : x.part[i]? = some (x.at_ i) := by
  obtain ⟨t, hPart, -⟩ := x.token i hi
  rw [hPart, at_of_getElem? hPart]

/-- A tag that plays a role among blocks lies inside the part. -/
theorem tag_spec {keyword : Token} {role : Block.Role} (hTag : BlockMap.TagAt x.part i keyword)
    (hRole : Block.role? keyword.kind = some role) :
    i < x.size ∧ (x.at_ i).kind = .tagStart ∧ x.at_ (i + 1) = keyword ∧
      Excerpt.passes (x.at_ (i + 1)).kind = true := by
  obtain ⟨⟨first, hFirst, hStart⟩, hKeyword⟩ := hTag
  obtain ⟨hLength, -⟩ := List.getElem?_eq_some_iff.mp hKeyword
  have hPasses : Excerpt.passes keyword.kind = true := by
    revert hRole
    cases keyword.kind <;> simp [Block.role?, Excerpt.passes, Kind.closes]
  rw [x.length] at hLength
  rw [at_of_getElem? hFirst, at_of_getElem? hKeyword]
  exact ⟨Nat.lt_of_succ_lt_succ hLength, hStart, rfl, hPasses⟩

theorem whole_spec {block : Block} {close : Nat}
    (hWhole : BlockMap.Whole x.part inner.blocks i block close) :
    i < close ∧ close < x.size ∧ (x.at_ close).kind = .tagStart ∧
      Excerpt.passes (x.at_ (close + 1)).kind = true := by
  obtain ⟨keyword, kind, hTag, hRole⟩ := hWhole.closing
  obtain ⟨hClose, hStart, -, hPasses⟩ := tag_spec hTag hRole
  exact ⟨(List.pairwise_cons.mp hWhole.ordered).1 close (by simp), hClose, hStart, hPasses⟩

/-- The bodies of a block end inside the part. -/
theorem boundary_lt {branches : List Nat} {close : Nat}
    (hBranch : ∀ index ∈ branches, ∃ keyword, BlockMap.TagAt x.part index keyword ∧
      Block.role? keyword.kind = some .branches) (hClose : close < x.size) :
    ∀ index ∈ branches ++ [close], index < x.size := by
  refine List.forall_mem_append.mpr ⟨fun index hMem => ?_, List.forall_mem_singleton.mpr hClose⟩
  obtain ⟨keyword, hTag, hRole⟩ := hBranch index hMem
  exact (tag_spec hTag hRole).1

/-- A stray tag is a mistake in the part and in the whole. -/
theorem skipped_agree (h : Within x inner outer before) (hi : i < x.size) (mistake : Mistake)
    (t : Token) :
    Agree x inner.room before (Option.map (Node.moved x.origin)) (i + 1)
      (.ok ⟨none, [TemplateError.atToken mistake t], inner.positionOf (skipTag (x.part.drop i))⟩)
      (.ok ⟨none, [TemplateError.atToken mistake (t.moved x.origin)],
        outer.positionOf (skipTag (x.whole.drop i))⟩) := by
  obtain ⟨j, -, hLess, hj, hPart, hWhole⟩ := Excerpt.skipTag_ends (.inl hi)
  rw [hPart, hWhole, h.positionOf_inner hj, h.positionOf_outer hj]
  exact .ok none [TemplateError.atToken mistake t] (hLess hi) hj

/-- A block, or its mistake and the place behind it. -/
theorem guarded_agree (h : Within x inner outer before) {block : Block} {close : Nat}
    (hWhole : BlockMap.Whole x.part inner.blocks i block close)
    {act act' : Except Fault (Attempt Node)}
    (hTried : Tried x inner.room (Node.moved x.origin) (Behind x before i) act act') :
    Agree x inner.room before (Option.map (Node.moved x.origin)) (i + 1)
      (act >>= fun attempt => pure (guarded inner i attempt))
      (act' >>= fun attempt => pure (guarded outer (before + i) attempt)) := by
  cases hTried with
  | ok node errors hBehind =>
      obtain ⟨hLess, hq, rfl⟩ := hBehind
      exact .ok (some node) errors hLess hq
  | fault hBlamed => exact .fault hBlamed
  | error e errors q q' =>
      obtain ⟨hAfter, hClose, -⟩ := whole_spec hWhole
      obtain ⟨j, hLe, -, hj, hPart, hRest⟩ := Excerpt.skipTag_ends (.inl hClose)
      have hInner : skipBlock inner i = x.part.drop j := by
        rw [skipBlock, hWhole.found, Option.bind_some, hWhole.closed, ← hPart, ← h.tokensFrom_inner]
      have hOuter : skipBlock outer (before + i) = x.whole.drop j := by
        rw [skipBlock, h.block _ _ hWhole.found, Option.bind_some, Block.moved, hWhole.closed, ← hRest,
          ← h.tokensFrom_outer]
        rfl
      show Agree x inner.room before _ _ (.ok (guarded inner i ⟨.error e, errors, q⟩))
        (.ok (guarded outer (before + i) ⟨.error (e.moved x.origin), _, q'⟩))
      rw [guarded, guarded, hInner, hOuter, h.positionOf_inner hj, h.positionOf_outer hj]
      dsimp only
      have hMoved : errors.map (TemplateError.moved x.origin) ++ [e.moved x.origin] =
          (errors ++ [e]).map (TemplateError.moved x.origin) := by rw [List.map_append]; rfl
      rw [hMoved]
      exact .ok none (errors ++ [e]) (by omega) hj

/-- The step for a tag and the block that it opens. -/
theorem Reads.tag_succ (h : Within x inner outer before)
    (hReads : Reads x inner outer before fuel fuel') (hi : i < x.size)
    (hStart : (x.at_ i).kind = .tagStart) (hFuel : Suffice x (fuel + 1) (fuel' + 1) i 2) :
    Agree x inner.room before (Option.map (Node.moved x.origin)) (i + 1) (readTag inner (fuel + 1) i)
      (readTag outer (fuel' + 1) (before + i)) := by
  have hCovers : x.Covers i := .inl hi
  have hPasses : Excerpt.passes (x.at_ i).kind = true := by rw [hStart]; rfl
  obtain ⟨hSecond, hSecondWhole⟩ := Excerpt.second_at hCovers hPasses
  have hTag : BlockMap.TagAt x.part i (x.at_ (i + 1)) :=
    ⟨⟨x.at_ i, getElem?_at hCovers, hStart⟩, getElem?_at (Excerpt.covers_succ hCovers hPasses)⟩
  have hSkipped := fun mistake => h.skipped_agree hi mistake (x.at_ (i + 1))
  simp only [readTag, h.tokensFrom_inner, h.tokensFrom_outer, hSecond, hSecondWhole,
    Token.moved_kind, Token.moved_value, ← h.room]
  cases hWord : (x.at_ (i + 1)).kind with
  | ifWord =>
      obtain ⟨block, close, hWhole⟩ := h.closed i _ .conditional hTag (by rw [hWord]; rfl)
      exact h.guarded_agree hWhole (hReads.conditional hWhole hi hStart hWord
        (hFuel.here (by decide) (Nat.le_refl i)))
  | forWord =>
      obtain ⟨block, close, hWhole⟩ := h.closed i _ .loop hTag (by rw [hWord]; rfl)
      exact h.guarded_agree hWhole (hReads.loop hWhole hi hStart hWord
        (hFuel.here (by decide) (Nat.le_refl i)))
  | setWord =>
      have hEnds := (Excerpt.readAssign_ends inner.room hCovers hStart hWord).mono (Nat.le_succ (i + 1))
      have hTokens := (advance_suffix _).trans ((advance_suffix _).trans (List.drop_suffix i x.part))
      exact h.recovered_agree hEnds hTokens (readAssign_stays inner.room _) fun j hj => by
        obtain ⟨k, hLe, -, hSkip⟩ := Excerpt.skipTag_ends hj
        exact ⟨k, hLe, hSkip⟩
  | _ => exact hSkipped _

/-! Blocks. -/

/-- Constructs that may have failed may be put one behind the other. -/
theorem Tried.bind {same other : Nat → Nat → Prop}
    {act act' : Except Fault (Attempt α)} {next next' : Attempt α → Except Fault (Attempt β)}
    (h : Tried x inner.room g same act act')
    (hOk : ∀ a errors q q', same q q' → Tried x inner.room k other (next ⟨.ok a, errors, q⟩)
      (next' ⟨.ok (g a), errors.map (TemplateError.moved x.origin), q'⟩))
    (hError : ∀ e errors q q', Tried x inner.room k other (next ⟨.error e, errors, q⟩)
      (next' ⟨.error (e.moved x.origin), errors.map (TemplateError.moved x.origin), q'⟩)) :
    Tried x inner.room k other (act >>= next) (act' >>= next') := by
  cases h with
  | ok a errors hSame => exact hOk a errors _ _ hSame
  | error e errors q q' => exact hError e errors q q'
  | fault hBlamed => exact .fault hBlamed

/-- A failure in front of a body. -/
theorem failed_tried {same : Nat → Nat → Prop} {act : Except Failure (Found β)} {c : Cause}
    {rest : List Token} (hRead : act = .error ⟨c, rest⟩) {ts : List Token} (hTokens : ts <:+ x.part)
    (hStays : Stays inner.room ts act) (rest' : List Token) (errors : List TemplateError) :
    Tried x inner.room g same (failed inner errors ⟨c, rest⟩)
      (failed outer (errors.map (TemplateError.moved x.origin)) ⟨c.moved x.origin, rest'⟩) := by
  have hExcused := (hStays.of_error hRead).2.of_suffix hTokens
  cases c with
  | mistake e => exact .error e errors _ _
  | fault f => exact .fault hExcused

/-- The end of a block that was read up to its closing tag. -/
theorem closing_tried (h : Within x inner outer before) {block : Block} {close : Nat}
    (hWhole : BlockMap.Whole x.part inner.blocks i block close) (word : String)
    (errors : List TemplateError) (build build' : Token → Node)
    (hBuild : ∀ shut, build' (shut.moved x.origin) = (build shut).moved x.origin) :
    Tried x inner.room (Node.moved x.origin) (Behind x before i)
      (match readClosingTag inner word close with
        | .error f => failed inner errors f
        | .ok (shut, rest) => .ok ⟨.ok (build shut), errors, inner.positionOf rest⟩)
      (match readClosingTag outer word (before + close) with
        | .error f => failed outer (errors.map (TemplateError.moved x.origin)) f
        | .ok (shut, rest) =>
          .ok ⟨.ok (build' shut), errors.map (TemplateError.moved x.origin),
            outer.positionOf rest⟩) := by
  obtain ⟨hAfter, hClose, hStart, hPasses⟩ := whole_spec hWhole
  obtain ⟨hPart, hRest, hBehind⟩ := Excerpt.pass_word (.inl hClose) hStart hPasses
  have hEnds := Excerpt.expectEnd_ends hBehind (Kind.noConfusion : Kind.tagEnd ≠ .endOfText)
    (.tagNotClosed word)
  rw [readClosingTag, readClosingTag, h.tokensFrom_inner, h.tokensFrom_outer, hPart, hRest]
  rcases hEnds.cases with ⟨shut, j, hLe, hj, hInner, hOuter⟩ | ⟨e, j, -, -, hInner, hOuter⟩
  · simp only [hInner, hOuter, h.positionOf_inner hj, h.positionOf_outer hj, hBuild]
    exact .ok (build shut) errors ⟨by omega, hj, rfl⟩
  · simp only [hInner, hOuter]
    exact failed_tried hInner (List.drop_suffix _ _) (expectEnd_stays rfl rfl _) _ errors

/-- The step for the body of a block that lies in the part as a whole. -/
theorem Reads.body_succ (h : Within x inner outer before)
    (hReads : Reads x inner outer before fuel fuel') (head : Token) (hStop : stop < x.size)
    (hi : i ≤ x.size) (hFuel : Suffice x (fuel + 1) (fuel' + 1) i 5) :
    Tried x inner.room (movedAll x.origin) Anywhere (readBody inner (fuel + 1) head stop i)
      (readBody outer (fuel' + 1) (head.moved x.origin) (before + stop) (before + i)) := by
  have hNodes := hReads.nodes (Nat.le_of_lt hStop) hi (hFuel.here (by decide) (Nat.le_refl i))
  rw [readBody, readBody]
  rcases hNodes.cases with ⟨nodes, errors, j, -, hj, hInner, hOuter⟩ | ⟨f, hBlamed, hInner, hOuter⟩
  · rw [hInner, hOuter]
    show Tried x inner.room _ _ (if j ≠ stop then _ else _) (if before + j ≠ before + stop then _ else _)
    by_cases hSame : j = stop
    · rw [if_neg (by simp [hSame]), if_neg (by simp [hSame]), h.tokensFrom_inner,
        h.tokensFrom_outer, Excerpt.current_whole (.inl hStop), trimBody_moved]
      exact .ok _ errors trivial
    · rw [if_pos hSame, if_pos (by omega), h.tokensFrom_inner, h.tokensFrom_outer,
        Excerpt.atToken_current_whole hj]
      exact .error _ errors _ _
  · rw [hInner, hOuter]
    exact .fault hBlamed

/-- The body of a branch, and the branches behind it. -/
theorem Reads.branch_body (hReads : Reads x inner outer before fuel fuel') (head : Token)
    (hStop : stop < x.size) (hi : i ≤ x.size) (hBody : Suffice x fuel fuel' i 5)
    {rest later : List Nat} {f f' : List Node → Branches}
    (hf : ∀ nodes, f' (movedAll x.origin nodes) = (f nodes).moved x.origin)
    (hRest : ∀ found, Tried x inner.room (Branches.moved x.origin) Anywhere
      (readBranches inner fuel rest later found)
      (readBranches outer fuel' (rest.map (before + ·)) (later.map (before + ·))
        (found.moved x.origin))) :
    Tried x inner.room (Branches.moved x.origin) Anywhere
      (do
        let body ← readBody inner fuel head stop i
        match body.result with
        | .error e => return ⟨.error e, body.errors, body.position⟩
        | .ok nodes =>
          let more ← readBranches inner fuel rest later (f nodes)
          return ⟨more.result, body.errors ++ more.errors, more.position⟩)
      (do
        let body ← readBody outer fuel' (head.moved x.origin) (before + stop) (before + i)
        match body.result with
        | .error e => return ⟨.error e, body.errors, body.position⟩
        | .ok nodes =>
          let more ← readBranches outer fuel' (rest.map (before + ·)) (later.map (before + ·))
            (f' nodes)
          return ⟨more.result, body.errors ++ more.errors, more.position⟩) := by
  refine (hReads.body head hStop hi hBody).bind (fun nodes errors _ _ _ => ?_)
    (fun e errors q q' => .error e errors q q')
  dsimp only
  rw [hf]
  refine (hRest (f nodes)).bind (fun found more _ _ _ => ?_) (fun e more q q' => ?_)
  · rw [← List.map_append]
    exact .ok found (errors ++ more) trivial
  · rw [← List.map_append]
    exact .error e (errors ++ more) q q'

/-- The step for the branches of a condition, each of whose tags lies in the part. -/
theorem Reads.branches_succ (h : Within x inner outer before)
    (hReads : Reads x inner outer before fuel fuel') {start : Nat} {branches : List Nat} {close : Nat}
    (hOrdered : (start :: (branches ++ [close])).Pairwise (· < ·)) (hClose : close < x.size)
    (hBranch : ∀ index ∈ branches, ∃ keyword, BlockMap.TagAt x.part index keyword ∧
      Block.role? keyword.kind = some .branches) (found : Branches)
    (hFuel : Suffice x (fuel + 1) (fuel' + 1) start 0) :
    Tried x inner.room (Branches.moved x.origin) Anywhere
      (readBranches inner (fuel + 1) branches (branches ++ [close]).tail found)
      (readBranches outer (fuel' + 1) (branches.map (before + ·))
        ((branches ++ [close]).tail.map (before + ·)) (found.moved x.origin)) := by
  cases branches with
  | nil => exact .ok found [] trivial
  | cons branch rest =>
      -- The steps are counted from the tag in front, so there are more for the body of this one.
      obtain ⟨⟨keyword, hTag, hRole⟩, hRest⟩ := List.forall_mem_cons.mp hBranch
      obtain ⟨hLess, hStart, rfl, hPasses⟩ := tag_spec hTag hRole
      obtain ⟨hBefore, hLater⟩ := List.pairwise_cons.mp hOrdered
      obtain ⟨hPart, hWhole, hKeyword, -⟩ := Excerpt.pass (.inl hLess) (by rw [hStart]; rfl)
      obtain ⟨hPartNext, hWholeNext, hNext, -⟩ := Excerpt.pass hKeyword hPasses
      have hAfter : start < branch := hBefore branch (by simp)
      have hMore : ∀ found, Tried x inner.room (Branches.moved x.origin) Anywhere
          (readBranches inner fuel rest (rest ++ [close]).tail found)
          (readBranches outer fuel' (rest.map (before + ·)) ((rest ++ [close]).tail.map (before + ·))
            (found.moved x.origin)) := fun found =>
        hReads.branches hLater hClose hRest found
          (hFuel.later (by decide) (Nat.lt_trans hAfter hLess) hAfter)
      rw [List.cons_append, List.tail_cons]
      cases hBounds : rest ++ [close] with
      | nil => simp at hBounds
      | cons stop later =>
          have hStop : stop < x.size :=
            boundary_lt hRest hClose stop (by rw [hBounds]; exact List.mem_cons_self)
          rw [hBounds, List.tail_cons] at hMore
          simp only [readBranches, List.map_cons, h.tokensFrom_inner, h.tokensFrom_outer, ← h.room, hPart,
            hWhole, Excerpt.current_whole hKeyword, Token.moved_kind, hPartNext, hWholeNext]
          rw [← Excerpt.at_]
          split
          · rcases (Excerpt.readCondition_ends inner.room hNext "elseif" (x.at_ (branch + 1))).cases with
              ⟨⟨condition, head⟩, j, hLe, hj, hInner, hOuter⟩ | ⟨e, j, hLe, hj, hInner, hOuter⟩
            · simp only [hInner, hOuter, Prod.map, h.positionOf_inner hj, h.positionOf_outer hj]
              refine hReads.branch_body head hStop hj (hFuel.later (by decide) (by omega) (by omega))
                (fun nodes => ?_) hMore
              rw [Branches.moved, Branches.moved, movedBranches_append, movedBranches, movedBranches]
            · simp only [hInner, hOuter]
              exact failed_tried hInner (List.drop_suffix _ _) (readCondition_stays _ _ _ _) _ []
          · rcases (Excerpt.expectEnd_ends hNext (Kind.noConfusion : Kind.tagEnd ≠ .endOfText)
              (.tagNotClosed "else")).cases with
              ⟨head, j, hLe, hj, hInner, hOuter⟩ | ⟨e, j, hLe, hj, hInner, hOuter⟩
            · simp only [hInner, hOuter, h.positionOf_inner hj, h.positionOf_outer hj]
              refine hReads.branch_body head hStop hj (hFuel.later (by decide) (by omega) (by omega))
                (fun nodes => ?_) hMore
              rw [Branches.moved, Branches.moved, movedOtherwise]
            · simp only [hInner, hOuter]
              exact failed_tried hInner (List.drop_suffix _ _) (expectEnd_stays rfl rfl _) _ []

/-- The step for a condition that is closed in the part. -/
theorem Reads.conditional_succ (h : Within x inner outer before)
    (hReads : Reads x inner outer before fuel fuel') {block : Block} {close : Nat}
    (hWhole : BlockMap.Whole x.part inner.blocks i block close) (hi : i < x.size)
    (hStart : (x.at_ i).kind = .tagStart) (hWord : (x.at_ (i + 1)).kind = .ifWord)
    (hFuel : Suffice x (fuel + 1) (fuel' + 1) i 1) :
    Tried x inner.room (Node.moved x.origin) (Behind x before i) (readConditional inner (fuel + 1) i)
      (readConditional outer (fuel' + 1) (before + i)) := by
  obtain ⟨-, hClose, -⟩ := whole_spec hWhole
  obtain ⟨hPart, hRest, hNext⟩ := Excerpt.pass_word (.inl hi) hStart (by rw [hWord]; rfl)
  have hBounds : block.boundaries = block.branches ++ [close] := by
    rw [Block.boundaries, hWhole.closed]
    rfl
  have hBoundsMoved : (block.moved x.origin before).boundaries = block.boundaries.map (before + ·) := by
    rw [Block.boundaries, Block.boundaries, List.map_append, Block.moved, hWhole.closed]
    rfl
  have hCloseMoved : (block.moved x.origin before).close.getD 0 = before + close := by
    rw [Block.moved, hWhole.closed]
    rfl
  have hBranches : (block.moved x.origin before).branches = block.branches.map (before + ·) := rfl
  simp only [readConditional, h.tokensFrom_inner, h.tokensFrom_outer, ← h.room, hWhole.found,
    h.block _ _ hWhole.found, Option.getD_some, hPart, hRest, Excerpt.current_whole (.inl hi),
    hBoundsMoved, hCloseMoved, hBranches, hWhole.closed, Token.moved_trimLeft, Token.moved_place]
  rw [← Excerpt.at_]
  rcases (Excerpt.readCondition_ends inner.room hNext "if" (x.at_ i)).cases with
    ⟨⟨condition, head⟩, j, hLe, hj, hInner, hOuter⟩ | ⟨e, j, hLe, hj, hInner, hOuter⟩
  · simp only [hInner, hOuter, Prod.map, h.positionOf_inner hj, h.positionOf_outer hj]
    have hTail : block.boundaries.tail = (block.branches ++ [close]).tail := by rw [hBounds]
    cases hList : block.boundaries with
    | nil => simp [hBounds] at hList
    | cons first later =>
        have hFirst : first < x.size :=
          boundary_lt hWhole.branch hClose first (by rw [← hBounds, hList]; exact List.mem_cons_self)
        rw [hList, List.tail_cons] at hTail
        simp only [List.map_cons]
        refine (hReads.body head hFirst hj (hFuel.later (by decide) hi (by omega))).bind
          (fun body errors _ _ _ => ?_) (fun e errors q q' => .error e errors q q')
        dsimp only
        have hMore := hReads.branches hWhole.ordered hClose hWhole.branch {}
          (hFuel.here (by decide) (Nat.le_refl i))
        rw [← hTail] at hMore
        refine hMore.bind (fun found more _ _ _ => ?_) (fun e more q q' => ?_)
        · dsimp only
          rw [← List.map_append]
          exact h.closing_tried hWhole "endif" (errors ++ more)
            (fun shut => .conditional condition body found.branches found.otherwise
              ⟨(x.at_ i).trimLeft, shut.trimRight⟩ (x.at_ i).place)
            _ fun shut => by rw [Node.moved]; rfl
        · dsimp only
          rw [← List.map_append]
          exact .error e _ q q'
  · simp only [hInner, hOuter]
    exact failed_tried hInner (List.drop_suffix _ _) (readCondition_stays _ _ _ _) _ []

/-- The step for a loop that is closed in the part. -/
theorem Reads.loop_succ (h : Within x inner outer before)
    (hReads : Reads x inner outer before fuel fuel') {block : Block} {close : Nat}
    (hWhole : BlockMap.Whole x.part inner.blocks i block close) (hi : i < x.size)
    (hStart : (x.at_ i).kind = .tagStart) (hWord : (x.at_ (i + 1)).kind = .forWord)
    (hFuel : Suffice x (fuel + 1) (fuel' + 1) i 1) :
    Tried x inner.room (Node.moved x.origin) (Behind x before i) (readLoop inner (fuel + 1) i)
      (readLoop outer (fuel' + 1) (before + i)) := by
  obtain ⟨-, hClose, -⟩ := whole_spec hWhole
  have hCloseMoved : (block.moved x.origin before).close = some (before + close) := by
    rw [Block.moved, hWhole.closed]
    rfl
  simp only [readLoop, h.tokensFrom_inner, h.tokensFrom_outer, ← h.room, hWhole.found,
    h.block _ _ hWhole.found, Option.bind_some, hCloseMoved, hWhole.closed,
    Excerpt.current_whole (.inl hi), Token.moved_trimLeft, Token.moved_place]
  rw [← Excerpt.at_]
  rcases (Excerpt.readLoopHead_ends inner.room (.inl hi) hStart hWord).cases with
    ⟨head, j, hLe, hj, hInner, hOuter⟩ | ⟨e, j, hLe, hj, hInner, hOuter⟩
  · simp only [hInner, hOuter, h.positionOf_inner hj, h.positionOf_outer hj]
    refine (hReads.body head.close hClose hj (hFuel.later (by decide) hi (by omega))).bind
      (fun body errors _ _ _ => ?_) (fun e errors q q' => .error e errors q q')
    dsimp only
    exact h.closing_tried hWhole "endfor" errors
      (fun shut => .loop head.iterator head.iterable body ⟨(x.at_ i).trimLeft, shut.trimRight⟩
        (x.at_ i).place)
      _ fun shut => by rw [Node.moved]; rfl
  · have hTokens := (advance_suffix _).trans ((advance_suffix _).trans (List.drop_suffix i x.part))
    simp only [hInner, hOuter]
    exact failed_tried hInner hTokens (readLoopHead_stays _ _) _ []

/-- Without any step nothing is asked of a reader. -/
theorem reads_zero (hZero : min fuel fuel' = 0) : Reads x inner outer before fuel fuel' := by
  have hNone {i level : Nat} (hFuel : Suffice x fuel fuel' i level) : x.size ≤ i ∧ level = 0 := by
    rw [Suffice] at hFuel
    omega
  constructor
  case branches =>
    intro start branches close hOrdered hClose _ _ hFuel
    have hAfter := (List.pairwise_cons.mp hOrdered).1 close (by simp)
    have hSize := (hNone hFuel).1
    omega
  all_goals intros; next hFuel => exact absurd (hNone hFuel).2 (by decide)

/-- Every reader does the same on both sides. -/
theorem reads (h : Within x inner outer before) (fuel fuel' : Nat) :
    Reads x inner outer before fuel fuel' := by
  -- Each reader calls others with one step less, so one step on both sides is enough.
  induction fuel generalizing fuel' with
  | zero => exact reads_zero (Nat.zero_min fuel')
  | succ fuel ih =>
      cases fuel' with
      | zero => exact reads_zero (Nat.min_zero _)
      | succ fuel' =>
          have hReads := ih fuel'
          exact ⟨hReads.nodes_succ h, hReads.node_succ h, hReads.tag_succ h, hReads.conditional_succ h,
            hReads.branches_succ h, hReads.loop_succ h, fun head => hReads.body_succ h head⟩

/-- With more of the template behind the part, reading goes on at its end, unless
something in the part is at fault. -/
theorem readNodes_through (h : Within x inner outer before) (hStop : before + x.size ≤ stop)
    (hi : i ≤ x.size) (hFuel : Suffice x fuel fuel' i 4) :
    (∃ nodes errors later, readNodes inner x.size fuel i = .ok ⟨nodes, errors, x.size⟩ ∧
      fuel' ≤ later + (x.size - i) ∧
      readNodes outer stop fuel' (before + i) =
        (readNodes outer stop later (before + x.size)).map fun rest =>
          ⟨movedAll x.origin nodes ++ rest.result,
            errors.map (TemplateError.moved x.origin) ++ rest.errors, rest.position⟩) ∨
      ∃ f, Blamed inner.room x.part f ∧ readNodes inner x.size fuel i = .error f ∧
        readNodes outer stop fuel' (before + i) = .error f := by
  induction fuel generalizing i fuel' with
  | zero =>
      rw [Suffice] at hFuel
      omega
  | succ fuel ih =>
      rcases Nat.lt_or_eq_of_le hi with hLess | rfl
      · cases fuel' with
        | zero =>
            rw [Suffice] at hFuel
            omega
        | succ fuel' =>
            obtain ⟨hMore, hMoreOuter⟩ := h.more_nodes hLess
            have hNode := (h.reads fuel fuel').node hLess (hFuel.here (by decide) (Nat.le_refl i))
            rw [readNodes_more hLess hMore, readNodes_more (by omega) hMoreOuter]
            rcases hNode.cases with
              ⟨node, errors, j, hLe, hj, hInner, hOuter⟩ | ⟨f, hBlamed, hInner, hOuter⟩
            · rw [hInner, hOuter]
              rcases ih hj (hFuel.later (by decide) hLess hLe) with
                ⟨rest, more, later, hInnerRest, hSteps, hOuterRest⟩ |
                ⟨f, hBlamed, hInnerRest, hOuterRest⟩
              · refine .inl ⟨node.toList ++ rest, errors ++ more, later, ?_, by omega, ?_⟩
                · simp only [bind, Except.bind, hInnerRest]
                  rfl
                · simp only [bind, Except.bind, hOuterRest, movedAll_toList_append, List.map_append]
                  cases readNodes outer stop later (before + x.size) with
                  | error f => rfl
                  | ok behind => simp only [Except.map, pure, Except.pure, List.append_assoc]
              · refine .inr ⟨f, hBlamed, ?_, ?_⟩
                · simp only [bind, Except.bind, hInnerRest]
                · simp only [bind, Except.bind, hOuterRest]
            · exact .inr ⟨f, hBlamed, by rw [hInner]; rfl, by rw [hOuter]; rfl⟩
      · refine .inl ⟨[], [], fuel', readNodes_done (Nat.lt_irrefl _), by omega, ?_⟩
        cases readNodes outer stop fuel' (before + x.size) <;> rfl

end Within

end NoteTemplate
