import NoteTemplate.Proofs.Blocks.Grammar

/-! The blocks of a template whose block tags are a sentence. There is one for
each opening tag, every other block tag belongs to the innermost block around it,
and of two blocks one ends before the other begins or lies between two tags of the
other that follow each other. -/
namespace NoteTemplate

namespace Block

/-- Whether a tag opens a block. -/
def Role.isOpener : Role → Bool
  | .opens _ => true
  | _ => false

/-- The tag that opens a block. -/
def opener (block : Block) : Tag := ⟨block.start, block.keyword, .opens block.kind⟩

/-- The places of all tags of a block, in order. -/
def places (block : Block) : List Nat := block.start :: block.boundaries

/-- The place of the last tag of a block. -/
def last (block : Block) : Nat := block.close.getD block.start

/-- A block to which a tag belongs that does not open one. -/
def Owns (block : Block) (tag : Tag) : Prop :=
  match tag.role with
  | .opens _ => False
  | .branches => block.kind = .conditional ∧ tag.index ∈ block.branches
  | .closes kind => block.kind = kind ∧ block.close = some tag.index

/-- A block that ends before another one begins. -/
def Before (first second : Block) : Prop := first.last < second.start

/-- A block that lies between two tags of another one that follow each other. -/
def Within (inner outer : Block) : Prop :=
  ∃ i j, [i, j] <:+: outer.places ∧ i < inner.start ∧ inner.last < j

/-- Blocks as they ought to be for some block tags. -/
structure Laminar (tags : List Tag) (blocks : List Block) : Prop where
  /-- There is one block for each opening tag. -/
  openers : blocks.map opener = tags.filter (·.role.isOpener)
  /-- Each block is closed, and its tags are tags of their kind, in order. -/
  whole : ∀ block ∈ blocks, block.close.isSome = true ∧ Describes tags block
  /-- Any other tag belongs to one block, the innermost one that is open there. -/
  owner : ∀ tag ∈ tags, tag.role.isOpener = false → ∃ block ∈ blocks, block.Owns tag ∧
    (∀ other ∈ blocks, tag.index ∈ other.boundaries → other = block) ∧
    ∀ other ∈ blocks, other.start < tag.index → tag.index ≤ other.last → other.start ≤ block.start
  /-- Two blocks are apart, or one is inside the other. -/
  nested : ∀ a ∈ blocks, ∀ b ∈ blocks, a ≠ b → a.Before b ∨ b.Before a ∨ a.Within b ∨ b.Within a

/-! Two numbers that follow each other in a list. -/

/-- A place between the first and a later element of a list lies between two neighbours
of it. -/
theorem exists_consecutive {first x y : Nat} {rest : List Nat} (hFirst : first < x) (hNot : x ∉ rest)
    (hMem : y ∈ rest) (hLess : x < y) : ∃ i j, [i, j] <:+: first :: rest ∧ i < x ∧ x < j := by
  induction rest generalizing first with
  | nil => cases hMem
  | cons next rest ih =>
      obtain ⟨hNext, hRest⟩ := not_or.mp (mt List.mem_cons.mpr hNot)
      rcases Nat.lt_or_gt_of_ne hNext with hBefore | hBehind
      · exact ⟨first, next, ⟨[], rest, rfl⟩, hFirst, hBefore⟩
      · have hLater : y ∈ rest := by
          rcases List.mem_cons.mp hMem with rfl | hLater
          · omega
          · exact hLater
        obtain ⟨i, j, hInfix, hBounds⟩ := ih hBehind hRest hLater
        exact ⟨i, j, List.infix_cons hInfix, hBounds⟩

/-- No number of an ascending list lies between two that follow each other. -/
theorem le_or_le_of_infix {l : List Nat} (hOrdered : l.Pairwise (· < ·)) {i j x : Nat}
    (hInfix : [i, j] <:+: l) (hMem : x ∈ l) : x ≤ i ∨ j ≤ x := by
  obtain ⟨before, after, rfl⟩ := hInfix
  rw [List.append_assoc] at hOrdered hMem
  obtain ⟨-, hLater, hBefore⟩ := List.pairwise_append.mp hOrdered
  obtain ⟨-, hBehind⟩ := List.pairwise_cons.mp hLater
  rcases List.mem_append.mp hMem with hMem | hMem
  · exact .inl (Nat.le_of_lt (hBefore x hMem i List.mem_cons_self))
  · rcases List.mem_cons.mp hMem with rfl | hMem
    · exact .inl (Nat.le_refl _)
    · rcases List.mem_cons.mp hMem with rfl | hMem
      · exact .inr (Nat.le_refl _)
      · exact .inr (Nat.le_of_lt ((List.pairwise_cons.mp hBehind).1 x hMem))

/-! Tags and the blocks that they belong to. -/

section

variable {tags : List Tag} {tag : Tag} {block later : Block}

/-- A block that has grown still owns the tags it owned. -/
theorem Owns.mono (h : block.Owns tag) (hKind : later.kind = block.kind)
    (hBranches : block.branches ⊆ later.branches)
    (hClose : ∀ index, block.close = some index → later.close = some index) : later.Owns tag := by
  rw [Owns] at h ⊢
  split at h
  · exact h
  · exact ⟨hKind.trans h.1, hBranches h.2⟩
  · exact ⟨hKind.trans h.1, hClose _ h.2⟩

theorem Owns.mem_boundaries (h : block.Owns tag) : tag.index ∈ block.boundaries := by
  rw [Owns] at h
  split at h
  · exact h.elim
  · exact List.mem_append_left _ h.2
  · exact List.mem_append_right _ (Option.mem_toList.mpr h.2)

/-- Every tag that opens no block belongs to one. -/
def Owned (tags : List Tag) (m : Matching) : Prop :=
  ∀ tag ∈ tags, tag.role.isOpener = false → ∃ block ∈ m.stack ++ m.closed, block.Owns tag

/-- A new tag belongs to the innermost block, and what belonged to a block before
still does. -/
theorem Owned.step {m : Matching} (h : Owned tags m) (hOpen : ∀ block ∈ m.stack, block.close = none)
    (hClean : (m.step tag).mistakes = []) : Owned (tags ++ [tag]) (m.step tag) := by
  suffices hBlocks :
      (∀ block ∈ m.stack ++ m.closed, ∃ later ∈ (m.step tag).stack ++ (m.step tag).closed,
        ∀ t, block.Owns t → later.Owns t) ∧
      (tag.role.isOpener = false → ∃ block ∈ (m.step tag).stack ++ (m.step tag).closed,
        block.Owns tag) by
    refine List.forall_mem_append.mpr ⟨fun t hMem hRole => ?_,
      List.forall_mem_singleton.mpr hBlocks.2⟩
    obtain ⟨block, hBlock, hOwns⟩ := h t hMem hRole
    obtain ⟨later, hLater, hKeeps⟩ := hBlocks.1 block hBlock
    exact ⟨later, hLater, hKeeps t hOwns⟩
  rcases (Matching.step_clean hClean).2 with ⟨kind, hRole, hStack, hClosed⟩ |
    ⟨block, outer, hRole, hKind, hBefore, hStack, hClosed⟩ |
    ⟨block, outer, hRole, hBefore, hStack, hClosed⟩ <;>
    rw [hStack, hClosed]
  · refine ⟨fun other hMem => ⟨other, List.mem_cons_of_mem _ hMem, fun _ => id⟩, fun hNot => ?_⟩
    rw [hRole] at hNot
    cases hNot
  · rw [hBefore]
    refine ⟨List.forall_mem_cons.mpr
      ⟨⟨_, List.mem_cons_self, fun t hOwns => ?_⟩, fun other hMem => ?_⟩,
      fun _ => ⟨_, List.mem_cons_self, ?_⟩⟩
    · exact hOwns.mono rfl (List.subset_append_left _ _) fun _ => id
    · exact ⟨other, List.mem_cons_of_mem _ hMem, fun _ => id⟩
    · rw [Owns, hRole]
      exact ⟨hKind, List.mem_append_right _ (List.mem_singleton_self _)⟩
  · have hNone : block.close = none := hOpen block (by rw [hBefore]; exact List.mem_cons_self)
    rw [hBefore]
    refine ⟨List.forall_mem_cons.mpr
      ⟨⟨_, List.mem_append_right _ List.mem_cons_self, fun t hOwns => ?_⟩, fun other hMem => ?_⟩,
      fun _ => ⟨_, List.mem_append_right _ List.mem_cons_self, ?_⟩⟩
    · refine hOwns.mono rfl (List.Subset.refl _) fun index hClose => ?_
      cases hNone.symm.trans hClose
    · refine ⟨other, ?_, fun _ => id⟩
      rcases List.mem_append.mp hMem with hOuter | hShut
      · exact List.mem_append_left _ hOuter
      · exact List.mem_append_right _ (List.mem_cons_of_mem _ hShut)
    · rw [Owns, hRole]
      exact ⟨rfl, rfl⟩

/-- As long as no mistake is noted, every tag has an owner while the matching goes on.
-/
theorem Owned.run {m : Matching} (h : Owned tags m) (hCounted : Counted tags m) {rest : List Tag}
    (hOrdered : (tags ++ rest).Pairwise (·.index < ·.index))
    (hClean : (rest.foldl Matching.step m).mistakes = []) :
    Owned (tags ++ rest) (rest.foldl Matching.step m) := by
  induction rest generalizing tags m with
  | nil => rwa [List.append_nil]
  | cons tag rest ih =>
      have hLater : ∀ t ∈ tags, t.index < tag.index := fun t hTag =>
        (List.pairwise_append.mp hOrdered).2.2 t hTag tag List.mem_cons_self
      have hStep : (m.step tag).mistakes = [] := (Matching.run_mono (m.step tag) rest).1 hClean
      rw [List.append_cons] at hOrdered ⊢
      exact ih (h.step hCounted.unclosed hStep) (hCounted.step hLater) hOrdered hClean

/-! The places of one block. -/

theorem eq_of_index (hOrdered : tags.Pairwise (·.index < ·.index)) {other : Tag} (hTag : tag ∈ tags)
    (hOther : other ∈ tags) (h : tag.index = other.index) : tag = other := by
  have hDistinct : (tags.map Tag.index).Nodup := List.pairwise_map.mpr (hOrdered.imp Nat.ne_of_lt)
  exact List.inj_on_of_nodup_map hDistinct hTag hOther h

/-- No block goes on or ends at a tag that opens one. -/
theorem Describes.not_mem_boundaries (h : Describes tags block)
    (hOrdered : tags.Pairwise (·.index < ·.index)) (hTag : tag ∈ tags) {kind : BlockKind}
    (hRole : tag.role = .opens kind) : tag.index ∉ block.boundaries := by
  intro hMem
  rcases List.mem_append.mp hMem with hBranch | hClose
  · obtain ⟨other, hOther, hIndex, hBranches⟩ := h.branches _ hBranch
    rw [eq_of_index hOrdered hOther hTag hIndex, hRole] at hBranches
    cases hBranches
  · obtain ⟨other, hOther, hIndex, _, hCloses⟩ := h.close _ (Option.mem_toList.mp hClose)
    rw [eq_of_index hOrdered hOther hTag hIndex, hRole] at hCloses
    cases hCloses

/-- The places of a closed block lie between its ends. -/
theorem Describes.le_last (h : Describes tags block) (hClosed : block.close.isSome = true)
    {x : Nat} (hMem : x ∈ block.places) : block.start ≤ x ∧ x ≤ block.last := by
  obtain ⟨close, hClose⟩ := Option.isSome_iff_exists.mp hClosed
  have hOrdered := h.ordered
  rw [places, boundaries, hClose] at hMem
  rw [boundaries, hClose] at hOrdered
  have hStart := (List.pairwise_cons.mp hOrdered).1
  rw [last, hClose, Option.getD_some]
  refine ⟨?_, ?_⟩
  · rcases List.mem_cons.mp hMem with rfl | hBehind
    · exact Nat.le_refl _
    · exact Nat.le_of_lt (hStart x hBehind)
  · rw [Option.toList_some, ← List.cons_append] at hMem hOrdered
    rcases List.mem_append.mp hMem with hFront | hLast
    · have hBefore := (List.pairwise_append.mp hOrdered).2.2
      exact Nat.le_of_lt (hBefore x hFront close (List.mem_singleton_self _))
    · exact Nat.le_of_eq (List.mem_singleton.mp hLast)

theorem last_mem_boundaries (hClosed : block.close.isSome = true) : block.last ∈ block.boundaries := by
  obtain ⟨close, hClose⟩ := Option.isSome_iff_exists.mp hClosed
  rw [last, boundaries, hClose]
  exact List.mem_append_right _ (List.mem_singleton_self _)

/-- The tags of a block are not inside another block within it. -/
theorem Describes.not_mem_places (h : Describes tags block) {inner : Block}
    (hWithin : inner.Within block) {x : Nat} (hFrom : inner.start ≤ x) (hTo : x ≤ inner.last) :
    x ∉ block.places := by
  obtain ⟨i, j, hInfix, hFront, hBehind⟩ := hWithin
  intro hMem
  rcases le_or_le_of_infix h.ordered hInfix hMem with hLess | hMore <;> omega

/-- Where one tag of a block follows another, the same blocks are open behind the
one and in front of the other. -/
theorem Leads.level_eq {start i j : Nat} {indices : List Nat} {behind : List Block}
    (h : Leads tags start indices behind) (hInfix : [i, j] <:+: start :: indices) :
    level tags (i + 1) = level tags j := by
  induction indices generalizing start with
  | nil => simp [List.infix_cons_iff] at hInfix
  | cons next rest ih =>
      rcases List.infix_cons_iff.mp hInfix with hFirst | hLater
      · obtain ⟨rfl, hSecond⟩ := List.cons_prefix_cons.mp hFirst
        obtain ⟨rfl, -⟩ := List.cons_prefix_cons.mp hSecond
        exact h.1
      · exact ih h.2 hLater

end

end Block

namespace BlockMap

open Block

variable {tokens : List Token} {a b : Block}

/-- The blocks stand in the order of their opening tags. -/
theorem pairwise_blocks (tokens : List Token) :
    (ofTokens tokens).blocks.Pairwise fun a b => a.start < b.start := by
  have hSorted : (ofTokens tokens).blocks.Pairwise fun a b => decide (a.start ≤ b.start) = true := by
    refine List.pairwise_mergeSort (fun a b c hFirst hSecond => ?_) (fun a b => ?_) _
    · rw [decide_eq_true_eq] at hFirst hSecond ⊢
      exact Nat.le_trans hFirst hSecond
    · rw [Bool.or_eq_true, decide_eq_true_eq, decide_eq_true_eq]
      exact Nat.le_total _ _
  have hDistinct : (ofTokens tokens).blocks.Pairwise fun a b => a.start ≠ b.start := by
    have hPerm := (List.mergeSort_perm ((counted tokens).stack ++ (counted tokens).closed)
      fun a b => a.start ≤ b.start).map Block.start
    exact List.pairwise_map.mp (hPerm.nodup_iff.mpr (counted_spec tokens).distinct)
  exact (hSorted.and hDistinct).imp fun h => Nat.lt_of_le_of_ne (of_decide_eq_true h.1) h.2

section

variable (h : (ofTokens tokens).issues = [])

include h

theorem mem_closed (hMem : a ∈ (ofTokens tokens).blocks) : a ∈ (counted tokens).closed := by
  rwa [mem_blocks, (of_issues h).1, List.nil_append] at hMem

theorem whole_of_mem (hMem : a ∈ (ofTokens tokens).blocks) :
    a.close.isSome = true ∧ Describes (tagsFrom 0 tokens) a :=
  ⟨(counted_spec tokens).closed a (mem_closed h hMem),
    (counted_spec tokens).describes a (mem_blocks.mp hMem)⟩

theorem opener_mem (hMem : a ∈ (ofTokens tokens).blocks) : a.opener ∈ tagsFrom 0 tokens :=
  ((traced_counted h).suited a (mem_blocks.mp hMem)).opener

/-- Blocks are known by their opening tags, and every opening tag begins one. -/
theorem mem_map_opener {tag : Tag} :
    tag ∈ (ofTokens tokens).blocks.map opener ↔ tag ∈ (tagsFrom 0 tokens).filter (·.role.isOpener) := by
  rw [List.mem_map, List.mem_filter]
  constructor
  · rintro ⟨block, hMem, rfl⟩
    exact ⟨opener_mem h hMem, rfl⟩
  · rintro ⟨hTag, hRole⟩
    cases hKind : tag.role with
    | opens kind =>
        have hOpened := (counted_spec tokens).opened tag hTag kind hKind
        obtain ⟨block, hBlock, hStart⟩ := List.mem_map.mp hOpened
        have hMem := mem_blocks.mpr hBlock
        exact ⟨block, hMem, eq_of_index (pairwise_tagsFrom 0 tokens) (opener_mem h hMem) hTag hStart⟩
    | branches => rw [hKind] at hRole; cases hRole
    | closes kind => rw [hKind] at hRole; cases hRole

/-- The blocks stand in the order of their opening tags. -/
theorem map_opener : (ofTokens tokens).blocks.map opener =
    (tagsFrom 0 tokens).filter (·.role.isOpener) := by
  have hBlocks : ((ofTokens tokens).blocks.map opener).Pairwise (·.index < ·.index) :=
    List.pairwise_map.mpr (pairwise_blocks tokens)
  have hTags := (pairwise_tagsFrom 0 tokens).filter (·.role.isOpener)
  have hDistinct {a b : Tag} (hLess : a.index < b.index) : a ≠ b :=
    fun hSame => Nat.ne_of_lt hLess (congrArg Tag.index hSame)
  have hPerm := (List.perm_ext_iff_of_nodup (hBlocks.imp hDistinct) (hTags.imp hDistinct)).mpr
    fun _ => mem_map_opener h
  exact hPerm.eq_of_pairwise (fun _ _ _ _ hLess hMore => absurd hLess (Nat.lt_asymm hMore))
    hBlocks hTags

/-- Of two blocks the one that begins first ends before the other one begins, or
has it between two tags that follow each other. -/
theorem before_or_within (hFirst : a ∈ (ofTokens tokens).blocks)
    (hSecond : b ∈ (ofTokens tokens).blocks) (hLess : a.start < b.start) : a.Before b ∨ b.Within a := by
  by_cases hApart : a.last < b.start
  · exact .inl hApart
  right
  have hOrdered := pairwise_tagsFrom 0 tokens
  have hOpener := opener_mem h hSecond
  obtain ⟨hShut, hDescribes⟩ := whole_of_mem h hFirst
  have hNot : b.start ∉ a.boundaries := hDescribes.not_mem_boundaries hOrdered hOpener rfl
  have hLast := last_mem_boundaries hShut
  have hInside : b.start < a.last := by
    refine Nat.lt_of_le_of_ne (Nat.not_lt.mp hApart) fun hSame => hNot ?_
    rwa [hSame]
  obtain ⟨i, j, hInfix, hFront, hBehind⟩ := exists_consecutive hLess hNot hLast hInside
  obtain ⟨close, hClose, hLeads⟩ := (traced_counted h).closed a (mem_closed h hFirst)
  have hBoundaries : a.boundaries = a.branches ++ [close] := by rw [boundaries, hClose]; rfl
  rw [← hBoundaries] at hLeads
  obtain ⟨last, hEnd⟩ := Option.isSome_iff_exists.mp (whole_of_mem h hSecond).1
  refine ⟨i, j, hInfix, hFront, ?_⟩
  rw [Block.last, hEnd]
  exact close_lt_of_level hOrdered hOpener rfl (mem_closed h hSecond) rfl hEnd
    (hLeads.level_eq hInfix) hFront hBehind

/-- Of two blocks, one lies before the other or inside of it. -/
theorem nested_of_ne (hFirst : a ∈ (ofTokens tokens).blocks)
    (hSecond : b ∈ (ofTokens tokens).blocks) (hNot : a ≠ b) :
    a.Before b ∨ b.Before a ∨ a.Within b ∨ b.Within a := by
  have hStarts : a.start ≠ b.start := fun hSame => hNot (List.inj_on_of_nodup_map
    (counted_spec tokens).distinct (mem_blocks.mp hFirst) (mem_blocks.mp hSecond) hSame)
  rcases Nat.lt_or_gt_of_ne hStarts with hLess | hMore
  · rcases before_or_within h hFirst hSecond hLess with hBefore | hWithin
    · exact .inl hBefore
    · exact .inr (.inr (.inr hWithin))
  · rcases before_or_within h hSecond hFirst hMore with hBefore | hWithin
    · exact .inr (.inl hBefore)
    · exact .inr (.inr (.inl hWithin))

/-- Blocks that share a tag are the same. -/
theorem eq_of_mem_places (hFirst : a ∈ (ofTokens tokens).blocks)
    (hSecond : b ∈ (ofTokens tokens).blocks) {x : Nat} (hPlace : x ∈ a.places)
    (hOther : x ∈ b.places) : a = b := by
  obtain ⟨hShut, hDescribes⟩ := whole_of_mem h hFirst
  obtain ⟨hEnded, hDescribed⟩ := whole_of_mem h hSecond
  obtain ⟨hFrom, hTo⟩ := hDescribes.le_last hShut hPlace
  obtain ⟨hBegins, hEnds⟩ := hDescribed.le_last hEnded hOther
  by_contra hNot
  rcases nested_of_ne h hFirst hSecond hNot with hBefore | hBefore | hWithin | hWithin
  · rw [Before] at hBefore
    omega
  · rw [Before] at hBefore
    omega
  · exact hDescribed.not_mem_places hWithin hFrom hTo hOther
  · exact hDescribes.not_mem_places hWithin hBegins hEnds hPlace

/-- What is open around a tag of a block begins no later than the block. -/
theorem start_le_of_mem_places (hBlock : a ∈ (ofTokens tokens).blocks)
    (hOther : b ∈ (ofTokens tokens).blocks) {x : Nat} (hPlace : x ∈ a.places) (hFront : b.start < x)
    (hBehind : x ≤ b.last) : b.start ≤ a.start := by
  obtain ⟨hShut, hDescribes⟩ := whole_of_mem h hBlock
  by_contra hMore
  rcases before_or_within h hBlock hOther (Nat.lt_of_not_le hMore) with hBefore | hWithin
  · have hLast := (hDescribes.le_last hShut hPlace).2
    rw [Before] at hBefore
    omega
  · exact hDescribes.not_mem_places hWithin (Nat.le_of_lt hFront) hBehind hPlace

theorem exists_owner {tag : Tag} (hTag : tag ∈ tagsFrom 0 tokens) (hRole : tag.role.isOpener = false) :
    ∃ block ∈ (ofTokens tokens).blocks, block.Owns tag := by
  have hOwned : Owned (tagsFrom 0 tokens) (counted tokens) :=
    Owned.run (List.forall_mem_nil _) counted_nil (pairwise_tagsFrom 0 tokens) (of_issues h).2
  obtain ⟨block, hBlock, hOwns⟩ := hOwned tag hTag hRole
  exact ⟨block, mem_blocks.mpr hBlock, hOwns⟩

/-- The blocks of a template without block mistakes are laminar. -/
theorem laminar_of_issues : Laminar (tagsFrom 0 tokens) (ofTokens tokens).blocks := by
  refine ⟨map_opener h, fun _ => whole_of_mem h, fun tag hTag hRole => ?_,
    fun _ hFirst _ hSecond => nested_of_ne h hFirst hSecond⟩
  obtain ⟨block, hBlock, hOwns⟩ := exists_owner h hTag hRole
  have hPlace : tag.index ∈ block.places := List.mem_cons_of_mem _ hOwns.mem_boundaries
  refine ⟨block, hBlock, hOwns, fun other hOther hMem => ?_, fun other hOther =>
    start_le_of_mem_places h hBlock hOther hPlace⟩
  exact eq_of_mem_places h hOther hBlock (List.mem_cons_of_mem _ hMem) hPlace

end

/-- Nothing is wrong with the blocks of a template just when its block tags are a
sentence, and then its blocks are as they ought to be. -/
theorem balanced_iff_sentence_and_laminar (tokens : List Token) :
    ((ofTokens tokens).balanced = true ↔ Sentence maxDepth ((tagsFrom 0 tokens).map Tag.role)) ∧
      ((ofTokens tokens).balanced = true → Laminar (tagsFrom 0 tokens) (ofTokens tokens).blocks) :=
  ⟨balanced_iff tokens, fun h => laminar_of_issues (List.isEmpty_iff.mp h)⟩

end BlockMap

end NoteTemplate
