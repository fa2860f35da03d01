import NoteTemplate.Proofs.Compose.Blocks

/-! The blocks that are open at each place of a template. Between two tags of
one block that follow each other the open blocks are the same at both ends, and
so they are in front of a block and behind it. Where the same blocks are open
as at a later place, no tag stands that goes on with one of them or closes it. -/
namespace NoteTemplate

namespace Block

namespace Matching

/-- When a step finds no mistake there was none before, and the tag opens a
block, belongs to the innermost one, or closes it. -/
theorem step_clean {m : Matching} {tag : Tag} (h : (m.step tag).mistakes = []) :
    m.mistakes = [] ∧
      ((∃ kind, tag.role = .opens kind ∧
        (m.step tag).stack = { kind, start := tag.index, keyword := tag.keyword } :: m.stack ∧
        (m.step tag).closed = m.closed) ∨
      (∃ block rest, tag.role = .branches ∧ block.kind = .conditional ∧ m.stack = block :: rest ∧
        (m.step tag).stack = { block with branches := block.branches ++ [tag.index] } :: rest ∧
        (m.step tag).closed = m.closed) ∨
      (∃ block rest, tag.role = .closes block.kind ∧ m.stack = block :: rest ∧
        (m.step tag).stack = rest ∧
        (m.step tag).closed = { block with close := some tag.index } :: m.closed)) := by
  rw [step] at h ⊢
  cases hRole : tag.role with
  | opens kind =>
      rw [hRole] at h
      dsimp only at h ⊢
      split at h
      · cases h
      · next hDepth =>
        rw [if_neg hDepth]
        exact ⟨h, .inl ⟨kind, rfl, rfl, rfl⟩⟩
  | branches =>
      rw [hRole] at h
      dsimp only at h ⊢
      split at h
      · next block rest hStack =>
        split at h
        · next hKind =>
          rw [if_pos hKind]
          exact ⟨h, .inr (.inl ⟨block, rest, rfl, hKind, hStack, rfl, rfl⟩)⟩
        · cases h
      · cases h
  | closes kind =>
      rw [hRole] at h
      dsimp only at h ⊢
      split at h
      · next block rest hStack =>
        split at h
        · next hKind =>
          rw [if_pos hKind]
          exact ⟨h, .inr (.inr ⟨block, rest, congrArg Role.closes hKind.symm, hStack, rfl, rfl⟩)⟩
        · cases h
      · cases h

/-- Mistakes and closed blocks stay. -/
theorem run_mono (m : Matching) (tags : List Tag) :
    ((tags.foldl step m).mistakes = [] → m.mistakes = []) ∧
      m.closed ⊆ (tags.foldl step m).closed := by
  induction tags generalizing m with
  | nil => exact ⟨id, List.Subset.refl _⟩
  | cons tag rest ih =>
      obtain ⟨hMistakes, hClosed⟩ := ih (m.step tag)
      refine ⟨fun h => (step_clean (hMistakes h)).1, fun block hMem => hClosed ?_⟩
      rcases m.step_cases tag with ⟨-, -, hSame⟩ | ⟨-, -, -, hSame⟩ | ⟨-, -, -, -, -, hSame⟩ |
        ⟨_, _, _, -, -, -, hMore⟩
      · rwa [hSame]
      · rwa [hSame]
      · rwa [hSame]
      · rw [hMore]
        exact List.mem_cons_of_mem _ hMem

end Matching

/-- The count behind the tags in front of an index. -/
def countTo (tags : List Tag) (index : Nat) : Matching :=
  (tags.filter (·.index < index)).foldl Matching.step {}

/-- The blocks that are open at an index, innermost first. -/
def level (tags : List Tag) (index : Nat) : List Block := (countTo tags index).stack

variable {tags before after : List Tag} {tag : Tag} {i j : Nat}

theorem countTo_congr (h : ∀ tag ∈ tags, tag.index < i ↔ tag.index < j) :
    countTo tags i = countTo tags j := by
  rw [countTo, countTo, List.filter_congr fun tag hTag => decide_eq_decide.mpr (h tag hTag)]

/-- The tags in front of an index that is not in front of a given tag. -/
theorem filter_before (hOrdered : (before ++ tag :: after).Pairwise (·.index < ·.index)) :
    (before ++ tag :: after).filter (·.index < i) =
      if tag.index < i then before ++ tag :: after.filter (·.index < i)
      else before.filter (·.index < i) := by
  obtain ⟨-, hLater, hBetween⟩ := List.pairwise_append.mp hOrdered
  have hBehind := (List.pairwise_cons.mp hLater).1
  rw [List.filter_append, List.filter_cons]
  split
  · next hTag =>
    rw [decide_eq_true_eq] at hTag
    have hBefore : before.filter (·.index < i) = before := by
      rw [List.filter_eq_self]
      intro t hMem
      have hLess := hBetween t hMem tag List.mem_cons_self
      exact decide_eq_true (Nat.lt_trans hLess hTag)
    rw [if_pos hTag, hBefore]
  · next hTag =>
    rw [decide_eq_true_eq] at hTag
    have hAfter : after.filter (·.index < i) = [] := by
      rw [List.filter_eq_nil_iff]
      intro t hMem hLess
      rw [decide_eq_true_eq] at hLess
      exact hTag (Nat.lt_trans (hBehind t hMem) hLess)
    rw [if_neg hTag, hAfter, List.append_nil]

/-- In front of a tag, all earlier tags are counted. -/
theorem countTo_tag (hOrdered : (before ++ tag :: after).Pairwise (·.index < ·.index)) :
    countTo (before ++ tag :: after) tag.index = before.foldl Matching.step {} := by
  obtain ⟨-, -, hBetween⟩ := List.pairwise_append.mp hOrdered
  have hBefore : before.filter (·.index < tag.index) = before := by
    rw [List.filter_eq_self]
    intro t hMem
    exact decide_eq_true (hBetween t hMem tag List.mem_cons_self)
  rw [countTo, filter_before hOrdered, if_neg (Nat.lt_irrefl _), hBefore]

/-- Behind a tag, the count goes on with the tag and those in between. -/
theorem countTo_behind (hOrdered : (before ++ tag :: after).Pairwise (·.index < ·.index))
    (h : tag.index < i) : countTo (before ++ tag :: after) i =
      (after.filter (·.index < i)).foldl Matching.step
        ((before.foldl Matching.step {}).step tag) := by
  rw [countTo, filter_before hOrdered, if_pos h, List.foldl_append, List.foldl_cons]

/-- Behind a tag, it is counted as well. -/
theorem countTo_succ (hOrdered : (before ++ tag :: after).Pairwise (·.index < ·.index)) :
    countTo (before ++ tag :: after) (tag.index + 1) =
      (before.foldl Matching.step {}).step tag := by
  obtain ⟨-, hLater, -⟩ := List.pairwise_append.mp hOrdered
  have hAfter : after.filter (·.index < tag.index + 1) = [] := by
    rw [List.filter_eq_nil_iff]
    intro t hMem hLess
    rw [decide_eq_true_eq] at hLess
    have hBehind := (List.pairwise_cons.mp hLater).1 t hMem
    omega
  rw [countTo_behind hOrdered (Nat.lt_succ_self _), hAfter, List.foldl_nil]

/-- The count goes on from an index to the end. -/
theorem countTo_rest (hOrdered : tags.Pairwise (·.index < ·.index)) (i : Nat) :
    (tags.filter (i ≤ ·.index)).foldl Matching.step (countTo tags i) =
      tags.foldl Matching.step {} := by
  have hSplit : tags.filter (·.index < i) ++ tags.filter (i ≤ ·.index) = tags := by
    induction tags with
    | nil => rfl
    | cons tag rest ih =>
        obtain ⟨hBehind, hRest⟩ := List.pairwise_cons.mp hOrdered
        by_cases hTag : tag.index < i
        · rw [List.filter_cons_of_pos (by simpa using hTag),
            List.filter_cons_of_neg (by simpa using hTag), List.cons_append, ih hRest]
        · have hBefore : (tag :: rest).filter (·.index < i) = [] := by
            rw [List.filter_eq_nil_iff]
            refine List.forall_mem_cons.mpr ⟨by simpa using hTag, fun t hMem hLess => ?_⟩
            have hLater := hBehind t hMem
            rw [decide_eq_true_eq] at hLess
            omega
          have hAfter : (tag :: rest).filter (i ≤ ·.index) = tag :: rest := by
            rw [List.filter_eq_self]
            refine List.forall_mem_cons.mpr ⟨by simpa using hTag, fun t hMem => ?_⟩
            have hLater := hBehind t hMem
            rw [decide_eq_true_eq]
            omega
          rw [hBefore, hAfter, List.nil_append]
  rw [countTo, ← List.foldl_append, hSplit]

theorem counted_countTo (hOrdered : tags.Pairwise (·.index < ·.index)) (i : Nat) :
    Counted (tags.filter (·.index < i)) (countTo tags i) :=
  counted_nil.run (by rw [List.nil_append]; exact hOrdered.filter _)

/-! The tags of one block. -/

/-- From one tag of a block to the next the open blocks stay the same, and behind
the last one there are given ones. -/
def Leads (tags : List Tag) : Nat → List Nat → List Block → Prop
  | i, [], behind => level tags (i + 1) = behind
  | i, next :: rest, behind => level tags (i + 1) = level tags next ∧ Leads tags next rest behind

theorem Leads.append {start : Nat} {indices : List Nat} {middle behind : List Block}
    (h : Leads tags start indices middle) (hLast : level tags i = middle)
    (hBehind : level tags (i + 1) = behind) : Leads tags start (indices ++ [i]) behind := by
  induction indices generalizing start with
  | nil => exact ⟨h.trans hLast.symm, hBehind⟩
  | cons next rest ih => exact ⟨h.1, ih h.2⟩

theorem Leads.behind {start : Nat} {indices : List Nat} {behind : List Block}
    (h : Leads tags start (indices ++ [i]) behind) : level tags (i + 1) = behind := by
  induction indices generalizing start with
  | nil => exact h.2
  | cons next rest ih => exact ih h.2

/-- Open blocks, each with what was open in front of it and with its tags so far. -/
def Opened (tags : List Tag) : List Block → Prop
  | [] => True
  | block :: outer => level tags block.start = outer ∧
      Leads tags block.start block.branches (block :: outer) ∧ Opened tags outer

/-- A closed block: the blocks open behind it are those open in front of it. -/
def Closed (tags : List Tag) (block : Block) : Prop :=
  ∃ close, block.close = some close ∧
    Leads tags block.start (block.branches ++ [close]) (level tags block.start)

/-- A block of the kind that its opening tag tells, with branches only if it is a
condition. -/
structure Suited (tags : List Tag) (block : Block) : Prop where
  opener : (⟨block.start, block.keyword, .opens block.kind⟩ : Tag) ∈ tags
  branches : block.kind = .loop → block.branches = []

/-- A state of the count in which every block is as it should be. -/
structure Traced (tags : List Tag) (m : Matching) : Prop where
  opened : Opened tags m.stack
  closed : ∀ block ∈ m.closed, Closed tags block
  suited : ∀ block ∈ m.stack ++ m.closed, Suited tags block

/-- A tag that is no mistake leaves blocks that suit the tags. -/
theorem Traced.step_suited {m : Matching} (h : Traced tags m) (hTag : tag ∈ tags)
    (hClean : (m.step tag).mistakes = []) :
    ∀ block ∈ (m.step tag).stack ++ (m.step tag).closed, Suited tags block := by
  have hSuited := h.suited
  rcases (Matching.step_clean hClean).2 with ⟨kind, hRole, hStack, hClosed⟩ |
    ⟨block, outer, -, hKind, hBefore, hStack, hClosed⟩ |
    ⟨block, outer, -, hBefore, hStack, hClosed⟩ <;>
    rw [hStack, hClosed]
  · refine List.forall_mem_cons.mpr ⟨⟨?_, fun _ => rfl⟩, hSuited⟩
    rw [← hRole]
    exact hTag
  · rw [hBefore] at hSuited
    obtain ⟨hBlock, hOthers⟩ := List.forall_mem_cons.mp hSuited
    refine List.forall_mem_cons.mpr ⟨⟨hBlock.opener, fun hLoop => ?_⟩, hOthers⟩
    cases hKind.symm.trans hLoop
  · rw [hBefore] at hSuited
    obtain ⟨hBlock, hOthers⟩ := List.forall_mem_cons.mp hSuited
    obtain ⟨hOuter, hShut⟩ := List.forall_mem_append.mp hOthers
    exact List.forall_mem_append.mpr ⟨hOuter,
      List.forall_mem_cons.mpr ⟨⟨hBlock.opener, hBlock.branches⟩, hShut⟩⟩

/-- A tag that is no mistake leaves every block as it should be. -/
theorem Traced.step {m : Matching} (h : Traced tags m) (hTag : tag ∈ tags)
    (hHere : level tags tag.index = m.stack)
    (hNext : level tags (tag.index + 1) = (m.step tag).stack) (hClean : (m.step tag).mistakes = []) :
    Traced tags (m.step tag) := by
  suffices hBlocks : Opened tags (m.step tag).stack ∧ ∀ block ∈ (m.step tag).closed, Closed tags block
    from ⟨hBlocks.1, hBlocks.2, h.step_suited hTag hClean⟩
  have hOpened := h.opened
  rcases (Matching.step_clean hClean).2 with ⟨kind, -, hStack, hClosed⟩ |
    ⟨block, outer, -, -, hBefore, hStack, hClosed⟩ |
    ⟨block, outer, -, hBefore, hStack, hClosed⟩ <;>
    rw [hClosed, hStack] <;> rw [hStack] at hNext
  · exact ⟨⟨hHere, hNext, hOpened⟩, h.closed⟩
  · rw [hBefore] at hOpened hHere
    exact ⟨⟨hOpened.1, hOpened.2.1.append hHere hNext, hOpened.2.2⟩, h.closed⟩
  · rw [hBefore] at hOpened hHere
    refine ⟨hOpened.2.2, List.forall_mem_cons.mpr ⟨⟨tag.index, rfl, ?_⟩, h.closed⟩⟩
    exact hOpened.2.1.append hHere (hNext.trans hOpened.1.symm)

/-- As long as no tag is a mistake, every block is as it should be. -/
theorem Traced.run (before : List Tag) {m : Matching}
    (hRun : before.foldl Matching.step {} = m) (h : Traced tags m)
    (hTags : tags = before ++ after) (hOrdered : tags.Pairwise (·.index < ·.index))
    (hClean : (after.foldl Matching.step m).mistakes = []) :
    Traced tags (after.foldl Matching.step m) := by
  induction after generalizing before m with
  | nil => exact h
  | cons tag rest ih =>
      have hStep : (m.step tag).mistakes = [] := (Matching.run_mono (m.step tag) rest).1 hClean
      have hTag : tag ∈ tags := by
        rw [hTags]
        exact List.mem_append_right _ List.mem_cons_self
      have hSorted := hOrdered
      rw [hTags] at hSorted
      have hHere : level tags tag.index = m.stack := by
        rw [level, hTags, countTo_tag hSorted, hRun]
      have hNext : level tags (tag.index + 1) = (m.step tag).stack := by
        rw [level, hTags, countTo_succ hSorted, hRun]
      have hBehind : (before ++ [tag]).foldl Matching.step {} = m.step tag := by
        rw [List.foldl_append, hRun, List.foldl_cons, List.foldl_nil]
      exact ih (before ++ [tag]) hBehind (h.step hTag hHere hNext hStep)
        (by rw [hTags, List.append_assoc]; rfl) hClean

/-! Tags that go on with a block or close it. -/

/-- A block that is still open has the tag among its branches. -/
def Touched (start index : Nat) (m : Matching) : Prop :=
  ∀ block ∈ m.stack, block.start = start → index ∈ block.branches

/-- A block that no later tag begins anew stays as it was. -/
theorem Touched.run {start index : Nat} {m : Matching} (h : Touched start index m)
    (hLater : ∀ tag ∈ tags, start < tag.index) : Touched start index (tags.foldl Matching.step m) := by
  induction tags generalizing m with
  | nil => exact h
  | cons tag rest ih =>
      obtain ⟨hTag, hRest⟩ := List.forall_mem_cons.mp hLater
      refine ih ?_ hRest
      intro block hMem hStart
      rcases m.step_cases tag with ⟨-, hStack, -⟩ | ⟨kind, -, hStack, -⟩ |
        ⟨first, outer, -, hBefore, hStack, -⟩ | ⟨first, outer, kind, -, hBefore, hStack, -⟩ <;>
        rw [hStack] at hMem
      · exact h block hMem hStart
      · rcases List.mem_cons.mp hMem with rfl | hOld
        · exact absurd hStart (Nat.ne_of_gt hTag)
        · exact h block hOld hStart
      · rcases List.mem_cons.mp hMem with rfl | hOld
        · have hFirst := h first (by rw [hBefore]; exact List.mem_cons_self) hStart
          exact List.mem_append_left _ hFirst
        · exact h block (by rw [hBefore]; exact List.mem_cons_of_mem _ hOld) hStart
      · exact h block (by rw [hBefore]; exact List.mem_cons_of_mem _ hMem) hStart

/-- The innermost block in front of a tag, when it belongs to that block. -/
theorem touched_step {m : Matching} {block : Block} {outer : List Block}
    (hDistinct : m.starts.Nodup) (hStack : m.stack = block :: outer)
    (hStep : (m.step tag).stack = { block with branches := block.branches ++ [tag.index] } :: outer ∨
      (m.step tag).stack = outer) : Touched block.start tag.index (m.step tag) := by
  have hOuter : ∀ other ∈ outer, other.start ≠ block.start := by
    rw [Matching.starts, hStack, List.cons_append, List.map_cons, List.nodup_cons] at hDistinct
    intro other hMem hSame
    exact hDistinct.1 (List.mem_map.mpr ⟨other, List.mem_append_left _ hMem, hSame⟩)
  intro other hMem hStart
  rcases hStep with hBranch | hClose
  · rw [hBranch] at hMem
    rcases List.mem_cons.mp hMem with rfl | hOld
    · exact List.mem_append_right _ (List.mem_singleton_self _)
    · exact absurd hStart (hOuter other hOld)
  · rw [hClose] at hMem
    exact absurd hStart (hOuter other hMem)

/-- Where the same blocks are open as at a later place, a tag can only open one. -/
theorem exists_opens_of_level (hOrdered : tags.Pairwise (·.index < ·.index))
    (hClean : (tags.foldl Matching.step {}).mistakes = []) (hTag : tag ∈ tags)
    (hLevel : level tags tag.index = level tags i) (hLater : tag.index < i) :
    ∃ kind, tag.role = .opens kind := by
  obtain ⟨before, after, rfl⟩ := List.append_of_mem hTag
  let m := before.foldl Matching.step {}
  obtain ⟨hBefore, hBehind, hBetween⟩ := List.pairwise_append.mp hOrdered
  have hCounted : Counted before m := counted_nil.run (by rwa [List.nil_append])
  have hEarlier : ∀ t ∈ before, t.index < tag.index :=
    fun t hMem => hBetween t hMem tag List.mem_cons_self
  have hHere : level (before ++ tag :: after) tag.index = m.stack := by
    rw [level, countTo_tag hOrdered]
  have hStep : (m.step tag).mistakes = [] := by
    rw [List.foldl_append, List.foldl_cons] at hClean
    exact (Matching.run_mono (m.step tag) after).1 hClean
  -- The innermost block would have the tag among its branches already.
  have hNone {block : Block} {outer : List Block} (hStack : m.stack = block :: outer)
      (hNext : (m.step tag).stack = { block with branches := block.branches ++ [tag.index] } :: outer ∨
        (m.step tag).stack = outer) : False := by
    have hTouched := touched_step hCounted.distinct hStack hNext
    have hInside : block ∈ m.stack := by rw [hStack]; exact List.mem_cons_self
    have hDescribes := hCounted.describes block (List.mem_append_left _ hInside)
    have hAll := hDescribes.before hEarlier
    have hAfter : ∀ t ∈ after.filter (·.index < i), block.start < t.index := by
      intro t hMem
      have hStart := hAll block.start List.mem_cons_self
      exact Nat.lt_trans hStart ((List.pairwise_cons.mp hBehind).1 t (List.mem_of_mem_filter hMem))
    have hThere : block ∈ level (before ++ tag :: after) i := by rw [← hLevel, hHere]; exact hInside
    rw [level, countTo_behind hOrdered hLater] at hThere
    have hBranch : tag.index ∈ block.branches := hTouched.run hAfter block hThere rfl
    exact Nat.lt_irrefl _
      (hAll tag.index (List.mem_cons_of_mem _ (List.mem_append_left _ hBranch)))
  rcases (Matching.step_clean hStep).2 with ⟨kind, hRole, -⟩ | ⟨block, outer, -, -, hStack, hNext, -⟩ |
    ⟨block, outer, -, hStack, hNext, -⟩
  · exact ⟨kind, hRole⟩
  · exact (hNone hStack (.inl hNext)).elim
  · exact (hNone hStack (.inr hNext)).elim

/-- A block that is closed in the end is closed before any later place where
the same blocks are open as somewhere in front of it. -/
theorem close_lt_of_level (hOrdered : tags.Pairwise (·.index < ·.index)) {block : Block}
    {close : Nat} (hTag : tag ∈ tags) {kind : BlockKind} (hRole : tag.role = .opens kind)
    (hBlock : block ∈ (tags.foldl Matching.step {}).closed) (hStart : block.start = tag.index)
    (hClose : block.close = some close) (hLevel : level tags j = level tags i)
    (hFront : j ≤ tag.index) (hLater : tag.index < i) : close < i := by
  have hThere := counted_countTo hOrdered i
  have hKept : tag ∈ tags.filter (·.index < i) := List.mem_filter.mpr ⟨hTag, decide_eq_true hLater⟩
  obtain ⟨other, hOther, hSame⟩ := List.mem_map.mp (hThere.opened tag hKept kind hRole)
  rcases List.mem_append.mp hOther with hOpen | hShut
  · -- What is open in front of the tag begins before it.
    have hHere : other ∈ (countTo tags j).stack := by
      rw [← level, hLevel]
      exact hOpen
    obtain ⟨t, hMem, hIndex⟩ := ((counted_countTo hOrdered j).describes other
      (List.mem_append_left _ hHere)).start
    have hBefore := (List.mem_filter.mp hMem).2
    rw [decide_eq_true_eq] at hBefore
    omega
  · have hFinal : Counted tags (tags.foldl Matching.step {}) := counted_nil.run (by simpa using hOrdered)
    have hKeeps : other ∈ (tags.foldl Matching.step {}).closed := by
      rw [← countTo_rest hOrdered i]
      exact (Matching.run_mono _ _).2 hShut
    have hEqual : other = block :=
      List.inj_on_of_nodup_map hFinal.distinct (List.mem_append_right _ hKeeps)
        (List.mem_append_right _ hBlock) (hSame.trans hStart.symm)
    obtain ⟨t, hMem, hIndex, -⟩ := (hThere.describes other hOther).close close (hEqual ▸ hClose)
    have hBefore := (List.mem_filter.mp hMem).2
    rw [decide_eq_true_eq] at hBefore
    omega

end Block

/-- When nothing is wrong, the count behind all tags is as it should be. -/
theorem BlockMap.traced_counted {tokens : List Token} (h : (ofTokens tokens).issues = []) :
    Block.Traced (Block.tagsFrom 0 tokens) (counted tokens) :=
  Block.Traced.run [] rfl ⟨trivial, List.forall_mem_nil _, List.forall_mem_nil _⟩ rfl
    (Block.pairwise_tagsFrom 0 tokens) (of_issues h).2

end NoteTemplate
