import Mathlib.Data.List.Nodup
import NoteTemplate.Proofs.Compose.Moved

/-! The count of the blocks of a template. What it says of a block is true of
the tokens, when no mistake is found every block is closed, and the blocks of
two texts in a row are those of the one and those of the other. -/
namespace NoteTemplate

namespace Block

/-! The tags of a list of tokens. -/

/-- Whether a tag begins at a token is seen from the two tokens in front. -/
theorem tagsFrom_cons_cons (index : Nat) (first keyword : Token) (rest : List Token) :
    tagsFrom index (first :: keyword :: rest) =
      (if first.kind = .tagStart then (role? keyword.kind).toList.map (⟨index, keyword, ·⟩) else []) ++
        tagsFrom (index + 1) (keyword :: rest) := by
  rw [tagsFrom]
  split
  · cases role? keyword.kind <;> rfl
  · rfl

theorem tagsFrom_cons_of_ne {first : Token} (h : first.kind ≠ .tagStart) (index : Nat)
    (rest : List Token) : tagsFrom index (first :: rest) = tagsFrom (index + 1) rest := by
  cases rest with
  | nil => rfl
  | cons keyword rest => rw [tagsFrom_cons_cons, if_neg h, List.nil_append]

/-- A tag with a role is one where it stands among the tokens. -/
theorem mem_tagsFrom {tag : Tag} {index : Nat} {ts : List Token} :
    tag ∈ tagsFrom index ts ↔ ∃ i first, tag.index = index + i ∧ ts[i]? = some first ∧
      first.kind = .tagStart ∧ ts[i + 1]? = some tag.keyword ∧
        role? tag.keyword.kind = some tag.role := by
  induction ts generalizing index with
  | nil => simp [tagsFrom]
  | cons first rest ih =>
      cases rest with
      | nil => simp [tagsFrom]
      | cons keyword rest =>
          rw [tagsFrom_cons_cons, List.mem_append, ih]
          constructor
          · rintro (hHere | ⟨i, start, hIndex, hLater⟩)
            · split at hHere
              · next hStart =>
                obtain ⟨role, hRole, rfl⟩ := List.mem_map.mp hHere
                exact ⟨0, first, rfl, rfl, hStart, rfl, Option.mem_toList.mp hRole⟩
              · cases hHere
            · exact ⟨i + 1, start, by omega, hLater⟩
          · rintro ⟨i, start, hIndex, hFirst, hStart, hKeyword, hRole⟩
            cases i with
            | zero =>
                cases hFirst
                cases hKeyword
                left
                rw [Nat.add_zero] at hIndex
                rw [if_pos hStart]
                exact List.mem_map.mpr ⟨tag.role, Option.mem_toList.mpr hRole, by rw [← hIndex]⟩
            | succ i => exact .inr ⟨i, start, by omega, hFirst, hStart, hKeyword, hRole⟩

theorem index_le_of_mem_tagsFrom {tag : Tag} {index : Nat} {ts : List Token}
    (h : tag ∈ tagsFrom index ts) : index ≤ tag.index := by
  obtain ⟨i, -, hIndex, -⟩ := mem_tagsFrom.mp h
  omega

/-- Tags are listed in the order of their tokens. -/
theorem pairwise_tagsFrom (index : Nat) (ts : List Token) :
    (tagsFrom index ts).Pairwise (·.index < ·.index) := by
  induction ts generalizing index with
  | nil => exact List.Pairwise.nil
  | cons first rest ih =>
      cases rest with
      | nil => exact List.Pairwise.nil
      | cons keyword rest =>
          rw [tagsFrom_cons_cons]
          refine List.pairwise_append.mpr ⟨?_, ih (index + 1), fun tag hTag other hOther => ?_⟩
          · split
            · cases role? keyword.kind <;> simp
            · exact List.Pairwise.nil
          · have hLater := index_le_of_mem_tagsFrom hOther
            split at hTag
            · obtain ⟨role, -, rfl⟩ := List.mem_map.mp hTag
              exact hLater
            · cases hTag

/-- The tags of tokens in a row, if a tag does not begin where the first ones
end. -/
theorem tagsFrom_append {inner : List Token} (h : ∀ t ∈ inner.getLast?, t.kind ≠ .tagStart)
    (last : Token) (index : Nat) (rest : List Token) :
    tagsFrom index (inner ++ rest) =
      tagsFrom index (inner ++ [last]) ++ tagsFrom (index + inner.length) rest := by
  induction inner generalizing index with
  | nil => rfl
  | cons first inner ih =>
      cases inner with
      | nil =>
          have hFirst : first.kind ≠ .tagStart := h first rfl
          simp only [List.cons_append, List.nil_append, tagsFrom_cons_of_ne hFirst]
          rfl
      | cons next inner =>
          have hRest := ih (by simpa using h) (index + 1)
          simp only [List.cons_append, List.length_cons] at hRest ⊢
          rw [tagsFrom_cons_cons, hRest, tagsFrom_cons_cons, List.append_assoc,
            Nat.add_right_comm index 1]
          rfl

/-- A tag of tokens that stand behind others. -/
def Tag.moved (origin : Position) (index : Nat) (tag : Tag) : Tag :=
  ⟨index + tag.index, tag.keyword.moved origin, tag.role⟩

/-- Moving the tokens moves their tags. -/
theorem tagsFrom_moved (origin : Position) (before index : Nat) (ts : List Token) :
    tagsFrom (before + index) (ts.map (Token.moved origin)) =
      (tagsFrom index ts).map (Tag.moved origin before) := by
  induction ts generalizing index with
  | nil => rfl
  | cons first rest ih =>
      cases rest with
      | nil => rfl
      | cons keyword rest =>
          have hRest := ih (index + 1)
          rw [List.map_cons] at hRest ⊢
          rw [List.map_cons, tagsFrom_cons_cons, Nat.add_assoc, hRest, tagsFrom_cons_cons,
            List.map_append, Token.moved_kind, Token.moved_kind]
          split
          · rw [List.map_map]
            rfl
          · rfl

/-! What a step of the count does. -/

namespace Matching

/-- Where the blocks of a count begin. -/
def starts (m : Matching) : List Nat := (m.stack ++ m.closed).map Block.start

/-- A tag opens a block, belongs to the innermost one, closes it, or changes
nothing but the mistakes. -/
theorem step_cases (m : Matching) (tag : Tag) :
    ((∀ kind, tag.role ≠ .opens kind) ∧ (m.step tag).stack = m.stack ∧
      (m.step tag).closed = m.closed) ∨
    (∃ kind, tag.role = .opens kind ∧
      (m.step tag).stack = { kind, start := tag.index, keyword := tag.keyword } :: m.stack ∧
      (m.step tag).closed = m.closed) ∨
    (∃ block rest, tag.role = .branches ∧ m.stack = block :: rest ∧
      (m.step tag).stack = { block with branches := block.branches ++ [tag.index] } :: rest ∧
      (m.step tag).closed = m.closed) ∨
    (∃ block rest kind, tag.role = .closes kind ∧ m.stack = block :: rest ∧
      (m.step tag).stack = rest ∧
      (m.step tag).closed = { block with close := some tag.index } :: m.closed) := by
  rw [step]
  cases hRole : tag.role with
  | opens kind =>
      right; left
      refine ⟨kind, rfl, ?_⟩
      dsimp only
      split <;> exact ⟨rfl, rfl⟩
  | branches =>
      dsimp only
      split
      · next block rest hStack =>
        split
        · exact .inr (.inr (.inl ⟨block, rest, rfl, hStack, rfl, rfl⟩))
        · exact .inl ⟨by simp, rfl, rfl⟩
      · exact .inl ⟨by simp, rfl, rfl⟩
  | closes kind =>
      dsimp only
      split
      · next block rest hStack =>
        split
        · exact .inr (.inr (.inr ⟨block, rest, kind, rfl, hStack, rfl, rfl⟩))
        · exact .inl ⟨by simp, rfl, rfl⟩
      · exact .inl ⟨by simp, rfl, rfl⟩

/-- A tag adds a block to those that were begun exactly if it opens one. -/
theorem starts_step (m : Matching) (tag : Tag) :
    (∃ kind, tag.role = .opens kind) ∧ (m.step tag).starts = tag.index :: m.starts ∨
      (∀ kind, tag.role ≠ .opens kind) ∧ (m.step tag).starts.Perm m.starts := by
  rcases m.step_cases tag with ⟨hRole, hStack, hClosed⟩ | ⟨kind, hRole, hStack, hClosed⟩ |
    ⟨block, rest, hRole, hBefore, hStack, hClosed⟩ | ⟨block, rest, kind, hRole, hBefore, hStack, hClosed⟩
  · exact .inr ⟨hRole, by rw [starts, starts, hStack, hClosed]⟩
  · exact .inl ⟨⟨kind, hRole⟩, by rw [starts, starts, hStack, hClosed]; rfl⟩
  · exact .inr ⟨by simp [hRole], by rw [starts, starts, hStack, hClosed, hBefore]; rfl⟩
  · refine .inr ⟨by simp [hRole], ?_⟩
    rw [starts, starts, hStack, hClosed, hBefore]
    exact (List.perm_middle.map Block.start)

end Matching

/-- What a block says of tags is true of them: it begins at one, and its branches
and its end are at later ones, in order. -/
structure Describes (tags : List Tag) (block : Block) : Prop where
  start : ∃ tag ∈ tags, tag.index = block.start
  branches : ∀ index ∈ block.branches, ∃ tag ∈ tags, tag.index = index ∧ tag.role = .branches
  close : ∀ index ∈ block.close, ∃ tag ∈ tags, tag.index = index ∧ ∃ kind, tag.role = .closes kind
  ordered : (block.start :: block.boundaries).Pairwise (· < ·)

section

variable {tags : List Tag} {tag : Tag} {block : Block}

/-- More tags behind a block do not change what describes it. -/
theorem Describes.mono (h : Describes tags block) (more : List Tag) :
    Describes (tags ++ more) block := by
  refine ⟨?_, fun index hMem => ?_, fun index hMem => ?_, h.ordered⟩
  · obtain ⟨tag, hTag, hStart⟩ := h.start
    exact ⟨tag, List.mem_append_left more hTag, hStart⟩
  · obtain ⟨tag, hTag, hBranch⟩ := h.branches index hMem
    exact ⟨tag, List.mem_append_left more hTag, hBranch⟩
  · obtain ⟨tag, hTag, hClose⟩ := h.close index hMem
    exact ⟨tag, List.mem_append_left more hTag, hClose⟩

/-- All that a block knows of lies before a later tag. -/
theorem Describes.before (h : Describes tags block) (hLater : ∀ t ∈ tags, t.index < tag.index) :
    ∀ index ∈ block.start :: block.boundaries, index < tag.index := by
  refine List.forall_mem_cons.mpr ⟨?_, List.forall_mem_append.mpr ⟨fun index hMem => ?_, ?_⟩⟩
  · obtain ⟨t, hTag, hStart⟩ := h.start
    exact hStart ▸ hLater t hTag
  · obtain ⟨t, hTag, hIndex, -⟩ := h.branches index hMem
    exact hIndex ▸ hLater t hTag
  · intro index hMem
    obtain ⟨t, hTag, hIndex, -⟩ := h.close index (Option.mem_toList.mp hMem)
    exact hIndex ▸ hLater t hTag

/-- One more boundary at a later tag. -/
theorem Describes.ordered_append (h : Describes tags block) (hOpen : block.close = none)
    (hLater : ∀ t ∈ tags, t.index < tag.index) :
    (block.start :: (block.branches ++ [tag.index])).Pairwise (· < ·) := by
  have hBefore := h.before hLater
  have hOrdered := h.ordered
  rw [boundaries, hOpen, Option.toList_none, List.append_nil] at hBefore hOrdered
  rw [← List.cons_append]
  refine List.pairwise_append.mpr ⟨hOrdered, List.pairwise_singleton _ _, fun index hMem last hLast => ?_⟩
  rw [List.mem_singleton.mp hLast]
  exact hBefore index hMem

/-- A branch of an open block, put behind those it has. -/
theorem Describes.branch (h : Describes tags block) (hOpen : block.close = none)
    (hRole : tag.role = .branches) (hLater : ∀ t ∈ tags, t.index < tag.index) :
    Describes (tags ++ [tag]) { block with branches := block.branches ++ [tag.index] } := by
  obtain ⟨hStart, hBranches, hClose, -⟩ := h.mono [tag]
  refine ⟨hStart, List.forall_mem_append.mpr ⟨hBranches, ?_⟩, hClose, ?_⟩
  · exact List.forall_mem_singleton.mpr ⟨tag, by simp, rfl, hRole⟩
  · rw [boundaries, hOpen, Option.toList_none, List.append_nil]
    exact h.ordered_append hOpen hLater

theorem Describes.shut (h : Describes tags block) (hOpen : block.close = none) {kind : BlockKind}
    (hRole : tag.role = .closes kind) (hLater : ∀ t ∈ tags, t.index < tag.index) :
    Describes (tags ++ [tag]) { block with close := some tag.index } := by
  obtain ⟨hStart, hBranches, -, -⟩ := h.mono [tag]
  refine ⟨hStart, hBranches, fun index hMem => ?_, h.ordered_append hOpen hLater⟩
  cases hMem
  exact ⟨tag, by simp, rfl, kind, hRole⟩

/-- The state of the count behind some tags. -/
structure Counted (tags : List Tag) (m : Matching) : Prop where
  opened : ∀ tag ∈ tags, ∀ kind, tag.role = .opens kind → tag.index ∈ m.starts
  distinct : m.starts.Nodup
  describes : ∀ block ∈ m.stack ++ m.closed, Describes tags block
  unclosed : ∀ block ∈ m.stack, block.close = none
  closed : ∀ block ∈ m.closed, block.close.isSome = true

theorem counted_nil : Counted [] {} :=
  ⟨by simp, List.nodup_nil, by simp, by simp, by simp⟩

/-- Every start of a block is that of a tag. -/
theorem Counted.exists_tag {m : Matching} (h : Counted tags m) {start : Nat} (hMem : start ∈ m.starts) :
    ∃ tag ∈ tags, tag.index = start := by
  obtain ⟨block, hBlock, rfl⟩ := List.mem_map.mp hMem
  exact (h.describes block hBlock).start

/-- Every opening tag has begun a block of its own. -/
theorem Counted.starts_step {m : Matching} (h : Counted tags m)
    (hLater : ∀ t ∈ tags, t.index < tag.index) :
    (∀ t ∈ tags ++ [tag], ∀ kind, t.role = .opens kind → t.index ∈ (m.step tag).starts) ∧
      (m.step tag).starts.Nodup := by
  rcases m.starts_step tag with ⟨-, hStarts⟩ | ⟨hRole, hStarts⟩
  · rw [hStarts]
    refine ⟨List.forall_mem_append.mpr ⟨fun t hTag kind hOpens => ?_, ?_⟩,
      List.nodup_cons.mpr ⟨fun hMem => ?_, h.distinct⟩⟩
    · exact List.mem_cons_of_mem _ (h.opened t hTag kind hOpens)
    · exact List.forall_mem_singleton.mpr fun _ _ => List.mem_cons_self
    · obtain ⟨t, hTag, hSame⟩ := h.exists_tag hMem
      exact Nat.ne_of_lt (hLater t hTag) hSame
  · refine ⟨List.forall_mem_append.mpr ⟨fun t hTag kind hOpens => ?_, ?_⟩, ?_⟩
    · exact hStarts.mem_iff.mpr (h.opened t hTag kind hOpens)
    · exact List.forall_mem_singleton.mpr fun kind hOpens => absurd hOpens (hRole kind)
    · exact hStarts.nodup_iff.mpr h.distinct

/-- One more tag, behind all others. -/
theorem Counted.step {m : Matching} (h : Counted tags m) (hLater : ∀ t ∈ tags, t.index < tag.index) :
    Counted (tags ++ [tag]) (m.step tag) := by
  obtain ⟨hOpened, hDistinct⟩ := h.starts_step hLater
  obtain ⟨-, -, hDescribes, hUnclosed, hClosed⟩ := h
  have hSame : ∀ block ∈ m.stack ++ m.closed, Describes (tags ++ [tag]) block :=
    fun block hMem => (hDescribes block hMem).mono [tag]
  suffices hBlocks : (∀ block ∈ (m.step tag).stack ++ (m.step tag).closed,
      Describes (tags ++ [tag]) block) ∧ (∀ block ∈ (m.step tag).stack, block.close = none) ∧
      ∀ block ∈ (m.step tag).closed, block.close.isSome = true from
    ⟨hOpened, hDistinct, hBlocks.1, hBlocks.2.1, hBlocks.2.2⟩
  rcases m.step_cases tag with ⟨-, hStack, hShut⟩ | ⟨kind, hRole, hStack, hShut⟩ |
    ⟨block, rest, hRole, hBefore, hStack, hShut⟩ | ⟨block, rest, kind, hRole, hBefore, hStack, hShut⟩
  all_goals rw [hStack, hShut]
  · exact ⟨hSame, hUnclosed, hClosed⟩
  · refine ⟨List.forall_mem_cons.mpr ⟨?_, hSame⟩, List.forall_mem_cons.mpr ⟨rfl, hUnclosed⟩, hClosed⟩
    exact ⟨⟨tag, by simp, rfl⟩, by simp, by simp, List.pairwise_singleton _ _⟩
  all_goals
    rw [hBefore] at hSame hDescribes hUnclosed
    obtain ⟨hOpen, hRest⟩ := List.forall_mem_cons.mp hUnclosed
    have hBlock := hDescribes block List.mem_cons_self
    have hOthers := (List.forall_mem_cons.mp hSame).2
  · refine ⟨List.forall_mem_cons.mpr ⟨hBlock.branch hOpen hRole hLater, hOthers⟩,
      List.forall_mem_cons.mpr ⟨hOpen, hRest⟩, hClosed⟩
  · obtain ⟨hStacked, hEnded⟩ := List.forall_mem_append.mp hOthers
    exact ⟨List.forall_mem_append.mpr ⟨hStacked,
      List.forall_mem_cons.mpr ⟨hBlock.shut hOpen hRole hLater, hEnded⟩⟩, hRest,
      List.forall_mem_cons.mpr ⟨rfl, hClosed⟩⟩

/-- Counting goes on through any number of later tags. -/
theorem Counted.run {m : Matching} (h : Counted tags m) {rest : List Tag}
    (hOrdered : (tags ++ rest).Pairwise (·.index < ·.index)) :
    Counted (tags ++ rest) (rest.foldl Matching.step m) := by
  induction rest generalizing tags m with
  | nil => rwa [List.append_nil]
  | cons tag rest ih =>
      have hLater : ∀ t ∈ tags, t.index < tag.index := fun t hTag =>
        (List.pairwise_append.mp hOrdered).2.2 t hTag tag List.mem_cons_self
      rw [List.append_cons] at hOrdered ⊢
      exact ih (h.step hLater) hOrdered

end

/-! Counting behind other blocks. -/

/-- A count that began behind some blocks, with the text that it is about moved
behind theirs. -/
def Matching.moved (origin : Position) (index : Nat) (before : List Block) (m : Matching) : Matching :=
  ⟨m.stack.map (Block.moved origin index), m.closed.map (Block.moved origin index) ++ before,
    m.mistakes.map (TemplateError.moved origin)⟩

/-- Matching moved tags behind a finished part goes as matching them alone. -/
theorem Matching.step_moved (origin : Position) (index : Nat) (before : List Block) (m : Matching)
    (tag : Tag) : (m.moved origin index before).step (tag.moved origin index) =
      (m.step tag).moved origin index before := by
  obtain ⟨stack, closed, mistakes⟩ := m
  obtain ⟨place, keyword, role⟩ := tag
  cases role with
  | opens kind =>
      simp only [step, moved, Tag.moved, List.length_cons, List.length_map]
      split <;> rfl
  | branches =>
      cases stack with
      | nil => rfl
      | cons block rest =>
          simp only [step, moved, Tag.moved, List.map_cons]
          rw [show (block.moved origin index).kind = block.kind from rfl]
          split
          · simp [Block.moved]
          · rfl
  | closes kind =>
      cases stack with
      | nil => rfl
      | cons block rest =>
          simp only [step, moved, Tag.moved, List.map_cons]
          rw [show (block.moved origin index).kind = block.kind from rfl]
          split <;> rfl

theorem Matching.run_moved (origin : Position) (index : Nat) (before : List Block) (m : Matching)
    (tags : List Tag) :
    (tags.map (Tag.moved origin index)).foldl step (m.moved origin index before) =
      (tags.foldl step m).moved origin index before := by
  induction tags generalizing m with
  | nil => rfl
  | cons tag rest ih => rw [List.map_cons, List.foldl_cons, step_moved, ih, List.foldl_cons]

end Block

namespace BlockMap

open Block

/-- The count behind all tags of a list of tokens. -/
def counted (tokens : List Token) : Matching := (tagsFrom 0 tokens).foldl Matching.step {}

variable {tokens : List Token}

theorem counted_spec (tokens : List Token) : Counted (tagsFrom 0 tokens) (counted tokens) :=
  counted_nil.run (pairwise_tagsFrom 0 tokens)

theorem mem_blocks {block : Block} :
    block ∈ (ofTokens tokens).blocks ↔ block ∈ (counted tokens).stack ++ (counted tokens).closed :=
  (List.mergeSort_perm _ _).mem_iff

/-- No two blocks begin at one tag, so that a lookup gives the block itself. -/
theorem blockAt?_of_mem {block : Block}
    (h : block ∈ (counted tokens).stack ++ (counted tokens).closed) :
    (ofTokens tokens).blockAt? block.start = some block := by
  rw [blockAt?]
  cases hFound : (ofTokens tokens).blocks.find? (·.start == block.start) with
  | none =>
      have hNone := List.find?_eq_none.mp hFound block (mem_blocks.mpr h)
      simp at hNone
  | some other =>
      have hStart : other.start = block.start := by simpa using List.find?_some hFound
      have hOther := mem_blocks.mp (List.mem_of_find?_eq_some hFound)
      rw [List.inj_on_of_nodup_map (counted_spec tokens).distinct hOther h hStart]

theorem mem_of_blockAt? {start : Nat} {block : Block}
    (h : (ofTokens tokens).blockAt? start = some block) :
    block ∈ (counted tokens).stack ++ (counted tokens).closed ∧ block.start = start :=
  ⟨mem_blocks.mp (List.mem_of_find?_eq_some h), by simpa using List.find?_some h⟩

theorem of_issues (h : (ofTokens tokens).issues = []) :
    (counted tokens).stack = [] ∧ (counted tokens).mistakes = [] := by
  obtain ⟨hMistakes, hStack⟩ := List.append_eq_nil_iff.mp h
  exact ⟨List.reverse_eq_nil_iff.mp (List.map_eq_nil_iff.mp hStack),
    List.reverse_eq_nil_iff.mp hMistakes⟩

/-- A tag with its word at a place in a list of tokens. -/
def TagAt (tokens : List Token) (index : Nat) (keyword : Token) : Prop :=
  (∃ first, tokens[index]? = some first ∧ first.kind = .tagStart) ∧ tokens[index + 1]? = some keyword

theorem tagAt_of_mem {tag : Tag} (h : tag ∈ tagsFrom 0 tokens) :
    TagAt tokens tag.index tag.keyword ∧ role? tag.keyword.kind = some tag.role := by
  obtain ⟨i, first, hIndex, hFirst, hStart, hKeyword, hRole⟩ := mem_tagsFrom.mp h
  rw [Nat.zero_add] at hIndex
  subst hIndex
  exact ⟨⟨⟨first, hFirst, hStart⟩, hKeyword⟩, hRole⟩

/-- A block with its tags in order, from the opening one to the closing one. -/
structure Whole (tokens : List Token) (map : BlockMap) (start : Nat) (block : Block) (close : Nat) :
    Prop where
  found : map.blockAt? start = some block
  closed : block.close = some close
  ordered : (start :: (block.branches ++ [close])).Pairwise (· < ·)
  branch : ∀ index ∈ block.branches, ∃ keyword, TagAt tokens index keyword ∧
    role? keyword.kind = some .branches
  closing : ∃ keyword kind, TagAt tokens close keyword ∧ role? keyword.kind = some (.closes kind)

/-- When nothing is wrong, every opening tag begins a whole block. -/
theorem exists_whole (h : (ofTokens tokens).issues = []) {start : Nat} {keyword : Token}
    {kind : BlockKind} (hTag : TagAt tokens start keyword)
    (hRole : role? keyword.kind = some (.opens kind)) :
    ∃ block close, Whole tokens (ofTokens tokens) start block close := by
  obtain ⟨⟨first, hFirst, hStart⟩, hKeyword⟩ := hTag
  have hMem : (⟨start, keyword, .opens kind⟩ : Tag) ∈ tagsFrom 0 tokens :=
    mem_tagsFrom.mpr ⟨start, first, (Nat.zero_add start).symm, hFirst, hStart, hKeyword, hRole⟩
  have hSpec := counted_spec tokens
  obtain ⟨block, hBlock, rfl⟩ := List.mem_map.mp (hSpec.opened _ hMem kind rfl)
  have hClosed : block ∈ (counted tokens).closed := by
    rwa [(of_issues h).1, List.nil_append] at hBlock
  obtain ⟨close, hClose⟩ := Option.isSome_iff_exists.mp (hSpec.closed block hClosed)
  have hDescribes := hSpec.describes block hBlock
  refine ⟨block, close, blockAt?_of_mem hBlock, hClose, ?_, fun index hIndex => ?_, ?_⟩
  · have hOrdered := hDescribes.ordered
    rwa [boundaries, hClose] at hOrdered
  · obtain ⟨tag, hTag, rfl, hBranch⟩ := hDescribes.branches index hIndex
    obtain ⟨hAt, hIs⟩ := tagAt_of_mem hTag
    exact ⟨tag.keyword, hAt, hBranch ▸ hIs⟩
  · obtain ⟨tag, hTag, rfl, kind, hCloses⟩ := hDescribes.close close hClose
    obtain ⟨hAt, hIs⟩ := tagAt_of_mem hTag
    exact ⟨tag.keyword, kind, hAt, hCloses ▸ hIs⟩

/-- The blocks of tokens in front of others are among those of all tokens, and so
are, moved, those of the others. -/
structure Joins (origin : Position) (first second whole : List Token) (index : Nat) : Prop where
  issues : (ofTokens whole).issues = []
  left : ∀ start block, (ofTokens first).blockAt? start = some block →
    (ofTokens whole).blockAt? start = some block
  right : ∀ start block, (ofTokens second).blockAt? start = some block →
    (ofTokens whole).blockAt? (index + start) = some (block.moved origin index)

/-- The blocks of two balanced parts, one behind the other, are those of the parts. -/
theorem joins_append {inner : List Token} (hLast : ∀ t ∈ inner.getLast?, t.kind ≠ .tagStart)
    {last : Token} (hFirst : (ofTokens (inner ++ [last])).issues = [])
    (hSecond : (ofTokens tokens).issues = []) (origin : Position) :
    Joins origin (inner ++ [last]) tokens (inner ++ tokens.map (Token.moved origin)) inner.length := by
  obtain ⟨hStack, hMistakes⟩ := of_issues hFirst
  obtain ⟨hStackBehind, hMistakesBehind⟩ := of_issues hSecond
  have hBefore : counted (inner ++ [last]) =
      ({} : Matching).moved origin inner.length (counted (inner ++ [last])).closed := by
    generalize counted (inner ++ [last]) = m at hStack hMistakes
    obtain ⟨stack, closed, mistakes⟩ := m
    cases hStack
    cases hMistakes
    rfl
  have hWhole : counted (inner ++ tokens.map (Token.moved origin)) =
      (counted tokens).moved origin inner.length (counted (inner ++ [last])).closed := by
    rw [counted, tagsFrom_append hLast last, List.foldl_append, ← counted, hBefore, Nat.zero_add,
      ← Nat.add_zero inner.length, tagsFrom_moved, Nat.add_zero, Matching.run_moved]
    rfl
  refine ⟨?_, fun start block hBlock => ?_, fun start block hBlock => ?_⟩
  · show (counted _).mistakes.reverse ++ (counted _).stack.reverse.map unclosed = []
    rw [hWhole]
    simp [Matching.moved, hStackBehind, hMistakesBehind]
  · obtain ⟨hMem, rfl⟩ := mem_of_blockAt? hBlock
    rw [hStack, List.nil_append] at hMem
    refine blockAt?_of_mem ?_
    rw [hWhole]
    exact List.mem_append_right _ (List.mem_append_right _ hMem)
  · obtain ⟨hMem, rfl⟩ := mem_of_blockAt? hBlock
    rw [hStackBehind, List.nil_append] at hMem
    have hMoved : block.moved origin inner.length ∈
        (counted (inner ++ tokens.map (Token.moved origin))).stack ++
          (counted (inner ++ tokens.map (Token.moved origin))).closed := by
      rw [hWhole]
      exact List.mem_append_right _ (List.mem_append_left _ (List.mem_map_of_mem hMem))
    exact blockAt?_of_mem hMoved

end BlockMap

end NoteTemplate
