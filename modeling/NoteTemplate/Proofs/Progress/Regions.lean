import NoteTemplate.Proofs.Compose.Scan
import NoteTemplate.Proofs.Progress.Levels
import NoteTemplate.Proofs.Progress.Passes

/-! The parts of a template that a reader of parts stays in. Such a region ends
at a tag of a block or at the end of the text, with the same blocks open at both
ends. What begins in a region ends in it: going past tokens that are no tags of
blocks does not leave it, and neither does going past a whole block. -/
namespace NoteTemplate

open Tokens Token Block

/-- The tokens of a template with nothing wrong about its blocks, the last one
being the mark of its end. -/
structure Balanced (tokens : List Token) (size : Nat) : Prop where
  length : tokens.length = size + 1
  last : ∃ t, tokens[size]? = some t ∧ t.kind = .endOfText
  inner : ∀ i t, i < size → tokens[i]? = some t → t.kind ≠ .endOfText
  issues : (BlockMap.ofTokens tokens).issues = []

/-- A text that is scanned, without issues about its blocks, is balanced. -/
theorem balanced_of_scan {text : String} {tokens : List Token} (hScan : Token.scan text = .ok tokens)
    (hIssues : (BlockMap.ofTokens tokens).issues = []) : Balanced tokens (tokens.length - 1) := by
  obtain ⟨inner, rfl, hInner⟩ := (Yields.of_scan hScan).ends
  have hSize : (inner ++ [endAt (Position.start.advance text.toList)]).length - 1 = inner.length := by
    rw [List.length_append, List.length_singleton, Nat.add_sub_cancel]
  rw [hSize]
  refine ⟨List.length_append, ⟨_, List.getElem?_concat_length, rfl⟩, fun i t hi hToken => ?_, hIssues⟩
  rw [List.getElem?_append_left hi] at hToken
  exact hInner t (List.mem_of_getElem? hToken)

/-- Going on from a place to a later one, past no tag of a block. -/
structure Goes (tokens : List Token) (size i j : Nat) : Prop where
  le : i ≤ j
  le_size : j ≤ size
  untagged : ∀ tag ∈ tagsFrom 0 tokens, tag.index < i ↔ tag.index < j

/-- A part of a template from a place up to a tag of a block or the end of the
text. -/
structure Region (tokens : List Token) (size i stop : Nat) : Prop where
  le : i ≤ stop
  le_size : stop ≤ size
  level : level (tagsFrom 0 tokens) i = level (tagsFrom 0 tokens) stop
  ends : stop = size ∨ ∃ tag ∈ tagsFrom 0 tokens, tag.index = stop

/-- The tags of a block in order behind a given one, up to the closing one. -/
structure Series (tokens : List Token) (start : Nat) (branches : List Nat) (close : Nat) : Prop where
  ordered : (start :: (branches ++ [close])).Pairwise (· < ·)
  leads : ∃ behind, Leads (tagsFrom 0 tokens) start (branches ++ [close]) behind
  branch : ∀ index ∈ branches, ∃ tag ∈ tagsFrom 0 tokens, tag.index = index
  closing : ∃ tag ∈ tagsFrom 0 tokens, tag.index = close

variable {tokens rest : List Token} {size i j k stop : Nat}

theorem ne_of_begins {kind : Kind} (h : begins kind = false) :
    kind ≠ .variableStart ∧ kind ≠ .tagStart ∧ kind ≠ .endOfText := by
  refine ⟨?_, ?_, ?_⟩
  all_goals
    rintro rfl
    cases h

theorem begins_of_role? {kind : Kind} {role : Role} (h : role? kind = some role) :
    begins kind = false := by
  cases kind <;> first | rfl | cases h

theorem Goes.refl (hi : i ≤ size) : Goes tokens size i i := ⟨Nat.le_refl i, hi, fun _ _ => Iff.rfl⟩

theorem Goes.trans (hFirst : Goes tokens size i j) (hSecond : Goes tokens size j k) :
    Goes tokens size i k :=
  ⟨Nat.le_trans hFirst.le hSecond.le, hSecond.le_size, fun tag hTag =>
    (hFirst.untagged tag hTag).trans (hSecond.untagged tag hTag)⟩

/-- A token that is no tag of a block is gone past. -/
theorem goes_succ (hi : i < size) (h : ∀ tag ∈ tagsFrom 0 tokens, tag.index ≠ i) :
    Goes tokens size i (i + 1) := by
  refine ⟨Nat.le_succ i, hi, fun tag hTag => ?_⟩
  have hOther := h tag hTag
  omega

/-- Going on inside of a region, one stays in a region with the same end. -/
theorem Region.goes (h : Region tokens size i stop) (hGoes : Goes tokens size i j) :
    Region tokens size j stop := by
  refine ⟨?_, h.le_size, ?_, h.ends⟩
  · rcases h.ends with rfl | ⟨tag, hTag, rfl⟩
    · exact hGoes.le_size
    · have hSame := hGoes.untagged tag hTag
      have hLe := h.le
      omega
  · rw [← h.level, Block.level, Block.level, countTo_congr hGoes.untagged]

namespace Series

variable {start branch close : Nat} {branches later : List Nat}

theorem next (h : Series tokens start (branch :: branches) close) :
    Series tokens branch branches close := by
  obtain ⟨behind, hLeads⟩ := h.leads
  exact ⟨(List.pairwise_cons.mp h.ordered).2, ⟨behind, hLeads.2⟩,
    (List.forall_mem_cons.mp h.branch).2, h.closing⟩

theorem boundary (h : Series tokens start branches close)
    (hBounds : branches ++ [close] = stop :: later) :
    start < stop ∧ ∃ tag ∈ tagsFrom 0 tokens, tag.index = stop := by
  have hAll : ∀ index ∈ branches ++ [close], ∃ tag ∈ tagsFrom 0 tokens, tag.index = index :=
    List.forall_mem_append.mpr ⟨h.branch, List.forall_mem_singleton.mpr h.closing⟩
  have hStop : stop ∈ branches ++ [close] := by rw [hBounds]; exact List.mem_cons_self
  exact ⟨(List.pairwise_cons.mp h.ordered).1 stop hStop, hAll stop hStop⟩

end Series

namespace Balanced

variable (h : Balanced tokens size)

include h

/-! Tokens by their places. -/

/-- Every token but the last one stands in front of it. -/
theorem lt_size {t : Token} (hToken : tokens[i]? = some t) (hKind : t.kind ≠ .endOfText) :
    i < size := by
  obtain ⟨hLength, -⟩ := List.getElem?_eq_some_iff.mp hToken
  obtain ⟨last, hLast, hEnd⟩ := h.last
  rw [h.length] at hLength
  rcases Nat.lt_or_eq_of_le (Nat.le_of_lt_succ hLength) with hLess | rfl
  · exact hLess
  · rw [hToken] at hLast
    cases hLast
    exact absurd hEnd hKind

/-- Inside a template there is a token and another one behind it. -/
theorem drop_eq (hi : i < size) : ∃ t next, tokens[i]? = some t ∧ tokens[i + 1]? = some next ∧
    tokens.drop i = t :: next :: tokens.drop (i + 2) ∧ t.kind ≠ .endOfText := by
  have hFirst : i < tokens.length := by rw [h.length]; omega
  have hSecond : i + 1 < tokens.length := by rw [h.length]; omega
  refine ⟨tokens[i], tokens[i + 1], List.getElem?_eq_getElem hFirst, List.getElem?_eq_getElem hSecond,
    ?_, h.inner i _ hi (List.getElem?_eq_getElem hFirst)⟩
  rw [List.drop_eq_getElem_cons hFirst, List.drop_eq_getElem_cons hSecond]

theorem more (hi : i < size) : at? (tokens.drop i) .endOfText = false := by
  obtain ⟨t, next, -, -, hDrop, hInner⟩ := h.drop_eq hi
  rw [hDrop]
  exact beq_false_of_ne hInner

theorem advance_drop (hi : i < size) : advance (tokens.drop i) = tokens.drop (i + 1) := by
  obtain ⟨t, next, -, -, hDrop, hInner⟩ := h.drop_eq hi
  rw [← List.tail_drop, hDrop, advance, if_neg hInner]
  rfl

theorem advance_end : advance (tokens.drop size) = tokens.drop size := by
  obtain ⟨t, hLast, hEnd⟩ := h.last
  have hLength : size < tokens.length := by rw [h.length]; omega
  rw [List.getElem?_eq_getElem hLength] at hLast
  cases hLast
  rw [List.drop_eq_getElem_cons hLength, advance, if_pos hEnd]

theorem current_succ (hi : i < size) :
    current (tokens.drop (i + 1)) = second (tokens.drop i) := by
  obtain ⟨t, next, -, -, hDrop, -⟩ := h.drop_eq hi
  rw [← List.tail_drop, hDrop]
  rfl

theorem succ_lt_size (hi : i < size) (hKind : begins (second (tokens.drop i)).kind = false) :
    i + 1 < size := by
  obtain ⟨t, next, -, hNext, hDrop, -⟩ := h.drop_eq hi
  rw [hDrop] at hKind
  exact h.lt_size hNext (ne_of_begins hKind).2.2

theorem positionOf_drop (blocks : BlockMap) (room : Nat) (hi : i ≤ size) :
    (Node.Source.mk tokens blocks room).positionOf (tokens.drop i) = i := by
  show tokens.length - (tokens.drop i).length = i
  rw [List.length_drop, h.length]
  omega

/-! Tags by their places. -/

theorem mem_tags (hi : i < size) {role : Role} (hStart : (current (tokens.drop i)).kind = .tagStart)
    (hRole : role? (second (tokens.drop i)).kind = some role) :
    (⟨i, second (tokens.drop i), role⟩ : Tag) ∈ tagsFrom 0 tokens := by
  obtain ⟨t, next, hFirst, hNext, hDrop, -⟩ := h.drop_eq hi
  rw [hDrop] at hStart hRole ⊢
  exact mem_tagsFrom.mpr ⟨i, t, (Nat.zero_add i).symm, hFirst, hStart, hNext, hRole⟩

/-- A tag of a block is a tag among the tokens, in front of the last of them. -/
theorem of_mem_tags {tag : Tag} (hTag : tag ∈ tagsFrom 0 tokens) :
    tag.index < size ∧ (current (tokens.drop tag.index)).kind = .tagStart ∧
      role? (second (tokens.drop tag.index)).kind = some tag.role := by
  obtain ⟨⟨⟨t, hToken, hStart⟩, hKeyword⟩, hRole⟩ := BlockMap.tagAt_of_mem hTag
  have hi : tag.index < size := h.lt_size hToken (by rw [hStart]; exact Kind.noConfusion)
  obtain ⟨first, next, hFirst, hNext, hDrop, -⟩ := h.drop_eq hi
  rw [hToken] at hFirst
  rw [hKeyword] at hNext
  cases hFirst
  cases hNext
  rw [hDrop]
  exact ⟨hi, hStart, hRole⟩

/-- A token that begins no tag with a role is gone past. -/
theorem goes_next (hi : i < size)
    (hNone : (current (tokens.drop i)).kind = .tagStart →
      role? (second (tokens.drop i)).kind = none) : Goes tokens size i (i + 1) := by
  refine goes_succ hi fun tag hTag hIndex => ?_
  obtain ⟨-, hStart, hRole⟩ := h.of_mem_tags hTag
  rw [hIndex] at hStart hRole
  rw [hNone hStart] at hRole
  cases hRole

/-- Behind the delimiter of a tag its word is gone past. -/
theorem goes_word (hi : i < size) (hKind : begins (second (tokens.drop i)).kind = false) :
    Goes tokens size (i + 1) (i + 2) := by
  refine h.goes_next (h.succ_lt_size hi hKind) fun hStart => ?_
  rw [h.current_succ hi] at hStart
  exact absurd hStart (ne_of_begins hKind).2.1

/-- What a reader of an expression goes past holds no tag. -/
theorem goes_of_passes (hi : i ≤ size) (hPasses : Passes (tokens.drop i) rest) :
    ∃ j, Goes tokens size i j ∧ rest = tokens.drop j := by
  obtain ⟨taken, hDrop, hTaken⟩ := hPasses
  have hRest : rest = tokens.drop (i + taken.length) := by
    rw [← List.drop_drop, hDrop, List.drop_left]
  have hKinds : ∀ k t, i ≤ k → k < i + taken.length → tokens[k]? = some t → begins t.kind = false := by
    intro k t hk hLess hToken
    have hInside : (tokens.drop i)[k - i]? = some t := by
      rw [List.getElem?_drop, Nat.add_sub_cancel' hk, hToken]
    rw [hDrop, List.getElem?_append_left (by omega)] at hInside
    exact hTaken t (List.mem_of_getElem? hInside)
  refine ⟨i + taken.length, ⟨Nat.le_add_right i _, ?_, fun tag hTag => ?_⟩, hRest⟩
  · by_contra hPast
    obtain ⟨last, hLast, hEnd⟩ := h.last
    have hBegins := hKinds size last hi (by omega) hLast
    rw [hEnd] at hBegins
    cases hBegins
  · refine ⟨fun hLess => by omega, fun hLess => ?_⟩
    by_contra hLater
    obtain ⟨⟨⟨t, hToken, hStart⟩, -⟩, -⟩ := BlockMap.tagAt_of_mem hTag
    have hBegins := hKinds tag.index t (by omega) hLess hToken
    rw [hStart] at hBegins
    cases hBegins

/-- What is read behind the word of a tag. -/
theorem goes_behind_word (hi : i < size) (hKind : begins (second (tokens.drop i)).kind = false)
    (hPasses : Passes (advance (advance (tokens.drop i))) rest) :
    ∃ j, Goes tokens size (i + 1) j ∧ rest = tokens.drop j := by
  have hWord := h.goes_word hi hKind
  rw [h.advance_drop hi, h.advance_drop (h.succ_lt_size hi hKind)] at hPasses
  obtain ⟨j, hGoes, hRest⟩ := h.goes_of_passes hWord.le_size hPasses
  exact ⟨j, hWord.trans hGoes, hRest⟩

/-! Blocks by the places of their tags. -/

theorem clean : ((tagsFrom 0 tokens).foldl Matching.step {}).mistakes = [] :=
  (BlockMap.of_issues h.issues).2

/-- In front of the end of a region a tag can only open a block. -/
theorem opens_of_region (hRegion : Region tokens size i stop) (hLess : i < stop) {tag : Tag}
    (hTag : tag ∈ tagsFrom 0 tokens) (hIndex : tag.index = i) : ∃ kind, tag.role = .opens kind := by
  subst hIndex
  exact exists_opens_of_level (pairwise_tagsFrom 0 tokens) h.clean hTag hRegion.level hLess

/-- The body between two tags of a block. -/
theorem region_of_series {start close : Nat} {branches later : List Nat}
    (hSeries : Series tokens start branches close)
    (hBounds : branches ++ [close] = stop :: later) : Region tokens size (start + 1) stop := by
  obtain ⟨hBehind, tag, hTag, hIndex⟩ := hSeries.boundary hBounds
  obtain ⟨behind, hLeads⟩ := hSeries.leads
  rw [hBounds] at hLeads
  obtain ⟨hInside, -⟩ := h.of_mem_tags hTag
  exact ⟨hBehind, by omega, hLeads.1, .inr ⟨tag, hTag, hIndex⟩⟩

/-- The word of the closing tag of a block. -/
theorem closing_of_series {start close : Nat} {branches : List Nat}
    (hSeries : Series tokens start branches close) :
    start < close ∧ close < size ∧ begins (second (tokens.drop close)).kind = false := by
  obtain ⟨tag, hTag, rfl⟩ := hSeries.closing
  obtain ⟨hInside, -, hRole⟩ := h.of_mem_tags hTag
  exact ⟨(List.pairwise_cons.mp hSeries.ordered).1 _ (by simp), hInside, begins_of_role? hRole⟩

/-- A tag that opens a block in a region: the block closes in the region, and
behind it the region goes on. -/
theorem exists_block (hRegion : Region tokens size i stop) (hLess : i < stop) {kind : BlockKind}
    (hStart : (current (tokens.drop i)).kind = .tagStart)
    (hRole : role? (second (tokens.drop i)).kind = some (.opens kind)) :
    ∃ block close, (BlockMap.ofTokens tokens).blockAt? i = some block ∧ block.close = some close ∧
      (kind = .loop → block.branches = []) ∧ Series tokens i block.branches close ∧
      Region tokens size (close + 1) stop := by
  have hi : i < size := Nat.lt_of_lt_of_le hLess hRegion.le_size
  have hTag := h.mem_tags hi hStart hRole
  obtain ⟨hAt, -⟩ := BlockMap.tagAt_of_mem hTag
  obtain ⟨block, close, hWhole⟩ := BlockMap.exists_whole h.issues hAt hRole
  obtain ⟨hMem, hIndex⟩ := BlockMap.mem_of_blockAt? hWhole.found
  have hDescribes := (BlockMap.counted_spec tokens).describes block hMem
  obtain ⟨last, hLast, hClose, -⟩ := hDescribes.close close hWhole.closed
  have hOrdered := pairwise_tagsFrom 0 tokens
  have hTraced := BlockMap.traced_counted h.issues
  have hSuited := hTraced.suited block hMem
  rw [(BlockMap.of_issues h.issues).1, List.nil_append] at hMem
  obtain ⟨shut, hShut, hLeads⟩ := hTraced.closed block hMem
  rw [hWhole.closed] at hShut
  cases hShut
  rw [hIndex] at hLeads
  refine ⟨block, close, hWhole.found, hWhole.closed, fun hLoop => hSuited.branches ?_,
    ⟨hWhole.ordered, ⟨_, hLeads⟩, ?_, ⟨last, hLast, hClose⟩⟩,
    ⟨?_, hRegion.le_size, hLeads.behind.trans hRegion.level, hRegion.ends⟩⟩
  · obtain ⟨-, -, hOpener⟩ := h.of_mem_tags hSuited.opener
    rw [hIndex, hRole] at hOpener
    cases hOpener
    exact hLoop
  · intro index hBranch
    obtain ⟨tag, hTag, hIs, -⟩ := hDescribes.branches index hBranch
    exact ⟨tag, hTag, hIs⟩
  · exact close_lt_of_level hOrdered hTag rfl hMem hIndex hWhole.closed hRegion.level (Nat.le_refl i)
      hLess

end Balanced

end NoteTemplate
