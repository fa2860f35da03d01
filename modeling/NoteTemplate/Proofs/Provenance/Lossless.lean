import NoteTemplate.Proofs.Compose.Template
import NoteTemplate.Proofs.Provenance.Prints

/-! An accepted template loses nothing of its text: each expression to print that
the text begins is in exactly one place among its parts. That takes a template in
which no condition has a second branch without a condition of its own. -/
namespace NoteTemplate

open Tokens Token Node

/-- Whether no block has two `else` tags. -/
def BlockMap.SingleElse (tokens : List Token) : Prop :=
  ∀ block ∈ (BlockMap.ofTokens tokens).blocks,
    block.branches.countP (fun i => (second (tokens.drop i)).kind == .elseWord) ≤ 1

namespace Balanced

variable {tokens : List Token} {size : Nat}

/-- A balanced template with at most one `else` in each block is orderly. -/
theorem orderly (h : Balanced tokens size) (hSingle : BlockMap.SingleElse tokens)
    (room : Nat) : Orderly (.ofTokens room tokens) := by
  constructor
  case tag =>
    intro start block hBlock index hIndex
    have hDescribes := (BlockMap.counted_spec tokens).describes block
      (BlockMap.mem_of_blockAt? hBlock).1
    obtain ⟨tag, hTag, rfl⟩ : ∃ tag ∈ Block.tagsFrom 0 tokens, tag.index = index := by
      rcases List.mem_append.mp hIndex with hBranch | hClose
      · obtain ⟨tag, hTag, hIs, -⟩ := hDescribes.branches index hBranch
        exact ⟨tag, hTag, hIs⟩
      · obtain ⟨tag, hTag, hIs, -⟩ := hDescribes.close index (Option.mem_toList.mp hClose)
        exact ⟨tag, hTag, hIs⟩
    obtain ⟨-, hStart, hRole⟩ := h.of_mem_tags hTag
    obtain ⟨hVariable, hTagStart, -⟩ := ne_of_begins (begins_of_role? hRole)
    exact opens_word hStart rfl hTagStart hVariable
  case single =>
    intro start block hBlock
    have hDescribes := (BlockMap.counted_spec tokens).describes block
      (BlockMap.mem_of_blockAt? hBlock).1
    refine Nat.le_trans (List.countP_mono_left fun index hMem hKind => ?_)
      (hSingle block (List.mem_of_find?_eq_some hBlock))
    obtain ⟨tag, hTag, rfl, hBranch⟩ := hDescribes.branches index hMem
    obtain ⟨hInside, -, hRole⟩ := h.of_mem_tags hTag
    have hNext : current (advance ((Source.ofTokens room tokens).tokensFrom tag.index)) =
        second (tokens.drop tag.index) := by
      rw [← h.current_succ hInside, ← h.advance_drop hInside]
      rfl
    rw [hNext] at hKind
    rw [hBranch] at hRole
    revert hRole hKind
    cases (second (tokens.drop tag.index)).kind <;> simp [Block.role?]

/-- What is read of a template without a mistake prints all expressions to print. -/
theorem perm_openings (h : Balanced tokens size) (hSingle : BlockMap.SingleElse tokens)
    {room : Nat} {nodes : List Node}
    (hRead : Node.ofTokens room tokens (BlockMap.ofTokens tokens) = .ok ⟨nodes, [], size⟩) :
    (printPlacesOfNodes nodes).Perm (openings tokens) := by
  have hCovers : Covers (.ofTokens room tokens) 0 size (printPlacesOfNodes nodes) :=
    (derives_of_ofTokens hRead rfl).kept (h.orderly hSingle room) (Nat.zero_le _)
  obtain ⟨last, hLast, hEnd⟩ := h.last
  obtain ⟨hLess, rfl⟩ := List.getElem?_eq_some_iff.mp hLast
  have hSplit : tokens = (Source.ofTokens room tokens).segment 0 size ++ [tokens[size]] := by
    rw [Source.segment, List.drop_zero, Nat.sub_zero]
    rw [List.take_append_getElem hLess, ← h.length, List.take_length]
  have hNone : openings [tokens[size]] = [] := by
    rw [openings, List.filter_cons, hEnd]
    rfl
  rw [hSplit, openings_append, hNone, List.append_nil]
  exact hCovers.perm

end Balanced

namespace Template

/-- In an accepted template in which no condition has two branches without a condition,
the expressions to print are those that the text begins, each of them once. -/
theorem parse_lossless {text : String} {tokens : List Token} {room : Nat} {t : Template}
    (hScan : Token.scan text = .ok tokens) (hSingle : BlockMap.SingleElse tokens)
    (hParse : parse room text = .ok t) (hOk : t.ok = true) :
    (printPlacesOfNodes t.nodes).Perm (openings tokens) ∧ (openings tokens).Nodup := by
  have hErrors : t.errors = [] := List.isEmpty_iff.mp hOk
  have hIssues : (BlockMap.ofTokens tokens).issues = [] := by
    cases hMistakes : (BlockMap.ofTokens tokens).issues with
    | nil => rfl
    | cons e rest =>
        have hBroken : (BlockMap.ofTokens tokens).balanced = false := by
          rw [BlockMap.balanced, hMistakes]
          rfl
        rw [parse_of_scan hScan, hBroken, hMistakes] at hParse
        cases hParse
        cases hErrors
  have hBalanced := balanced_of_scan hScan hIssues
  have hWhole := hBalanced.ofTokens_arrives room
  have hSound : (BlockMap.ofTokens tokens).balanced = true := by
    rw [BlockMap.balanced, hIssues]
    rfl
  rw [parse_of_scan hScan, if_pos hSound, ofTokens, ofParsed.eq_def] at hParse
  split at hParse
  · next parsed hRead =>
    obtain ⟨nodes, errors, position⟩ := parsed
    obtain rfl : position = tokens.length - 1 := hWhole.of_ok hRead
    cases hParse
    split at hErrors
    · next hNone =>
      obtain rfl : errors = [] := List.isEmpty_iff.mp hNone
      refine ⟨hBalanced.perm_openings hSingle hRead, ?_⟩
      exact (Token.scan_scanned hScan).nodup_places.sublist (List.filter_sublist.map Token.place)
    · next hSome => exact absurd (List.isEmpty_iff.mpr hErrors) hSome
  · cases hParse
    cases hErrors
  · cases hParse

/-- A condition whose branch without a condition stands in front of another one. -/
def earlyElseText : String :=
  "\x7b% if a %\x7d\x7b\x7bx\x7d\x7d\x7b% else %\x7d\x7b\x7by\x7d\x7d\x7b% elseif b %\x7d" ++
    "\x7b\x7bz\x7d\x7d\x7b% endif %\x7d"

/-- The tokens of the condition. -/
def earlyElseTokens : List Token :=
  [⟨.tagStart, "\x7b%", ⟨0, 1, 1⟩, false, false⟩, ⟨.ifWord, "if", ⟨3, 1, 4⟩, false, false⟩,
    ⟨.identifier, "a", ⟨6, 1, 7⟩, false, false⟩, ⟨.tagEnd, "%\x7d", ⟨8, 1, 9⟩, false, false⟩,
    ⟨.variableStart, "\x7b\x7b", ⟨10, 1, 11⟩, false, false⟩,
    ⟨.identifier, "x", ⟨12, 1, 13⟩, false, false⟩,
    ⟨.variableEnd, "\x7d\x7d", ⟨13, 1, 14⟩, false, false⟩,
    ⟨.tagStart, "\x7b%", ⟨15, 1, 16⟩, false, false⟩, ⟨.elseWord, "else", ⟨18, 1, 19⟩, false, false⟩,
    ⟨.tagEnd, "%\x7d", ⟨23, 1, 24⟩, false, false⟩,
    ⟨.variableStart, "\x7b\x7b", ⟨25, 1, 26⟩, false, false⟩,
    ⟨.identifier, "y", ⟨27, 1, 28⟩, false, false⟩,
    ⟨.variableEnd, "\x7d\x7d", ⟨28, 1, 29⟩, false, false⟩,
    ⟨.tagStart, "\x7b%", ⟨30, 1, 31⟩, false, false⟩,
    ⟨.elseifWord, "elseif", ⟨33, 1, 34⟩, false, false⟩, ⟨.identifier, "b", ⟨40, 1, 41⟩, false, false⟩,
    ⟨.tagEnd, "%\x7d", ⟨42, 1, 43⟩, false, false⟩,
    ⟨.variableStart, "\x7b\x7b", ⟨44, 1, 45⟩, false, false⟩,
    ⟨.identifier, "z", ⟨46, 1, 47⟩, false, false⟩,
    ⟨.variableEnd, "\x7d\x7d", ⟨47, 1, 48⟩, false, false⟩,
    ⟨.tagStart, "\x7b%", ⟨49, 1, 50⟩, false, false⟩, ⟨.endifWord, "endif", ⟨52, 1, 53⟩, false, false⟩,
    ⟨.tagEnd, "%\x7d", ⟨58, 1, 59⟩, false, false⟩, ⟨.endOfText, "", ⟨60, 1, 61⟩, false, false⟩]

theorem parse_lossless_early_else : ∃ t, parse usualRoom earlyElseText = .ok t ∧
    printPlacesOfNodes t.nodes = [⟨1, 11⟩, ⟨1, 45⟩, ⟨1, 26⟩] ∧
    openings earlyElseTokens = [⟨1, 11⟩, ⟨1, 26⟩, ⟨1, 45⟩] ∧
    (printPlacesOfNodes t.nodes).Perm (openings earlyElseTokens) ∧
    (openings earlyElseTokens).Nodup := by
  have hScan : Token.scan earlyElseText = .ok earlyElseTokens := by decide +kernel
  have hBlocks : (BlockMap.ofTokens earlyElseTokens).blocks =
      [⟨.conditional, 0, ⟨.ifWord, "if", ⟨3, 1, 4⟩, false, false⟩, [7, 13], some 20⟩] := by
    decide +kernel
  have hSingle : BlockMap.SingleElse earlyElseTokens := by
    rw [BlockMap.SingleElse, hBlocks]
    decide +kernel
  have hIssues : (BlockMap.ofTokens earlyElseTokens).issues = [] := by decide +kernel
  have hMap : BlockMap.ofTokens earlyElseTokens =
      ⟨[⟨.conditional, 0, ⟨.ifWord, "if", ⟨3, 1, 4⟩, false, false⟩, [7, 13], some 20⟩], []⟩ := by
    rw [← hBlocks, ← hIssues]
  have hParse : ∃ t, parse usualRoom earlyElseText = .ok t ∧ t.ok = true ∧
      printPlacesOfNodes t.nodes = [⟨1, 11⟩, ⟨1, 45⟩, ⟨1, 26⟩] := by
    rw [parse_of_scan hScan, hMap]
    exact ⟨_, rfl, rfl, rfl⟩
  obtain ⟨t, hRead, hOk, hPlaces⟩ := hParse
  exact ⟨t, hRead, hPlaces, by decide +kernel, parse_lossless hScan hSingle hRead hOk⟩

/-- A condition with two branches without a condition. -/
def twoElseText : String :=
  "\x7b% if a %\x7d\x7b% else %\x7d\x7b\x7bx\x7d\x7d\x7b% else %\x7d\x7b\x7by\x7d\x7d\x7b% endif %\x7d"

/-- The tokens of the condition with two branches. -/
def twoElseTokens : List Token :=
  [⟨.tagStart, "\x7b%", ⟨0, 1, 1⟩, false, false⟩, ⟨.ifWord, "if", ⟨3, 1, 4⟩, false, false⟩,
    ⟨.identifier, "a", ⟨6, 1, 7⟩, false, false⟩, ⟨.tagEnd, "%\x7d", ⟨8, 1, 9⟩, false, false⟩,
    ⟨.tagStart, "\x7b%", ⟨10, 1, 11⟩, false, false⟩, ⟨.elseWord, "else", ⟨13, 1, 14⟩, false, false⟩,
    ⟨.tagEnd, "%\x7d", ⟨18, 1, 19⟩, false, false⟩,
    ⟨.variableStart, "\x7b\x7b", ⟨20, 1, 21⟩, false, false⟩,
    ⟨.identifier, "x", ⟨22, 1, 23⟩, false, false⟩,
    ⟨.variableEnd, "\x7d\x7d", ⟨23, 1, 24⟩, false, false⟩,
    ⟨.tagStart, "\x7b%", ⟨25, 1, 26⟩, false, false⟩, ⟨.elseWord, "else", ⟨28, 1, 29⟩, false, false⟩,
    ⟨.tagEnd, "%\x7d", ⟨33, 1, 34⟩, false, false⟩,
    ⟨.variableStart, "\x7b\x7b", ⟨35, 1, 36⟩, false, false⟩,
    ⟨.identifier, "y", ⟨37, 1, 38⟩, false, false⟩,
    ⟨.variableEnd, "\x7d\x7d", ⟨38, 1, 39⟩, false, false⟩,
    ⟨.tagStart, "\x7b%", ⟨40, 1, 41⟩, false, false⟩, ⟨.endifWord, "endif", ⟨43, 1, 44⟩, false, false⟩,
    ⟨.tagEnd, "%\x7d", ⟨49, 1, 50⟩, false, false⟩, ⟨.endOfText, "", ⟨51, 1, 52⟩, false, false⟩]

/-- Of two branches without a condition the template keeps the second one only, and
it is accepted. -/
theorem second_else_drops_first : Token.scan twoElseText = .ok twoElseTokens ∧
    openings twoElseTokens = [⟨1, 21⟩, ⟨1, 36⟩] ∧
    ∃ t, parse usualRoom twoElseText = .ok t ∧ t.ok = true ∧ printPlacesOfNodes t.nodes = [⟨1, 36⟩] := by
  have hScan : Token.scan twoElseText = .ok twoElseTokens := by decide +kernel
  have hBlocks : (BlockMap.ofTokens twoElseTokens).blocks =
      [⟨.conditional, 0, ⟨.ifWord, "if", ⟨3, 1, 4⟩, false, false⟩, [4, 10], some 16⟩] := by
    decide +kernel
  have hIssues : (BlockMap.ofTokens twoElseTokens).issues = [] := by decide +kernel
  have hMap : BlockMap.ofTokens twoElseTokens =
      ⟨[⟨.conditional, 0, ⟨.ifWord, "if", ⟨3, 1, 4⟩, false, false⟩, [4, 10], some 16⟩], []⟩ := by
    rw [← hBlocks, ← hIssues]
  refine ⟨hScan, by decide +kernel, ?_⟩
  rw [parse_of_scan hScan, hMap]
  exact ⟨_, rfl, rfl, rfl⟩

end Template

end NoteTemplate
