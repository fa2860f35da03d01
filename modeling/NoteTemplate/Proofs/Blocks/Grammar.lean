import NoteTemplate.Proofs.Progress.Levels

/-! The grammar of block tags. Counting the depth finds nothing wrong just when
the tags, in the order of the text, are a sentence of this grammar whose blocks
are not too deep inside each other. -/
namespace NoteTemplate

namespace Block

/-- The sentences of block tags with blocks inside each other to a depth at most.
A condition has a body and any number of branches with bodies of their own, a loop
has one body; behind a block the sentence goes on. -/
inductive Sentence : Nat → List Role → Prop where
  | empty (depth : Nat) : Sentence depth []
  | conditional {depth : Nat} {body rest : List Role} {branches : List (List Role)}
      (hBody : Sentence depth body) (hBranches : ∀ branch ∈ branches, Sentence depth branch)
      (hRest : Sentence (depth + 1) rest) :
      Sentence (depth + 1) (.opens .conditional :: (body ++
        (branches.flatMap (.branches :: ·) ++ .closes .conditional :: rest)))
  | loop {depth : Nat} {body rest : List Role} (hBody : Sentence depth body)
      (hRest : Sentence (depth + 1) rest) :
      Sentence (depth + 1) (.opens .loop :: (body ++ .closes .loop :: rest))

/-- The kinds of the blocks that are open behind a tag, innermost first, if the tag
has a place among those that are open. -/
def next? (opened : List BlockKind) : Role → Option (List BlockKind)
  | .opens kind => if opened.length = maxDepth then none else some (kind :: opened)
  | .branches => if opened.head? = some .conditional then some opened else none
  | .closes kind => if opened.head? = some kind then some opened.tail else none

/-- The kinds of the blocks that are open behind some tags, if each has a place. -/
def behind? (opened : List BlockKind) (roles : List Role) : Option (List BlockKind) :=
  roles.foldlM next? opened

/-! The count follows the kinds of the open blocks. -/

namespace Matching

/-- The kinds of the open blocks. -/
def kinds (m : Matching) : List BlockKind := m.stack.map Block.kind

/-- A tag with a place is no mistake, and one without a place is. -/
theorem step_next? {m : Matching} (hClean : m.mistakes = []) (hDepth : m.stack.length ≤ maxDepth)
    (tag : Tag) : match next? m.kinds tag.role with
      | some opened => (m.step tag).mistakes = [] ∧ (m.step tag).kinds = opened ∧
          (m.step tag).stack.length ≤ maxDepth
      | none => (m.step tag).mistakes ≠ [] := by
  obtain ⟨stack, closed, mistakes⟩ := m
  obtain ⟨index, keyword, role⟩ := tag
  cases role with
  | opens kind =>
      simp only [next?, step, kinds, List.length_map, List.length_cons, Nat.add_right_cancel_iff]
      by_cases hFull : stack.length = maxDepth
      · simp [hFull]
      · rw [if_neg hFull, if_neg hFull]
        exact ⟨hClean, rfl, Nat.lt_of_le_of_ne hDepth hFull⟩
  | branches =>
      cases stack with
      | nil => simp [next?, step, kinds, stray]
      | cons block rest =>
          by_cases hKind : block.kind = .conditional
          · simpa [next?, step, kinds, hKind] using ⟨hClean, hDepth⟩
          · simp [next?, step, kinds, hKind, stray]
  | closes kind =>
      cases stack with
      | nil => simp [next?, step, kinds, stray]
      | cons block rest =>
          by_cases hKind : block.kind = kind
          · simpa [next?, step, kinds, hKind] using ⟨hClean, Nat.le_of_succ_le hDepth⟩
          · simp [next?, step, kinds, hKind, stray]

/-- Behind all tags nothing is wrong and nothing is open just when each tag has a
place and the last open block is closed. -/
theorem run_behind? {m : Matching} (hClean : m.mistakes = []) (hDepth : m.stack.length ≤ maxDepth)
    (tags : List Tag) :
    (tags.foldl step m).mistakes = [] ∧ (tags.foldl step m).stack = [] ↔
      behind? m.kinds (tags.map Tag.role) = some [] := by
  induction tags generalizing m with
  | nil => simp [behind?, kinds, hClean]
  | cons tag rest ih =>
      have hStep := step_next? hClean hDepth tag
      rw [List.foldl_cons, List.map_cons, behind?, List.foldlM_cons]
      cases hNext : next? m.kinds tag.role with
      | none =>
          rw [hNext] at hStep
          refine ⟨fun h => absurd ((run_mono _ rest).1 h.1) hStep, ?_⟩
          rintro ⟨⟩
      | some opened =>
          rw [hNext] at hStep
          obtain ⟨hMistakes, rfl, hLength⟩ := hStep
          exact ih hMistakes hLength

end Matching

/-! Sentences have a place wherever there is room for them. -/

theorem behind?_append (opened : List BlockKind) (first second : List Role) :
    behind? opened (first ++ second) = (behind? opened first).bind (behind? · second) :=
  List.foldlM_append

theorem behind?_opens {opened : List BlockKind} (h : opened.length ≠ maxDepth) (kind : BlockKind)
    (word : List Role) : behind? opened (.opens kind :: word) = behind? (kind :: opened) word := by
  rw [behind?, List.foldlM_cons, next?, if_neg h]
  rfl

theorem behind?_branches (opened : List BlockKind) (word : List Role) :
    behind? (.conditional :: opened) (.branches :: word) = behind? (.conditional :: opened) word := rfl

theorem behind?_closes (kind : BlockKind) (opened : List BlockKind) (word : List Role) :
    behind? (kind :: opened) (.closes kind :: word) = behind? opened word := by
  rw [behind?, List.foldlM_cons, next?, if_pos List.head?_cons]
  rfl

/-- Branches leave open what is open, if their bodies do. -/
theorem behind?_flatMap {opened : List BlockKind} {branches : List (List Role)}
    (h : ∀ branch ∈ branches, behind? (.conditional :: opened) branch = some (.conditional :: opened)) :
    behind? (.conditional :: opened) (branches.flatMap (.branches :: ·)) =
      some (.conditional :: opened) := by
  induction branches with
  | nil => rfl
  | cons branch rest ih =>
      obtain ⟨hBranch, hRest⟩ := List.forall_mem_cons.mp h
      rw [List.flatMap_cons, behind?_append, behind?_branches, hBranch]
      exact ih hRest

/-- A sentence leaves open what was open in front of it. -/
theorem Sentence.behind?_eq {depth : Nat} {word : List Role} (h : Sentence depth word)
    {opened : List BlockKind} (hRoom : opened.length + depth ≤ maxDepth) :
    behind? opened word = some opened := by
  induction h generalizing opened with
  | empty => rfl
  | @conditional depth body rest branches _ _ _ ihBody ihBranches ihRest =>
      have hInside : (BlockKind.conditional :: opened).length + depth ≤ maxDepth := by
        rw [List.length_cons]
        omega
      have hBranches := behind?_flatMap fun branch hMem => ihBranches branch hMem hInside
      rw [behind?_opens (by omega), behind?_append, ihBody hInside, Option.bind_some, behind?_append,
        hBranches, Option.bind_some, behind?_closes]
      exact ihRest hRoom
  | @loop depth body rest _ _ ihBody ihRest =>
      have hInside : (BlockKind.loop :: opened).length + depth ≤ maxDepth := by
        rw [List.length_cons]
        omega
      rw [behind?_opens (by omega), behind?_append, ihBody hInside, Option.bind_some, behind?_closes]
      exact ihRest hRoom

/-! What has a place is a sentence. -/

/-- The words that close all open blocks, innermost first, with sentences of a
depth for which there is room in between. -/
def Completes : List BlockKind → List Role → Prop
  | [], word => Sentence maxDepth word
  | kind :: opened, word => ∃ (body : List Role) (branches : List (List Role)) (rest : List Role),
      word = body ++ (branches.flatMap (.branches :: ·) ++ .closes kind :: rest) ∧
      Sentence (maxDepth - (opened.length + 1)) body ∧
      (∀ branch ∈ branches, Sentence (maxDepth - (opened.length + 1)) branch) ∧
      (kind = .loop → branches = []) ∧ Completes opened rest

/-- What can stand in front of a sentence can stand in front of a word that closes
open blocks. -/
theorem Completes.prepend {opened : List BlockKind} {front word : List Role}
    (h : Completes opened word)
    (hFront : ∀ rest, Sentence (maxDepth - opened.length) rest →
      Sentence (maxDepth - opened.length) (front ++ rest)) : Completes opened (front ++ word) := by
  cases opened with
  | nil => exact hFront word h
  | cons kind opened =>
      obtain ⟨body, branches, rest, rfl, hBody, hBranches, hLoop, hRest⟩ := h
      exact ⟨front ++ body, branches, rest, (List.append_assoc _ _ _).symm, hFront body hBody,
        hBranches, hLoop, hRest⟩

/-- An opening tag in front of a word that closes its block: the block is complete. -/
theorem Completes.opens {kind : BlockKind} {opened : List BlockKind} {word : List Role}
    (h : Completes (kind :: opened) word) (hRoom : opened.length < maxDepth) :
    Completes opened (.opens kind :: word) := by
  obtain ⟨body, branches, rest, rfl, hBody, hBranches, hLoop, hRest⟩ := h
  have hDepth : maxDepth - opened.length = maxDepth - (opened.length + 1) + 1 := by omega
  have hBlock : ∀ later, Sentence (maxDepth - opened.length) later →
      Sentence (maxDepth - opened.length) ((.opens kind :: (body ++
        (branches.flatMap (.branches :: ·) ++ [.closes kind]))) ++ later) := by
    intro later hLater
    rw [hDepth] at hLater ⊢
    rw [List.cons_append, List.append_assoc, List.append_assoc]
    cases kind with
    | conditional => exact .conditional hBody hBranches hLater
    | loop =>
        rw [hLoop rfl]
        exact .loop hBody hLater
  have hWhole := hRest.prepend hBlock
  rwa [List.cons_append, List.append_assoc, List.append_assoc] at hWhole

/-- A branch may be put in front of what completes an open condition. -/
theorem Completes.branches {opened : List BlockKind} {word : List Role}
    (h : Completes (.conditional :: opened) word) :
    Completes (.conditional :: opened) (.branches :: word) := by
  obtain ⟨body, branches, rest, rfl, hBody, hBranches, -, hRest⟩ := h
  refine ⟨[], body :: branches, rest, ?_, .empty _, List.forall_mem_cons.mpr ⟨hBody, hBranches⟩, ?_,
    hRest⟩
  · rw [List.flatMap_cons, List.nil_append, List.append_assoc, List.cons_append]
  · rintro ⟨⟩

theorem Completes.closes {kind : BlockKind} {opened : List BlockKind} {word : List Role}
    (h : Completes opened word) : Completes (kind :: opened) (.closes kind :: word) :=
  ⟨[], [], word, rfl, .empty _, List.forall_mem_nil _, fun _ => rfl, h⟩

/-- By induction on the word, from its end: when every tag has a place and nothing
is open at the end, the word closes what is open in front of it. -/
theorem completes_of_behind? {word : List Role} {opened : List BlockKind}
    (hDepth : opened.length ≤ maxDepth) (h : behind? opened word = some []) :
    Completes opened word := by
  induction word generalizing opened with
  | nil =>
      cases h
      exact .empty maxDepth
  | cons role word ih =>
      rw [behind?, List.foldlM_cons] at h
      obtain ⟨behind, hNext, hLater⟩ := Option.bind_eq_some_iff.mp h
      cases role with
      | opens kind =>
          rw [next?] at hNext
          split at hNext
          · cases hNext
          · next hRoom =>
            cases hNext
            have hLess := Nat.lt_of_le_of_ne hDepth hRoom
            have hInside : (kind :: opened).length ≤ maxDepth := hLess
            exact (ih hInside hLater).opens hLess
      | branches =>
          rw [next?] at hNext
          split at hNext
          · next hHead =>
            cases hNext
            obtain ⟨outer, rfl⟩ := List.head?_eq_some_iff.mp hHead
            exact (ih hDepth hLater).branches
          · cases hNext
      | closes kind =>
          rw [next?] at hNext
          split at hNext
          · next hHead =>
            cases hNext
            obtain ⟨outer, rfl⟩ := List.head?_eq_some_iff.mp hHead
            exact (ih (Nat.le_of_succ_le hDepth) hLater).closes
          · cases hNext

theorem behind?_eq_iff (word : List Role) : behind? [] word = some [] ↔ Sentence maxDepth word :=
  ⟨fun h => completes_of_behind? (Nat.zero_le _) h,
    fun h => h.behind?_eq (Nat.le_of_eq (Nat.zero_add _))⟩

/-- Blocks that cross are no sentence. -/
example : ¬ Sentence maxDepth
    [.opens .conditional, .opens .loop, .closes .conditional, .closes .loop] := by
  rw [← behind?_eq_iff]
  decide

end Block

namespace BlockMap

open Block

variable {tokens : List Token}

theorem issues_eq_nil_iff : (ofTokens tokens).issues = [] ↔
    (counted tokens).mistakes = [] ∧ (counted tokens).stack = [] := by
  refine ⟨fun h => (of_issues h).symm, fun h => ?_⟩
  show (counted tokens).mistakes.reverse ++ (counted tokens).stack.reverse.map unclosed = []
  rw [h.1, h.2]
  rfl

/-- Nothing is wrong with the blocks of a template just when its block tags are a
sentence. -/
theorem balanced_iff (tokens : List Token) :
    (ofTokens tokens).balanced = true ↔ Sentence maxDepth ((tagsFrom 0 tokens).map Tag.role) := by
  rw [balanced, List.isEmpty_iff, issues_eq_nil_iff]
  exact (Matching.run_behind? rfl (Nat.zero_le _) _).trans (behind?_eq_iff _)

end BlockMap

end NoteTemplate
