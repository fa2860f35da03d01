import NoteTemplate.Node.OfTokens

/-! A text that begins somewhere else. When a text stands behind another one,
its places are those that it has alone, seen from where it begins; everything
else about what is read of it stays the same. -/
namespace NoteTemplate

/-- A place of a text by itself, when the text begins at the origin. Only the
first line of the text has something in front of it. -/
def Place.moved (origin : Position) (p : Place) : Place :=
  ⟨origin.line - 1 + p.line, if p.line = 1 then origin.column - 1 + p.column else p.column⟩

/-- A position of a text by itself, when the text begins at the origin. -/
def Position.moved (p origin : Position) : Position :=
  ⟨origin.offset + p.offset, origin.line - 1 + p.line,
    if p.line = 1 then origin.column - 1 + p.column else p.column⟩

namespace Position

variable {origin p : Position}

theorem next_line_pos (h : 0 < p.line) (c : Char) : 0 < (p.next c).line := by
  rw [next]
  split
  · exact Nat.succ_pos _
  · exact h

/-- Going on by a character leads to the same place from wherever the text
begins. -/
theorem next_moved (h : 0 < p.line) (c : Char) : (p.moved origin).next c = (p.next c).moved origin := by
  rw [next, next]
  split
  · have hLine : p.line + 1 ≠ 1 := by omega
    simp only [moved, if_neg hLine, Nat.add_assoc]
  · simp only [moved, Nat.add_assoc]
    split <;> rfl

theorem advance_line_pos (h : 0 < p.line) (cs : List Char) : 0 < (p.advance cs).line := by
  induction cs generalizing p with
  | nil => exact h
  | cons c rest ih => exact ih (next_line_pos h c)

theorem advance_moved (h : 0 < p.line) (cs : List Char) :
    (p.moved origin).advance cs = (p.advance cs).moved origin := by
  induction cs generalizing p with
  | nil => rfl
  | cons c rest ih =>
      show ((p.moved origin).next c).advance rest = ((p.next c).advance rest).moved origin
      rw [next_moved h, ih (next_line_pos h c)]

/-- Where the scanner of a template can be. -/
def Proper (p : Position) : Prop := 0 < p.line ∧ 0 < p.column

theorem Proper.advance (h : p.Proper) (cs : List Char) : (p.advance cs).Proper := by
  induction cs generalizing p with
  | nil => exact h
  | cons c rest ih =>
      refine ih ⟨next_line_pos h.1 c, ?_⟩
      rw [next]
      split <;> exact Nat.succ_pos _

theorem Proper.start_moved (h : origin.Proper) : start.moved origin = origin := by
  obtain ⟨hLine, hColumn⟩ := h
  simp only [moved, start, if_true, Nat.sub_add_cancel hLine, Nat.sub_add_cancel hColumn,
    Nat.add_zero]

/-- A text that begins where every text begins is not moved. -/
theorem moved_start (p : Position) : p.moved start = p := by
  simp [moved, start]

end Position

theorem Place.moved_start (p : Place) : p.moved Position.start = p := by
  simp [moved, Position.start]

/-- A token of a text that begins at the origin. -/
def Token.moved (origin : Position) (t : Token) : Token :=
  { t with position := t.position.moved origin }

/-- A mistake in a text that begins at the origin. -/
def TemplateError.moved (origin : Position) (e : TemplateError) : TemplateError :=
  ⟨e.mistake, (Place.moved origin ⟨e.line, e.column⟩).line,
    (Place.moved origin ⟨e.line, e.column⟩).column⟩

/-- What stops a reader of a text that begins at the origin. A fault has no place. -/
def Cause.moved (origin : Position) : Cause → Cause
  | .mistake e => .mistake (e.moved origin)
  | .fault f => .fault f

section

variable (origin : Position) (t : Token)

@[simp] theorem Token.moved_kind : (t.moved origin).kind = t.kind := rfl

@[simp] theorem Token.moved_value : (t.moved origin).value = t.value := rfl

@[simp] theorem Token.moved_trimLeft : (t.moved origin).trimLeft = t.trimLeft := rfl

@[simp] theorem Token.moved_trimRight : (t.moved origin).trimRight = t.trimRight := rfl

@[simp] theorem Token.moved_place : (t.moved origin).place = t.place.moved origin := rfl

theorem Token.moved_start : t.moved Position.start = t := by
  rw [moved, Position.moved_start]

theorem TemplateError.moved_start (e : TemplateError) : e.moved Position.start = e := by
  rw [moved, Place.moved_start]

/-- Tokens beside each other stay so. -/
theorem Tokens.adjacent_moved (left right : Token) :
    adjacent (left.moved origin) (right.moved origin) = adjacent left right := by
  have hOffset : ((left.moved origin).position.offset + left.value.length =
      (right.moved origin).position.offset) ↔
      (left.position.offset + left.value.length = right.position.offset) := by
    simp only [Token.moved, Position.moved]
    omega
  rw [adjacent, adjacent, Bool.eq_iff_iff, beq_iff_eq, beq_iff_eq]
  exact hOffset

end

namespace Expr

mutual

/-- An expression in a text that begins at the origin. -/
def moved (origin : Position) : Expr → Expr
  | .literal l p => .literal l (p.moved origin)
  | .identifier name p => .identifier name (p.moved origin)
  | .member object name p => .member (moved origin object) name (p.moved origin)
  | .index object key p => .index (moved origin object) (moved origin key) (p.moved origin)
  | .not argument p => .not (moved origin argument) (p.moved origin)
  | .binary operator left right p =>
    .binary operator (moved origin left) (moved origin right) (p.moved origin)
  | .group inner p => .group (moved origin inner) (p.moved origin)
  | .filter value name args separators parenthesized p =>
    .filter (moved origin value) name (movedAll origin args) separators parenthesized
      (p.moved origin)

/-- Expressions in a text that begins at the origin. -/
def movedAll (origin : Position) : List Expr → List Expr
  | [] => []
  | e :: rest => moved origin e :: movedAll origin rest

end

mutual

/-- Moving to the start of a text changes nothing. -/
theorem moved_start : ∀ e, moved Position.start e = e
  | .literal l p => by rw [moved, Place.moved_start]
  | .identifier name p => by rw [moved, Place.moved_start]
  | .member object name p => by rw [moved, moved_start object, Place.moved_start]
  | .index object key p => by rw [moved, moved_start object, moved_start key, Place.moved_start]
  | .not argument p => by rw [moved, moved_start argument, Place.moved_start]
  | .binary operator left right p => by
      rw [moved, moved_start left, moved_start right, Place.moved_start]
  | .group inner p => by rw [moved, moved_start inner, Place.moved_start]
  | .filter value name args separators parenthesized p => by
      rw [moved, moved_start value, movedAll_start args, Place.moved_start]

theorem movedAll_start : ∀ es, movedAll Position.start es = es
  | [] => rfl
  | e :: rest => by rw [movedAll, moved_start e, movedAll_start rest]

end

end Expr

namespace Node

mutual

/-- A part of a text that begins at the origin. -/
def moved (origin : Position) : Node → Node
  | .text s p => .text s (p.moved origin)
  | .print e trim p => .print (e.moved origin) trim (p.moved origin)
  | .conditional condition body branches otherwise trim p =>
    .conditional (condition.moved origin) (movedAll origin body) (movedBranches origin branches)
      (movedOtherwise origin otherwise) trim (p.moved origin)
  | .loop iterator iterable body trim p =>
    .loop iterator (iterable.moved origin) (movedAll origin body) trim (p.moved origin)
  | .assign name e trim p => .assign name (e.moved origin) trim (p.moved origin)

/-- Parts of a text that begins at the origin. -/
def movedAll (origin : Position) : List Node → List Node
  | [] => []
  | node :: rest => moved origin node :: movedAll origin rest

/-- Branches in a text that begins at the origin. -/
def movedBranches (origin : Position) : List (Expr × List Node) → List (Expr × List Node)
  | [] => []
  | (condition, body) :: rest =>
    (condition.moved origin, movedAll origin body) :: movedBranches origin rest

/-- The branch without a condition, in a text that begins at the origin. -/
def movedOtherwise (origin : Position) : Option (List Node) → Option (List Node)
  | some body => some (movedAll origin body)
  | none => none

end

mutual

theorem moved_start : ∀ node, moved Position.start node = node
  | .text s p => by rw [moved, Place.moved_start]
  | .print e trim p => by rw [moved, Expr.moved_start, Place.moved_start]
  | .conditional condition body branches otherwise trim p => by
      rw [moved, Expr.moved_start, movedAll_start body, movedBranches_start branches,
        movedOtherwise_start otherwise, Place.moved_start]
  | .loop iterator iterable body trim p => by
      rw [moved, Expr.moved_start, movedAll_start body, Place.moved_start]
  | .assign name e trim p => by rw [moved, Expr.moved_start, Place.moved_start]

theorem movedAll_start : ∀ nodes, movedAll Position.start nodes = nodes
  | [] => rfl
  | node :: rest => by rw [movedAll, moved_start node, movedAll_start rest]

theorem movedBranches_start : ∀ branches, movedBranches Position.start branches = branches
  | [] => rfl
  | (condition, body) :: rest => by
      rw [movedBranches, Expr.moved_start, movedAll_start body, movedBranches_start rest]

theorem movedOtherwise_start : ∀ body, movedOtherwise Position.start body = body
  | some body => by rw [movedOtherwise, movedAll_start body]
  | none => rfl

end

variable {origin : Position}

theorem movedBranches_append (first second : List (Expr × List Node)) :
    movedBranches origin (first ++ second) =
      movedBranches origin first ++ movedBranches origin second := by
  induction first with
  | nil => rfl
  | cons branch rest ih => rw [List.cons_append, movedBranches, movedBranches, ih, List.cons_append]

/-! Cutting the blanks at the ends of a body looks at its texts only. -/

theorem mapText_moved (f : List Char → List Char) (node : Node) :
    mapText f (node.moved origin) = (mapText f node).moved origin := by
  cases node <;> simp only [moved, mapText]

theorem isEmptyText_moved (node : Node) : isEmptyText (node.moved origin) = isEmptyText node := by
  cases node <;> simp only [moved, isEmptyText]

theorem mapHead_moved (f : List Char → List Char) (nodes : List Node) :
    mapHead (mapText f) (movedAll origin nodes) = movedAll origin (mapHead (mapText f) nodes) := by
  cases nodes with
  | nil => rfl
  | cons node rest => rw [movedAll, mapHead, mapText_moved, mapHead, movedAll]

/-- Cutting blanks commutes with moving. -/
theorem mapLast_moved (f : List Char → List Char) (nodes : List Node) :
    mapLast (mapText f) (movedAll origin nodes) = movedAll origin (mapLast (mapText f) nodes) := by
  induction nodes with
  | nil => rfl
  | cons node rest ih =>
      cases rest with
      | nil => simp only [movedAll, mapLast, mapText_moved]
      | cons next later =>
          rw [movedAll, movedAll, mapLast, ← movedAll, ih, mapLast, movedAll]

theorem filter_moved (nodes : List Node) :
    (movedAll origin nodes).filter (fun node => !isEmptyText node) =
      movedAll origin (nodes.filter fun node => !isEmptyText node) := by
  induction nodes with
  | nil => rfl
  | cons node rest ih =>
      rw [movedAll, List.filter_cons, isEmptyText_moved, List.filter_cons, ih]
      split
      · rw [movedAll]
      · rfl

/-- The body of a moved block is trimmed to the moved body. -/
theorem trimBody_moved (head next : Token) (nodes : List Node) :
    trimBody (head.moved origin) (next.moved origin) (movedAll origin nodes) =
      movedAll origin (trimBody head next nodes) := by
  have hHead : (if head.trimRight then mapHead (mapText Text.cutMarginStart) (movedAll origin nodes)
      else movedAll origin nodes) =
      movedAll origin (if head.trimRight then mapHead (mapText Text.cutMarginStart) nodes
        else nodes) := by
    split
    · exact mapHead_moved _ nodes
    · rfl
  rw [trimBody, trimBody, Token.moved_trimRight, Token.moved_trimLeft, hHead]
  split
  · rw [mapLast_moved, filter_moved]
  · exact filter_moved _

/-- A text as a part, behind a token like the one that was in front of it. -/
theorem ofText_moved (previous : Option Token) (token : Token) :
    ofText (previous.map (Token.moved origin)) (token.moved origin) =
      (ofText previous token).map (moved origin) := by
  have hKept : (previous.map (Token.moved origin)).any (fun t => t.kind = .tagEnd && !t.trimRight) =
      previous.any fun t => t.kind = .tagEnd && !t.trimRight := by
    cases previous <;> rfl
  have hText (before : Option Token) (t : Token) : ofText before t =
      let kept := if before.any fun t => t.kind = .tagEnd && !t.trimRight then
        Text.cutLineEnd t.value.toList else t.value.toList
      if kept = [] then none else some (.text (String.ofList kept) t.place) := by
    cases before <;> rfl
  rw [hText, hText, hKept, Token.moved_value, Token.moved_place, apply_ite (Option.map _),
    Option.map_some, moved]
  rfl

/-- Branches as they are read, in a text that begins at the origin. -/
def Branches.moved (origin : Position) (found : Branches) : Branches :=
  ⟨movedBranches origin found.branches, movedOtherwise origin found.otherwise⟩

/-- The head of a loop in a text that begins at the origin. -/
def LoopHead.moved (origin : Position) (head : LoopHead) : LoopHead :=
  ⟨head.iterator, head.iterable.moved origin, head.close.moved origin⟩

end Node

/-- A block of tokens that stand behind others. -/
def Block.moved (origin : Position) (index : Nat) (block : Block) : Block :=
  { block with
    start := index + block.start
    keyword := block.keyword.moved origin
    branches := block.branches.map (index + ·)
    close := block.close.map (index + ·) }

theorem Block.moved_start (block : Block) : block.moved Position.start 0 = block := by
  have hSame : (fun index : Nat => 0 + index) = id := funext Nat.zero_add
  rw [Block.moved, hSame, Token.moved_start, List.map_id, Option.map_id, Nat.zero_add]
  rfl

end NoteTemplate
