import NoteTemplate.Proofs.RoundTrip.Filters

/-! Reading undoes writing: a canonical expression between braces is read as
that expression, and nothing else is found in the text. -/
namespace NoteTemplate.Tokens

open Token NoteTemplate.Expr

/-- The levels at which an expression does not begin with a negation. -/
def isTight : Level → Bool
  | .primary | .accessed | .filtered | .comparison => true
  | _ => false

/-- The levels of arguments. -/
def isArgument : Level → Bool
  | .primary | .accessed => true
  | _ => false

/-- Up to comparisons, no canonical expression begins with a negation. -/
theorem firstKind_ne_notWord {level : Level} {e : Expr} (h : Canonical level e) :
    isTight level = true → firstKind e ≠ .notWord := by
  induction h with
  | null | bool | int | text | identifier | group => simp [firstKind, literalShape]
  | primary _ ih => exact fun _ => ih rfl
  | index _ _ _ ih => exact fun _ => ih rfl
  | member _ _ _ _ ih => exact fun _ => ih rfl
  | accessed _ ih => exact fun _ => ih rfl
  | filterAlone _ _ _ ih => exact fun _ => ih rfl
  | filterList _ _ _ _ _ _ _ ih => exact fun _ => ih rfl
  | filterParens _ _ _ _ _ ih => exact fun _ => ih rfl
  | filtered _ ih => exact fun _ => ih rfl
  | comparison _ _ _ _ ih => exact fun _ => ih rfl
  | compared | not | negated | and | conjoined | or | disjoined | fallback =>
      intro hLevel
      cases hLevel

/-- An argument begins with a parenthesis only if it begins with a group, and
it does not end with arguments of its own. -/
theorem firstKind_argument {level : Level} {e : Expr} (h : Canonical level e) :
    isArgument level = true →
      (opensWithParen e = false → firstKind e ≠ .leftParen) ∧ endsInList e = false := by
  induction h with
  | null | bool | int | text | identifier => simp [firstKind, literalShape, endsInList]
  | group => simp [opensWithParen, endsInList]
  | primary _ ih => exact fun _ => ih rfl
  | index _ _ _ ih => exact fun _ => ⟨(ih rfl).1, rfl⟩
  | member _ _ _ _ ih => exact fun _ => ⟨(ih rfl).1, rfl⟩
  | accessed | filterAlone | filterList | filterParens | filtered | comparison | compared | not
    | negated | and | conjoined | or | disjoined | fallback =>
      intro hLevel
      cases hLevel

/-- Reading a canonical expression from its tokens, if its integers can be written. -/
theorem reads_canonical {level : Level} {e : Expr} (h : Canonical level e)
    (hWritable : e.writable = true) : Reads level e := by
  induction h with
  | null p => exact reads_null p
  | bool b p => exact reads_bool b p
  | int n p =>
      rw [writable] at hWritable
      exact reads_int hWritable p
  | text p _ => exact reads_text _ p
  | identifier p _ => exact reads_identifier _ p
  | group p _ ih =>
      rw [writable] at hWritable
      exact reads_group p (ih hWritable)
  | primary _ ih => exact reads_primary (ih hWritable)
  | index p _ _ ihObject ihKey =>
      rw [writable, Bool.and_eq_true] at hWritable
      exact reads_index p (ihObject hWritable.1) (ihKey hWritable.2)
  | member p _ _ _ ih =>
      rw [writable] at hWritable
      exact reads_member p (ih hWritable)
  | accessed _ ih => exact reads_accessed (ih hWritable)
  | filterAlone p _ _ ih =>
      rw [writable, Bool.and_eq_true] at hWritable
      exact reads_filterAlone p (ih hWritable.1)
  | filterList p _ _ hFirst hParen _ hLength ihValue ihFirst ihArgs =>
      rw [writable, Bool.and_eq_true, allWritable_iff, List.forall_mem_cons] at hWritable
      obtain ⟨hValue, hHead, hRest⟩ := hWritable
      exact reads_filterList p (ihValue hValue) (ihFirst hHead)
        ((firstKind_argument hFirst rfl).1 hParen) (fun arg hArg => ihArgs arg hArg (hRest arg hArg))
        hLength
  | @filterParens value name args p _ _ hSome hArgs ihValue ihArgs =>
      rw [writable, Bool.and_eq_true, allWritable_iff] at hWritable
      cases args with
      | nil => exact absurd rfl hSome
      | cons first rest =>
          refine reads_filterParens p (ihValue hWritable.1) fun arg hArg => ⟨?_, ?_, ?_⟩
          · exact firstKind_ne_notWord (hArgs arg hArg) rfl
          · exact (firstKind_argument (hArgs arg hArg) rfl).2
          · exact ihArgs arg hArg (hWritable.2 arg hArg)
  | filtered _ ih => exact reads_filtered (ih hWritable)
  | comparison p hOperator _ _ ihLeft ihRight =>
      rw [writable, Bool.and_eq_true] at hWritable
      exact reads_comparison p hOperator (ihLeft hWritable.1) (ihRight hWritable.2)
  | compared hComparison ih =>
      exact reads_compared (firstKind_ne_notWord hComparison rfl) (ih hWritable)
  | not p _ ih =>
      rw [writable] at hWritable
      exact reads_not p (ih hWritable)
  | negated _ ih => exact (reads_negated (ih hWritable)).chain
  | and p _ _ ihLeft ihRight =>
      rw [writable, Bool.and_eq_true] at hWritable
      exact reads_binary p (ihLeft hWritable.1) (reads_negated (ihRight hWritable.2))
  | conjoined _ ih => exact (reads_conjoined (ih hWritable)).chain
  | or p _ _ ihLeft ihRight =>
      rw [writable, Bool.and_eq_true] at hWritable
      exact reads_binary p (ihLeft hWritable.1) (reads_conjoined (ihRight hWritable.2))
  | disjoined _ ih => exact (reads_disjoined (ih hWritable)).chain
  | fallback p _ _ ihLeft ihRight =>
      rw [writable, Bool.and_eq_true] at hWritable
      exact reads_binary p (ihLeft hWritable.1) (reads_disjoined (ihRight hWritable.2))

/-- At the loosest level an expression without an operator and without a filter
is read as at its own. -/
theorem reads_loosest {e : Expr} (h : Reads .accessed e) (hFirst : firstKind e ≠ .notWord) :
    Reads .fallback e := by
  have hNegation := reads_compared hFirst (reads_filtered (reads_accessed h))
  exact (reads_disjoined (reads_conjoined (reads_negated hNegation).chain).chain).chain

end NoteTemplate.Tokens

namespace NoteTemplate.Template

open Token Tokens NoteTemplate.Expr

/-- A template that prints an expression. -/
def printing (e : Expr) : String := "\x7b\x7b " ++ e.print ++ " \x7d\x7d"

/-- The scanner behind an expression. -/
theorem scan_closing (position : Position) : ∃ closing last,
    scanFrom .variable position [' ', '\x7d', '\x7d'] = .ok [closing, last] ∧
      closing.kind = .variableEnd ∧ closing.trimRight = false ∧ last.kind = .endOfText := by
  refine ⟨⟨.variableEnd, "\x7d\x7d", position.next ' ', false, false⟩,
    ⟨.endOfText, "", (position.next ' ').advance ['\x7d', '\x7d'], false, false⟩, ?_, rfl, rfl, rfl⟩
  rw [scanFrom_blank rfl, scanFrom_closing, scanFrom_step]
  rfl

/-- The tokens of such a template, if the expression is scanned as its tokens in
front of a blank. -/
theorem scan_printing_of_scans {suits : List Char → Prop} {e : Expr}
    (h : Scans suits e.print.toList e.shapes) (hSuits : suits [' ', '\x7d', '\x7d']) :
    ∃ opening tokens closing last, scan (printing e) = .ok (opening :: (tokens ++ [closing, last])) ∧
      opening.kind = .variableStart ∧ opening.place = ⟨1, 1⟩ ∧ opening.trimLeft = false ∧
      tokens.map shape = e.shapes ∧ closing.kind = .variableEnd ∧ closing.trimRight = false ∧
      last.kind = .endOfText := by
  have hText : (printing e).toList =
      '\x7b' :: '\x7b' :: ((' ' :: e.print.toList) ++ [' ', '\x7d', '\x7d']) := by
    simp [printing]
  obtain ⟨tokens, behind, hTokens, hScan⟩ :=
    h.blank (Position.start.advance ['\x7b', '\x7b']) [' ', '\x7d', '\x7d'] hSuits
  obtain ⟨closing, last, hEnd, hClosing, hTrim, hLast⟩ := scan_closing behind
  refine ⟨⟨.variableStart, "\x7b\x7b", Position.start, false, false⟩, tokens,
    closing, last, ?_, rfl, rfl, rfl, hTokens, hClosing, hTrim, hLast⟩
  rw [scan, hText, scanFrom_opening rfl, hScan, hEnd]
  rfl

/-- Reading an expression to print, up to its closing delimiter. -/
theorem readVariable_of_reads {e : Expr} (h : Reads .fallback e) {opening closing : Token}
    {tokens : List Token} (hOpening : opening.kind = .variableStart)
    (hTokens : tokens.map shape = e.shapes) (hClosing : closing.kind = .variableEnd)
    (behind : List Token) :
    ∃ found, found.unplaced = e.unplaced ∧ ∀ room, Comes (e.depth ≤ room)
      (Node.readVariable room (opening :: (tokens ++ closing :: behind)))
      (.ok (.print found ⟨opening.trimLeft, closing.trimRight⟩ opening.place, behind)) := by
  have hNext : nextKind (closing :: behind) = .variableEnd := hClosing
  obtain ⟨found, hSame, hRead⟩ := Reads.toEnd h
    (stepBound (tokens ++ closing :: behind)) tokens (closing :: behind) hTokens
    (by simp only [stepBound, List.length_append]; omega)
    (by rw [hNext]; exact stays_of_ends rfl) (by rw [hNext]; rfl) (by rw [hNext]; decide)
  have hSome : at? (tokens ++ closing :: behind) .variableEnd = false :=
    at?_eq_false (by rw [nextKind_append hTokens]; exact firstKind_ne rfl)
  have hNoWord : at? (closing :: behind) .identifier = false :=
    at?_eq_false (by rw [hNext]; decide)
  have hEnd : expectEnd .variableEnd .variableNotClosed (closing :: behind) =
      .ok (closing, behind) := by
    have hCurrent : current (closing :: behind) = closing := rfl
    rw [expectEnd, hCurrent, hClosing, expect_cons hClosing (by decide)]
    rfl
  refine ⟨found, hSame, fun room => ?_⟩
  rw [Node.readVariable, advance_cons hOpening (by decide), hSome, readExpr]
  refine ((hRead room).bind _).trans_eq ?_
  simp only [hNoWord, hEnd]
  rfl

/-- Without tags there are no tags of blocks. -/
theorem tagsFrom_eq_nil (index : Nat) {ts : List Token} (h : ∀ t ∈ ts, t.kind ≠ .tagStart) :
    Block.tagsFrom index ts = [] := by
  induction ts generalizing index with
  | nil => rfl
  | cons t rest ih =>
      cases rest with
      | nil => rfl
      | cons next rest =>
          have hLater := ih (index + 1) fun other hOther => h other (List.mem_cons_of_mem _ hOther)
          rw [Block.tagsFrom, if_neg (h t (by simp)), hLater]

mutual

/-- No tag begins in an expression. -/
theorem noTag_shapes : ∀ e : Expr, ∀ s ∈ e.shapes, s.1 ≠ .tagStart
  | .literal l _ => by cases l <;> simp [shapes, literalShape]
  | .identifier _ _ => by simp [shapes]
  | .member object _ _ => by
      rw [shapes]
      exact List.forall_mem_append.mpr ⟨noTag_shapes object, by simp⟩
  | .index object key _ => by
      rw [shapes, List.forall_mem_append, List.forall_mem_cons, List.forall_mem_append]
      exact ⟨noTag_shapes object, by simp, noTag_shapes key, by simp⟩
  | .not e _ => by
      rw [shapes]
      exact List.forall_mem_cons.mpr ⟨by simp, noTag_shapes e⟩
  | .binary operator left right _ => by
      rw [shapes, List.forall_mem_append, List.forall_mem_cons]
      exact ⟨noTag_shapes left, by cases operator <;> simp [operatorKind], noTag_shapes right⟩
  | .group e _ => by
      rw [shapes, List.forall_mem_cons, List.forall_mem_append]
      exact ⟨by simp, noTag_shapes e, by simp⟩
  | .filter value _ [] _ _ _ => by
      rw [shapes]
      exact List.forall_mem_append.mpr ⟨noTag_shapes value, by simp⟩
  | .filter value name (first :: rest) separators parenthesized _ => by
      have hHead : ∀ s ∈ value.shapes ++ [(.pipe, "|"), (.identifier, name)], s.1 ≠ .tagStart :=
        List.forall_mem_append.mpr ⟨noTag_shapes value, by simp⟩
      have hList := List.forall_mem_append.mpr
        ⟨noTag_shapes first, noTag_shapesBehind separators rest⟩
      have hParens := List.forall_mem_append.mpr
        ⟨noTag_shapes first, noTag_shapesBehind (rest.map fun _ => .comma) rest⟩
      cases parenthesized with
      | false =>
          simp only [shapes, Bool.false_eq_true, if_false]
          exact List.forall_mem_append.mpr ⟨hHead, List.forall_mem_cons.mpr ⟨by simp, hList⟩⟩
      | true =>
          have hInside := List.forall_mem_append.mpr
            ⟨hParens, (by simp : ∀ s ∈ [((.rightParen, ")") : Shape)], s.1 ≠ .tagStart)⟩
          simp only [shapes, if_true]
          exact List.forall_mem_append.mpr ⟨hHead,
            List.forall_mem_cons.mpr ⟨by simp, List.forall_mem_cons.mpr ⟨by simp, hInside⟩⟩⟩

/-- No tag begins in the arguments of a filter. -/
theorem noTag_shapesBehind : ∀ (separators : List Separator) (args : List Expr),
    ∀ s ∈ shapesBehind separators args, s.1 ≠ .tagStart
  | [], _ => by simp [shapesBehind]
  | _ :: _, [] => by simp [shapesBehind]
  | separator :: separators, arg :: rest => by
      rw [shapesBehind, List.forall_mem_cons, List.forall_mem_append]
      exact ⟨by cases separator <;> simp [separatorKind], noTag_shapes arg,
        noTag_shapesBehind separators rest⟩

end

/-- No tag begins in a template that prints an expression. -/
theorem noTag_printing {e : Expr} {opening closing last : Token} {tokens : List Token}
    (hTokens : tokens.map shape = e.shapes) (hOpening : opening.kind = .variableStart)
    (hClosing : closing.kind = .variableEnd) (hLast : last.kind = .endOfText) :
    ∀ t ∈ opening :: (tokens ++ [closing, last]), t.kind ≠ .tagStart := by
  simp only [List.forall_mem_cons, List.forall_mem_append, hOpening, hClosing, hLast]
  refine ⟨by decide, fun t ht => ?_, by decide, by decide, by simp⟩
  exact noTag_shapes e (shape t) (hTokens ▸ List.mem_map_of_mem ht)

/-- A template without tags has no blocks. -/
theorem blocks_eq_empty {ts : List Token} (h : ∀ t ∈ ts, t.kind ≠ .tagStart) :
    BlockMap.ofTokens ts = {} := by
  rw [BlockMap.ofTokens, tagsFrom_eq_nil 0 h]
  simp [BlockMap.ofMatching]

/-- Reading an expression to print and nothing else. -/
theorem ofTokens_printing {e : Expr} (h : Reads .fallback e) {opening closing : Token}
    (last : Token) {tokens : List Token} (hOpening : opening.kind = .variableStart)
    (hTokens : tokens.map shape = e.shapes) (hClosing : closing.kind = .variableEnd)
    (blocks : BlockMap) :
    ∃ found position, found.unplaced = e.unplaced ∧ ∀ room,
      Node.ofTokens room (opening :: (tokens ++ [closing, last])) blocks =
        if e.depth ≤ room then
          .ok ⟨[.print found ⟨opening.trimLeft, closing.trimRight⟩ opening.place], [], position⟩
        else .error .nestedTooDeeply := by
  let ts := opening :: (tokens ++ [closing, last])
  obtain ⟨found, hSame, hRead⟩ := readVariable_of_reads h hOpening hTokens hClosing [last]
  refine ⟨found, tokens.length + 2, hSame, fun room => ?_⟩
  let source : Node.Source := ⟨ts, blocks, room⟩
  have hLength : ts.length = tokens.length + 3 := by simp [ts]
  have hPosition : source.positionOf [last] = tokens.length + 2 := by
    simp [source, ts, Node.Source.positionOf]
  have hCurrent : current ts = opening := rfl
  have hFrom : source.tokensFrom 0 = ts := rfl
  have hEnd (fuel : Nat) : Node.readNodes source (tokens.length + 2) (fuel + 1)
      (tokens.length + 2) = .ok ⟨[], [], tokens.length + 2⟩ := by
    rw [Node.readNodes]
    simp
  have hStart : at? (source.tokensFrom 0) .endOfText = false :=
    at?_eq_false (by rw [show nextKind (source.tokensFrom 0) = opening.kind from rfl, hOpening]; decide)
  show Node.readNodes source (ts.length - 1) (8 * ts.length + 7 + 1) 0 = _
  rw [Node.readNodes, hLength, hStart]
  by_cases hFits : e.depth ≤ room
  · have hFound : Node.readVariable source.room ts = _ := (hRead room).1 hFits
    have hNode (fuel : Nat) : Node.readNode source (fuel + 1) 0 =
        .ok ⟨some (.print found ⟨opening.trimLeft, closing.trimRight⟩ opening.place), [],
          source.positionOf [last]⟩ := by
      rw [Node.readNode]
      simp only [hFrom, hCurrent, hOpening, hFound]
    rw [if_pos hFits]
    simp only [Nat.add_succ_sub_one, hNode, hPosition, bind, Except.bind, hEnd]
    rfl
  · obtain ⟨rest, hFault⟩ : ∃ rest, Node.readVariable source.room ts = _ := (hRead room).2 hFits
    have hNode (fuel : Nat) : Node.readNode source (fuel + 1) 0 = .error .nestedTooDeeply := by
      rw [Node.readNode]
      simp only [hFrom, hCurrent, hOpening, hFault]
      rfl
    rw [if_neg hFits]
    simp only [Nat.add_succ_sub_one, hNode]
    rfl

/-- An expression that is scanned as its tokens in front of a blank, and read from
them, is read from a template that prints it, unless there is no room for what is
inside of it. -/
theorem parse_printing_of_reads {suits : List Char → Prop} {e : Expr}
    (hScans : Scans suits e.print.toList e.shapes) (hSuits : suits [' ', '\x7d', '\x7d'])
    (hReads : Reads .fallback e) :
    ∃ found position, found.unplaced = e.unplaced ∧ ∀ room,
      parseUnchecked room (printing e) =
        (if e.depth ≤ room then .ok ⟨[.print found ⟨false, false⟩ ⟨1, 1⟩], [], position⟩
          else .error .nestedTooDeeply) ∧
      parse room (printing e) =
        .ok (if e.depth ≤ room then ⟨[.print found ⟨false, false⟩ ⟨1, 1⟩], []⟩
          else ⟨[], [⟨.tooDeep, 1, 1⟩]⟩) := by
  obtain ⟨opening, tokens, closing, last, hScan, hOpening, hPlace, hLeft, hTokens, hClosing, hRight,
    hLast⟩ := scan_printing_of_scans hScans hSuits
  have hBlocks := blocks_eq_empty (noTag_printing hTokens hOpening hClosing hLast)
  obtain ⟨found, position, hSame, hRead⟩ :=
    ofTokens_printing hReads last hOpening hTokens hClosing {}
  rw [hPlace, hLeft, hRight] at hRead
  refine ⟨found, position, hSame, fun room => ⟨?_, ?_⟩⟩
  · rw [parseUnchecked, hScan]
    simp only [bind, Except.bind, hBlocks, hRead]
  · rw [parse_of_scan hScan, hBlocks, show BlockMap.balanced {} = true from rfl, if_pos rfl, ofTokens,
      hRead]
    split <;> rfl

/-- A name in so many parentheses. -/
def inParens : Nat → Expr
  | 0 => .identifier "x" ⟨1, 1⟩
  | n + 1 => .group (inParens n) ⟨1, 1⟩

theorem canonical_inParens (n : Nat) : Canonical .fallback (inParens n) := by
  have hLoosest {e : Expr} (h : Canonical .primary e) : Canonical .fallback e :=
    .disjoined (.conjoined (.negated (.compared (.filtered (.accessed (.primary h))))))
  induction n with
  | zero => exact hLoosest (.identifier _ ⟨by decide, by decide, by decide⟩)
  | succ n ih => exact hLoosest (.group _ ih)

theorem depth_inParens (n : Nat) : (inParens n).depth = n := by
  induction n with
  | zero => rfl
  | succ n ih => rw [inParens, depth, ih]

theorem writable_inParens (n : Nat) : (inParens n).writable = true := by
  induction n with
  | zero => rfl
  | succ n ih => rw [inParens, writable, ih]

/-- More parentheses than there is room for. -/
theorem parse_inParens {room n : Nat} (h : room < n) :
    parseUnchecked room (printing (inParens n)) = .error .nestedTooDeeply ∧
      parse room (printing (inParens n)) = .ok ⟨[], [⟨.tooDeep, 1, 1⟩]⟩ := by
  have hCanonical := canonical_inParens n
  obtain ⟨found, position, -, hRead⟩ := parse_printing_of_reads (scans_print hCanonical).atEdge
    (atEdge_cons rfl) (reads_canonical hCanonical (writable_inParens n))
  have hDeep : ¬ (inParens n).depth ≤ room := by
    rw [depth_inParens]
    exact Nat.not_le_of_gt h
  have hBoth := hRead room
  rwa [if_neg hDeep, if_neg hDeep] at hBoth

end NoteTemplate.Template
