import Mathlib.Data.List.Nodup
import NoteTemplate.Proofs.Provenance.Nodes
import NoteTemplate.Proofs.Scope.Reach

/-! The check of names against rendering. A name that the check reports stands
for nothing wherever rendering comes to it: the check takes every name to be
assigned that may be, in whichever branch, and rendering has no variable that
was neither given to it nor assigned. -/
namespace NoteTemplate.Validate

open Node Tokens Render

/-- The index of a loop is assigned under a name of its own. -/
theorem assignable_index {iterator : String} (h : Assignable iterator) :
    Assignable (iterator ++ "_index") := by
  rcases h with hMarked | hChars
  · left
    rw [SelectorQuery.isName, Bool.or_eq_true] at hMarked ⊢
    rw [String.toList_append]
    exact hMarked.imp (startsWith_append · _) (startsWith_append · _)
  · right
    obtain ⟨c, rest, hName, hStart, hRest⟩ := Expr.exists_of_isNameText hChars
    rw [String.toList_append, hName, List.cons_append, Expr.isNameText, hStart, Bool.true_and,
      List.all_append, List.all_eq_true.mpr hRest]
    rfl

/-- References to readable names, in scopes of names that can be assigned. -/
structure Proper (result : List Reference × List String) : Prop where
  references : ∀ r ∈ result.1, Readable r.name ∧ ∀ n ∈ r.scope, Assignable n
  scope : ∀ n ∈ result.2, Assignable n

theorem proper_nil {scope : List String} (hScope : ∀ n ∈ scope, Assignable n) :
    Proper ([], scope) :=
  ⟨by simp, hScope⟩

theorem proper_refer {scope : List String} {found : List (String × Place)}
    (hScope : ∀ n ∈ scope, Assignable n) (hFound : ∀ o ∈ found, Readable o.1) :
    Proper (refer scope found, scope) := by
  refine ⟨fun r hMem => ?_, hScope⟩
  obtain ⟨o, hOccurrence, rfl⟩ := List.mem_map.mp hMem
  exact ⟨hFound o hOccurrence, hScope⟩

/-- References one behind the other, with what is assigned last. -/
theorem Proper.append {first second : List Reference} {middle last : List String}
    (hFirst : Proper (first, middle)) (hSecond : Proper (second, last)) :
    Proper (first ++ second, last) :=
  ⟨List.forall_mem_append.mpr ⟨hFirst.references, hSecond.references⟩, hSecond.scope⟩

mutual

/-- The analysis of a part refers to readable names, and adds names that can be
assigned. -/
theorem ofNode_proper : ∀ scope node, (∀ n ∈ scope, Assignable n) →
    All WellNamed Assignable node → Proper (ofNode scope node)
  | scope, .text _ _, hScope, _ => by
      rw [ofNode]
      exact proper_nil hScope
  | scope, .print e _ _, hScope, hAll => by
      rw [ofNode]
      exact proper_refer hScope fun o hMem => hAll o (root?_subset_names e hMem)
  | scope, .assign name e _ _, hScope, hAll => by
      rw [ofNode]
      exact proper_refer (List.forall_mem_cons.mpr ⟨hAll.1, hScope⟩) hAll.2
  | scope, .conditional condition body branches otherwise _ _, hScope, hAll => by
      obtain ⟨hCondition, hBody, hBranches, hOtherwise⟩ := hAll
      rw [ofNode_conditional]
      have hFirst := ofNodes_proper scope body hScope hBody
      have hMiddle := ofBranches_proper _ branches hFirst.scope hBranches
      have hLast := ofOtherwise_proper _ otherwise hMiddle.scope hOtherwise
      exact (((proper_refer hScope hCondition).append hFirst).append hMiddle).append hLast
  | scope, .loop iterator iterable body _ _, hScope, hAll => by
      obtain ⟨hIterator, hIterable, hBody⟩ := hAll
      rw [ofNode_loop]
      have hInner : ∀ n ∈ iterator :: (iterator ++ "_index") :: scope, Assignable n :=
        List.forall_mem_cons.mpr
          ⟨hIterator, List.forall_mem_cons.mpr ⟨assignable_index hIterator, hScope⟩⟩
      have hTurn := ofNodes_proper _ body hInner hBody
      exact ⟨((proper_refer hScope hIterable).append hTurn).references, hScope⟩

/-- The analysis of parts refers to readable names, and adds names that can be assigned.
-/
theorem ofNodes_proper : ∀ scope nodes, (∀ n ∈ scope, Assignable n) →
    AllNodes WellNamed Assignable nodes → Proper (ofNodes scope nodes)
  | scope, [], hScope, _ => by
      rw [ofNodes]
      exact proper_nil hScope
  | scope, node :: rest, hScope, hAll => by
      rw [ofNodes_cons]
      have hFirst := ofNode_proper scope node hScope hAll.1
      exact hFirst.append (ofNodes_proper _ rest hFirst.scope hAll.2)

/-- The analysis of branches refers to readable names, and adds names that can be
assigned. -/
theorem ofBranches_proper : ∀ scope branches, (∀ n ∈ scope, Assignable n) →
    AllBranches WellNamed Assignable branches → Proper (ofBranches scope branches)
  | scope, [], hScope, _ => by
      rw [ofBranches]
      exact proper_nil hScope
  | scope, (condition, body) :: rest, hScope, hAll => by
      obtain ⟨hCondition, hBody, hRest⟩ := hAll
      rw [ofBranches_cons]
      have hFirst := ofNodes_proper scope body hScope hBody
      have hLater := ofBranches_proper _ rest hFirst.scope hRest
      exact ((proper_refer hScope hCondition).append hFirst).append hLater

/-- The analysis of a branch without a condition refers to readable names, and adds
names that can be assigned. -/
theorem ofOtherwise_proper : ∀ scope body, (∀ n ∈ scope, Assignable n) →
    AllOtherwise WellNamed Assignable body → Proper (ofOtherwise scope body)
  | scope, some body, hScope, hAll => by
      rw [ofOtherwise]
      exact ofNodes_proper scope body hScope hAll
  | scope, none, hScope, _ => by
      rw [ofOtherwise]
      exact proper_nil hScope

end

/-- The reference behind a warning. -/
theorem reference_of_warning {nodes : List Node} {known : List String} {w : Warning}
    (h : w ∈ warnings nodes known) : ∃ r ∈ (ofNodes [] nodes).1,
      isKnown (presets ++ known) r.scope r.name = false ∧ r.name = w.name ∧ r.place = w.place := by
  obtain ⟨r, hMem, rfl⟩ := List.mem_map.mp h
  obtain ⟨hReference, hUnknown⟩ := List.mem_filter.mp hMem
  exact ⟨r, hReference, by simpa using hUnknown, rfl, rfl⟩

theorem unbracketed_of_all {name : String}
    (h : name.toList.all (fun c => !(['[', ']', '\x7b', '\x7d'].contains c)) = true) :
    Unbracketed name := by
  intro c hMem
  have hChar := List.all_eq_true.mp h c hMem
  simpa using hChar

theorem unbracketed_presets : ∀ n ∈ presets, Unbracketed n := by
  have hAll : ∀ n ∈ presets,
      n.toList.all (fun c => !(['[', ']', '\x7b', '\x7d'].contains c)) = true := by
    decide +kernel
  exact fun n hMem => unbracketed_of_all (hAll n hMem)

/-- Two uses at one place are the same use when no two names share a place. -/
theorem use_unique {uses : List Reference} (h : (uses.map Reference.place).Nodup)
    {r s : Reference} (hFirst : r ∈ uses) (hSecond : s ∈ uses) (hPlace : r.place = s.place) :
    r = s :=
  List.inj_on_of_nodup_map h hFirst hSecond hPlace

variable {σ : Type}

/-- Let the variables that a rendering begins with be known names or presets,
each as it is or in braces. Wherever the rendering then evaluates a name of
which the check has warned, in any turn of a loop, in any branch and behind any
assignment, the name is the one of the warning and evaluates to null. -/
theorem no_false_alarm {room : Nat} {text : String} {t : Template}
    (hParse : Template.parse room text = .ok t) {known : List String}
    (hKnown : ∀ n ∈ known, Unbracketed n) {context : Context σ}
    {vars : Variables} (hVars : ∀ key ∈ vars.map Prod.fst,
      ∃ n ∈ presets ++ known, key = .text n ∨ key = .text (Value.wrapped n))
    (world : σ) {w : Warning} (hWarned : w ∈ warnings t.nodes known) {name : String}
    {there : Pass σ}
    (hReaches : ReachesIn context t.nodes { vars, world } (.identifier name w.place) there) :
    name = w.name ∧
      (eval context (.identifier name w.place)).on there = (.ok Datum.null, there) := by
  obtain ⟨hNodup, hAll⟩ := Template.parse_body hParse
  have hKeys : KeysWithin (presets ++ known) [] vars := by
    intro key hKey
    obtain ⟨n, hMem, rfl | rfl⟩ := hVars key hKey
    · exact .known hMem
    · exact .wrapped hMem
  have hPlain : ∀ n ∈ presets ++ known, Unbracketed n :=
    List.forall_mem_append.mpr ⟨unbracketed_presets, hKnown⟩
  obtain ⟨r, hReference, hUnknown, hName, hPlace⟩ := reference_of_warning hWarned
  have hNoted : Noted (presets ++ known) (usesOfNodes [] t.nodes) name w.place there.vars :=
    hReaches.noted hKeys
  obtain ⟨s, hUse, rfl, hSamePlace, hThere⟩ := hNoted
  -- The use that rendering came to is the one that the warning is about.
  have hSame : r = s := by
    rw [← places_usesOfNodes [] t.nodes] at hNodup
    exact use_unique hNodup (references_subset_usesOfNodes [] t.nodes hReference) hUse
      (hPlace.trans hSamePlace.symm)
  subst hSame
  have hProper := ofNodes_proper [] t.nodes (by simp) hAll
  obtain ⟨hReadable, hScope⟩ := hProper.references r hReference
  exact ⟨hName, eval_eq_null hThere hPlain hScope hReadable (unknown_of_isKnown hUnknown) w.place⟩

/-- A loop whose body misspells a preset. -/
def rowsText : String := "\x7b% for r in rows %\x7d\x7b\x7bttle\x7d\x7d\x7b% endfor %\x7d"

/-- The tokens of the loop. -/
def rowsTokens : List Token :=
  [⟨.tagStart, "\x7b%", ⟨0, 1, 1⟩, false, false⟩, ⟨.forWord, "for", ⟨3, 1, 4⟩, false, false⟩,
    ⟨.identifier, "r", ⟨7, 1, 8⟩, false, false⟩, ⟨.inWord, "in", ⟨9, 1, 10⟩, false, false⟩,
    ⟨.identifier, "rows", ⟨12, 1, 13⟩, false, false⟩, ⟨.tagEnd, "%\x7d", ⟨17, 1, 18⟩, false, false⟩,
    ⟨.variableStart, "\x7b\x7b", ⟨19, 1, 20⟩, false, false⟩,
    ⟨.identifier, "ttle", ⟨21, 1, 22⟩, false, false⟩,
    ⟨.variableEnd, "\x7d\x7d", ⟨25, 1, 26⟩, false, false⟩,
    ⟨.tagStart, "\x7b%", ⟨27, 1, 28⟩, false, false⟩,
    ⟨.endforWord, "endfor", ⟨30, 1, 31⟩, false, false⟩,
    ⟨.tagEnd, "%\x7d", ⟨37, 1, 38⟩, false, false⟩, ⟨.endOfText, "", ⟨39, 1, 40⟩, false, false⟩]

/-- The loop as it is read. -/
def rowsNodes : List Node :=
  [.loop "r" (.identifier "rows" ⟨1, 13⟩)
    [.print (.identifier "ttle" ⟨1, 22⟩) ⟨false, false⟩ ⟨1, 20⟩] ⟨false, false⟩ ⟨1, 1⟩]

theorem parse_rowsText : Template.parse Template.usualRoom rowsText = .ok ⟨rowsNodes, []⟩ := by
  have hScan : Token.scan rowsText = .ok rowsTokens := by decide +kernel
  have hBlocks : (BlockMap.ofTokens rowsTokens).blocks =
      [⟨.loop, 0, ⟨.forWord, "for", ⟨3, 1, 4⟩, false, false⟩, [], some 9⟩] := by decide +kernel
  have hIssues : (BlockMap.ofTokens rowsTokens).issues = [] := by decide +kernel
  have hMap : BlockMap.ofTokens rowsTokens =
      ⟨[⟨.loop, 0, ⟨.forWord, "for", ⟨3, 1, 4⟩, false, false⟩, [], some 9⟩], []⟩ := by
    rw [← hBlocks, ← hIssues]
  rw [Template.parse_of_scan hScan, hMap]
  rfl

/-- Two rows under a name in braces. -/
def rowsVars : Variables := [(.text "\x7b\x7brows\x7d\x7d", .plain (.arr [.str "a", .str "b"]))]

/-- The variables of the second turn. -/
def secondTurn : Variables := bind rowsVars (bindings "r" (.str "b") 1 2)

theorem no_false_alarm_second_turn :
    warnings rowsNodes ["rows"] = [⟨"ttle", nearest "ttle" (presets ++ ["rows"]), ⟨1, 22⟩⟩] ∧
      ReachesIn {} rowsNodes { vars := rowsVars, world := () } (.identifier "ttle" ⟨1, 22⟩)
        { vars := secondTurn, world := () } ∧
      (eval {} (.identifier "ttle" ⟨1, 22⟩)).on { vars := secondTurn, world := () } =
        (.ok Datum.null, { vars := secondTurn, world := () }) := by
  have hWarnings : warnings rowsNodes ["rows"] =
      [⟨"ttle", nearest "ttle" (presets ++ ["rows"]), ⟨1, 22⟩⟩] := by rfl
  have hItems : [Value.str "a", .str "b"] = [.str "a"] ++ .str "b" :: [] := rfl
  have hBody (node : Node) : [node] = [] ++ node :: [] := rfl
  have hReaches : ReachesIn {} rowsNodes { vars := rowsVars, world := () }
      (.identifier "ttle" ⟨1, 22⟩) { vars := secondTurn, world := () } := by
    refine ⟨[], _, [], "", { vars := rowsVars, world := () }, rfl, rfl, ?_⟩
    exact .turn rfl hItems rfl (hBody _) rfl (.print rfl (.here _ _))
  have hKnown : ∀ n ∈ ["rows"], Unbracketed n :=
    List.forall_mem_singleton.mpr (unbracketed_of_all (by decide +kernel))
  have hVars : ∀ key ∈ rowsVars.map Prod.fst,
      ∃ n ∈ presets ++ ["rows"], key = .text n ∨ key = .text (Value.wrapped n) := by
    intro key hKey
    rw [List.mem_singleton.mp hKey]
    exact ⟨"rows", by decide, .inr rfl⟩
  have hWarned : ⟨"ttle", nearest "ttle" (presets ++ ["rows"]), ⟨1, 22⟩⟩ ∈
      warnings rowsNodes ["rows"] := by
    rw [hWarnings]
    exact List.mem_singleton_self _
  exact ⟨hWarnings, hReaches,
    (no_false_alarm parse_rowsText hKnown hVars () hWarned hReaches).2⟩

end NoteTemplate.Validate
