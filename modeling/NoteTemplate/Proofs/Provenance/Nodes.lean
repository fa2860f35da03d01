import Mathlib.Data.List.Perm.Subperm
import NoteTemplate.Proofs.Provenance.Derivation

/-! Where the names of a template come from. A reader goes from one place in
the list of tokens to another one behind it, and the names of what it reads
stand at tokens between the two. When nothing is wrong with a template, the
bodies of a block follow one another, so that no two names share a token. -/
namespace NoteTemplate

/-- The parts in a list of parts. -/
theorem Node.allNodes_iff {P : Expr → Prop} {Q : String → Prop} {nodes : List Node} :
    AllNodes P Q nodes ↔ ∀ node ∈ nodes, All P Q node := by
  induction nodes with
  | nil => simp [AllNodes]
  | cons node rest ih => rw [AllNodes, ih, List.forall_mem_cons]

theorem Node.placesOfNodes_eq_flatMap (nodes : List Node) :
    placesOfNodes nodes = nodes.flatMap places := by
  induction nodes with
  | nil => rfl
  | cons node rest ih => rw [placesOfNodes, ih, List.flatMap_cons]

theorem Node.placesOfNodes_append (first second : List Node) :
    placesOfNodes (first ++ second) = placesOfNodes first ++ placesOfNodes second := by
  simp only [placesOfNodes_eq_flatMap, List.flatMap_append]

namespace Tokens

variable {A : Expr → Prop} {ts rest : List Token}

theorem Took.subset {left places : List Place} (h : Took left ts rest places) : rest ⊆ ts := by
  obtain ⟨consumed, rfl, -⟩ := h
  exact List.subset_append_right consumed rest

/-- Sound tokens from which no expression is read but such as is to be read. -/
structure Legible (A : Expr → Prop) (ts : List Token) : Prop where
  sound : AllSound ts
  read {room : Nat} {behind rest : List Token} {e : Expr} (hTokens : behind ⊆ ts)
    (h : readExpr room behind = .ok (some e, rest)) : A e

theorem Legible.sub (h : Legible A ts) (hTokens : rest ⊆ ts) : Legible A rest :=
  ⟨fun t hMem => h.sound t (hTokens hMem), fun hBehind =>
    h.read (List.Subset.trans hBehind hTokens)⟩

theorem Legible.took {left places : List Place} (h : Legible A ts)
    (hTook : Took left ts rest places) : Legible A rest :=
  h.sub hTook.subset

theorem Legible.advance (h : Legible A ts) : Legible A (advance ts) :=
  h.took (Took.advance [] ts)

end Tokens

namespace Node

open Tokens

variable {A : Expr → Prop}

section Trimming

variable {α : Type} {f : Node → List α}

theorem mapText_cases (cut : List Char → List Char) (node : Node) :
    mapText cut node = node ∨ ∃ s place, mapText cut node = .text s place := by
  cases node with
  | text s place => exact .inr ⟨_, _, rfl⟩
  | _ => exact .inl rfl

theorem exists_text_of_isEmptyText {node : Node} (h : isEmptyText node = true) :
    ∃ s place, node = .text s place := by
  cases node with
  | text s place => exact ⟨s, place, rfl⟩
  | _ => cases h

theorem flatMap_mapText (hText : ∀ s place, f (.text s place) = []) (cut : List Char → List Char)
    (node : Node) : f (mapText cut node) = f node := by
  cases node with
  | text s place => rw [mapText, hText, hText]
  | _ => rfl

theorem flatMap_mapHead (hText : ∀ s place, f (.text s place) = []) (cut : List Char → List Char)
    (nodes : List Node) : (mapHead (mapText cut) nodes).flatMap f = nodes.flatMap f := by
  cases nodes with
  | nil => rfl
  | cons node rest =>
      rw [mapHead, List.flatMap_cons, List.flatMap_cons, flatMap_mapText hText]

theorem flatMap_mapLast (hText : ∀ s place, f (.text s place) = []) (cut : List Char → List Char)
    (nodes : List Node) : (mapLast (mapText cut) nodes).flatMap f = nodes.flatMap f := by
  induction nodes with
  | nil => rfl
  | cons node rest ih =>
      cases rest with
      | nil => exact flatMap_mapHead hText cut [node]
      | cons next rest =>
          rw [mapLast, List.flatMap_cons, ih]
          exact List.flatMap_cons.symm

theorem flatMap_filter (hText : ∀ s place, f (.text s place) = []) (nodes : List Node) :
    (nodes.filter fun node => !isEmptyText node).flatMap f = nodes.flatMap f := by
  induction nodes with
  | nil => rfl
  | cons node rest ih =>
      rw [List.filter_cons, List.flatMap_cons]
      split
      · rw [List.flatMap_cons, ih]
      · next hEmpty =>
        have hBare : isEmptyText node = true := by simpa using hEmpty
        obtain ⟨s, place, rfl⟩ := exists_text_of_isEmptyText hBare
        rw [ih, hText, List.nil_append]

/-- Trimming a body changes and drops texts only, so that whatever is collected from its
other parts stays. -/
theorem flatMap_trimBody (hText : ∀ s place, f (.text s place) = []) (head next : Token)
    (nodes : List Node) : (trimBody head next nodes).flatMap f = nodes.flatMap f := by
  have hHead : (if head.trimRight then mapHead (mapText Text.cutMarginStart) nodes
      else nodes).flatMap f = nodes.flatMap f := by
    split
    · exact flatMap_mapHead hText _ nodes
    · rfl
  simp only [trimBody]
  rw [flatMap_filter hText]
  split
  · rw [flatMap_mapLast hText, hHead]
  · exact hHead

theorem mem_mapHead {cut : List Char → List Char} {nodes : List Node} {node : Node}
    (h : node ∈ mapHead (mapText cut) nodes) : node ∈ nodes ∨ ∃ s place, node = .text s place := by
  cases nodes with
  | nil => cases h
  | cons first rest =>
      rcases List.mem_cons.mp h with rfl | hRest
      · exact (mapText_cases cut first).imp_left fun hSame => by
          rw [hSame]
          exact List.mem_cons_self
      · exact .inl (List.mem_cons_of_mem first hRest)

theorem mem_mapLast {cut : List Char → List Char} {nodes : List Node} {node : Node}
    (h : node ∈ mapLast (mapText cut) nodes) : node ∈ nodes ∨ ∃ s place, node = .text s place := by
  induction nodes with
  | nil => cases h
  | cons first rest ih =>
      cases rest with
      | nil => exact @mem_mapHead cut [first] node h
      | cons next rest =>
          rcases List.mem_cons.mp h with rfl | hRest
          · exact .inl List.mem_cons_self
          · exact (ih hRest).imp_left (List.mem_cons_of_mem first)

/-- A trimmed body has no parts but those of the body, and texts. -/
theorem mem_trimBody {head next : Token} {nodes : List Node} {node : Node}
    (h : node ∈ trimBody head next nodes) : node ∈ nodes ∨ ∃ s place, node = .text s place := by
  have hHead {first : Node} (hFirst : first ∈ (if head.trimRight then
      mapHead (mapText Text.cutMarginStart) nodes else nodes)) :
      first ∈ nodes ∨ ∃ s place, first = .text s place := by
    split at hFirst
    · exact mem_mapHead hFirst
    · exact .inl hFirst
  simp only [trimBody] at h
  obtain ⟨hMem, -⟩ := List.mem_filter.mp h
  split at hMem
  · exact (mem_mapLast hMem).elim hHead .inr
  · exact hHead hMem

end Trimming

variable {source : Source} {start middle last : Nat} {places more : List Place}

/-- The tokens from one place in the list of tokens to another. -/
def Source.segment (source : Source) (start last : Nat) : List Token :=
  (source.tokens.drop start).take (last - start)

/-- Places of tokens between two places in the list of tokens, none of them more
often than there. -/
def Spans (source : Source) (start last : Nat) (places : List Place) : Prop :=
  start ≤ last ∧ last ≤ source.tokens.length ∧
    places.Subperm ((source.segment start last).map Token.place)

theorem segment_append (hFirst : start ≤ middle) (hSecond : middle ≤ last) :
    source.segment start middle ++ source.segment middle last = source.segment start last := by
  have hLength : last - start = (middle - start) + (last - middle) := by omega
  have hMiddle : start + (middle - start) = middle := by omega
  rw [Source.segment, Source.segment, Source.segment, hLength, List.take_add, List.drop_drop,
    hMiddle]

theorem spans_refl (hStart : start ≤ source.tokens.length) : Spans source start start [] :=
  ⟨Nat.le_refl start, hStart, (List.nil_sublist _).subperm⟩

theorem Spans.append (hFirst : Spans source start middle places)
    (hSecond : Spans source middle last more) : Spans source start last (places ++ more) := by
  refine ⟨Nat.le_trans hFirst.1 hSecond.1, hSecond.2.1, ?_⟩
  rw [← segment_append hFirst.1 hSecond.1, List.map_append]
  exact hFirst.2.2.append hSecond.2.2

theorem Spans.sub {fewer : List Place} (h : Spans source start last places)
    (hFewer : fewer.Subperm places) : Spans source start last fewer :=
  ⟨h.1, h.2.1, hFewer.trans h.2.2⟩

/-- What a reader of tokens takes, it takes from the place where it begins to
the place where its rest begins. -/
theorem spans_of_took {rest : List Token} (hStart : start ≤ source.tokens.length)
    (h : Took [] (source.tokensFrom start) rest places) :
    Spans source start (source.positionOf rest) places ∧
      source.tokensFrom (source.positionOf rest) = rest := by
  obtain ⟨consumed, hTokens, hPlaces⟩ := h
  have hLength := congrArg List.length hTokens
  rw [Source.tokensFrom, List.length_drop, List.length_append] at hLength
  have hPosition : source.positionOf rest = start + consumed.length := by
    rw [Source.positionOf]
    omega
  rw [Source.tokensFrom] at hTokens
  refine ⟨⟨by omega, by omega, ?_⟩, ?_⟩
  · rw [Source.segment, hPosition, hTokens, Nat.add_sub_cancel_left, List.take_left]
    rw [List.nil_append] at hPlaces
    exact hPlaces.subperm
  · rw [Source.tokensFrom, hPosition, ← List.drop_drop, hTokens, List.drop_left]

/-- A part that was read, if any was, with its names between two places. -/
structure Placed (A : Expr → Prop) (source : Source) (start last : Nat) (nodes : List Node) : Prop where
  spans : Spans source start last (placesOfNodes nodes)
  all : AllNodes A Assignable nodes

theorem Placed.nothing {nodes : List Node} (h : Spans source start last [])
    (hNodes : nodes = []) : Placed A source start last nodes := by
  subst hNodes
  exact ⟨h, trivial⟩

theorem placed_single {node : Node} (h : Spans source start last node.places)
    (hAll : All A Assignable node) : Placed A source start last [node] := by
  refine ⟨?_, ⟨hAll, trivial⟩⟩
  rwa [placesOfNodes, placesOfNodes, List.append_nil]

/-- Parts in a row stand in a row of places. -/
theorem Placed.append {first second : List Node} (hFirst : Placed A source start middle first)
    (hSecond : Placed A source middle last second) : Placed A source start last (first ++ second) := by
  refine ⟨?_, ?_⟩
  · rw [placesOfNodes_append]
    exact hFirst.spans.append hSecond.spans
  · rw [allNodes_iff]
    exact List.forall_mem_append.mpr
      ⟨allNodes_iff.mp hFirst.all, allNodes_iff.mp hSecond.all⟩

theorem Placed.trimBody {nodes : List Node} (h : Placed A source start last nodes)
    (head next : Token) : Placed A source start last (trimBody head next nodes) := by
  refine ⟨?_, allNodes_iff.mpr fun node hMem => ?_⟩
  · rw [placesOfNodes_eq_flatMap, flatMap_trimBody (fun _ _ => rfl), ← placesOfNodes_eq_flatMap]
    exact h.spans
  · rcases mem_trimBody hMem with hBody | ⟨s, place, rfl⟩
    · exact allNodes_iff.mp h.all node hBody
    · trivial

/-- An expression and the end of the construct behind it. -/
theorem took_of_closed {ts behind final : List Token} {kind : Token.Kind} {mistake : Mistake}
    {e : Expr} {t : Token} {room : Nat} (hLegible : Legible A ts)
    (hExpr : readExpr room ts = .ok (some e, behind))
    (hEnd : expectEnd kind mistake behind = .ok (t, final)) :
    Took [] ts final e.places ∧ A e :=
  ⟨(took_of_readExpr hExpr).trans (took_of_expectEnd _ hEnd),
    hLegible.read (List.Subset.refl _) hExpr⟩

/-- A name behind the word of a tag, and the word or mark behind the name. -/
theorem took_of_target {ts : List Token} (hLegible : Legible A ts)
    (h : ¬ (!at? (advance (advance ts)) .identifier) = true) :
    Took [] ts (advance (advance (advance (advance ts)))) [] ∧
      Assignable (current (advance (advance ts))).value := by
  have hName : Took [] ts (advance (advance ts)) [] :=
    (Took.advance [] ts).trans (Took.advance [] (advance ts))
  have hKind : (current (advance (advance ts))).kind = .identifier := by simpa [at?] using h
  have hTarget := ((hName.sound hLegible.sound).current hKind (by decide)).name rfl
  exact ⟨(hName.trans (Took.advance [] _)).trans (Took.advance [] _), hTarget.2⟩

/-- An expression to print takes the places of its names, which are as they are to be.
-/
theorem took_of_readVariable {room : Nat} {ts rest : List Token} {node : Node}
    (hLegible : Legible A ts) (h : readVariable room ts = .ok (node, rest)) :
    Took [] ts rest node.places ∧ All A Assignable node := by
  rw [readVariable] at h
  dsimp only at h
  split at h
  · cases h
  · obtain ⟨⟨found, behind⟩, hExpr, hRest⟩ := of_bind_ok h
    cases found with
    | none =>
        dsimp only at hRest
        split at hRest <;> cases hRest
    | some e =>
        dsimp only at hRest
        split at hRest
        · cases hRest
        · obtain ⟨⟨t, final⟩, hEnd, hRest⟩ := of_bind_ok hRest
          cases hRest
          obtain ⟨hTook, hNamed⟩ := took_of_closed hLegible.advance hExpr hEnd
          exact ⟨(Took.advance [] ts).trans hTook, hNamed⟩

/-- An assignment takes the places of the names in its value. The name that it sets is
no use of a name. -/
theorem took_of_readAssign {room : Nat} {ts rest : List Token} {node : Node}
    (hLegible : Legible A ts) (h : readAssign room ts = .ok (node, rest)) :
    Took [] ts rest node.places ∧ All A Assignable node := by
  rw [readAssign] at h
  dsimp only at h
  split at h
  · cases h
  · next hIdentifier =>
    split at h
    · cases h
    · obtain ⟨hBefore, hTarget⟩ := took_of_target hLegible hIdentifier
      obtain ⟨⟨found, behind⟩, hExpr, hRest⟩ := of_bind_ok h
      cases found with
      | none => cases hRest
      | some e =>
          obtain ⟨⟨t, final⟩, hEnd, hRest⟩ := of_bind_ok hRest
          cases hRest
          obtain ⟨hTook, hNamed⟩ := took_of_closed (hLegible.took hBefore) hExpr hEnd
          exact ⟨hBefore.trans hTook, hTarget, hNamed⟩

/-- A condition takes the places of its names. -/
theorem took_of_readCondition {room : Nat} {word : String} {blame : Token} {ts rest : List Token}
    {condition : Expr} {close : Token} (hLegible : Legible A ts)
    (h : readCondition room word blame ts = .ok ((condition, close), rest)) :
    Took [] ts rest condition.places ∧ A condition := by
  rw [readCondition] at h
  obtain ⟨⟨found, behind⟩, hExpr, hRest⟩ := of_bind_ok h
  cases found with
  | none => cases hRest
  | some e =>
      obtain ⟨⟨t, final⟩, hEnd, hRest⟩ := of_bind_ok hRest
      cases hRest
      exact took_of_closed hLegible hExpr hEnd

/-- The head of a loop takes the places of the names in what it runs over. -/
theorem took_of_readLoopHead {room : Nat} {ts rest : List Token} {head : LoopHead}
    (hLegible : Legible A ts) (h : readLoopHead room ts = .ok (head, rest)) :
    Took [] ts rest head.iterable.places ∧ Assignable head.iterator ∧ A head.iterable := by
  rw [readLoopHead] at h
  dsimp only at h
  split at h
  · cases h
  · next hIdentifier =>
    split at h
    · cases h
    · obtain ⟨hBefore, hTarget⟩ := took_of_target hLegible hIdentifier
      obtain ⟨⟨found, behind⟩, hExpr, hRest⟩ := of_bind_ok h
      cases found with
      | none => cases hRest
      | some e =>
          obtain ⟨⟨t, final⟩, hEnd, hRest⟩ := of_bind_ok hRest
          cases hRest
          obtain ⟨hTook, hNamed⟩ := took_of_closed (hLegible.took hBefore) hExpr hEnd
          exact ⟨hBefore.trans hTook, hTarget, hNamed⟩

theorem took_of_readClosingTag {word : String} {close : Nat} {t : Token} {rest : List Token}
    (h : readClosingTag source word close = .ok (t, rest)) :
    Took [] (source.tokensFrom close) rest [] := by
  rw [readClosingTag] at h
  exact ((Took.advance [] _).trans (Took.advance [] _)).trans (took_of_expectEnd [] h)

/-- A text has no names. -/
theorem placed_ofText (h : Spans source start last []) (previous : Option Token) (token : Token) :
    Placed A source start last (ofText previous token).toList := by
  have hCases : ofText previous token = none ∨
      ∃ s, ofText previous token = some (.text s token.place) := by
    unfold ofText
    extract_lets text kept
    split
    · exact .inl rfl
    · exact .inr ⟨_, rfl⟩
  rcases hCases with hNone | ⟨s, hText⟩
  · exact .nothing h (by rw [hNone]; rfl)
  · rw [hText]
    exact placed_single h trivial

/-- The places of the names in the branches of a condition. -/
def Branches.allPlaces (found : Branches) : List Place :=
  placesOfBranches found.branches ++ placesOfOtherwise found.otherwise

/-- The branches of a condition as they are to be. -/
def Branches.Named (A : Expr → Prop) (found : Branches) : Prop :=
  AllBranches A Assignable found.branches ∧
    AllOtherwise A Assignable found.otherwise

theorem placesOfBranches_append (first second : List (Expr × List Node)) :
    placesOfBranches (first ++ second) = placesOfBranches first ++ placesOfBranches second := by
  induction first with
  | nil => rfl
  | cons branch rest ih =>
      rw [List.cons_append, placesOfBranches, ih, placesOfBranches, List.append_assoc _ _
        (placesOfBranches second)]

theorem allBranches_append {first second : List (Expr × List Node)}
    (hFirst : AllBranches A Assignable first)
    (hSecond : AllBranches A Assignable second) :
    AllBranches A Assignable (first ++ second) := by
  induction first with
  | nil => exact hSecond
  | cons branch rest ih => exact ⟨hFirst.1, hFirst.2.1, ih hFirst.2.2⟩

/-- The names of what was read stand at tokens of the passage. An earlier branch
without a condition may have given way to a later one. -/
def Passage.Located (A : Expr → Prop) (source : Source) : Passage → Prop
  | .nodes start last parts => Placed A source start last parts
  | .node start last part => Placed A source start last part.toList
  | .branches start last _ found result => ∃ more, Spans source start last more ∧
      result.allPlaces.Subperm (found.allPlaces ++ more) ∧ (found.Named A → result.Named A)

/-- One more branch with a condition, although it comes to stand in front of the
branch without one. -/
theorem subperm_of_branch (found : Branches) (condition : Expr) (nodes : List Node) :
    (Branches.allPlaces { found with
      branches := found.branches ++ [(condition, nodes)] }).Subperm
      (found.allPlaces ++ (condition.places ++ placesOfNodes nodes)) := by
  have hBranch : placesOfBranches [(condition, nodes)] = condition.places ++ placesOfNodes nodes := by
    rw [placesOfBranches, placesOfBranches, List.append_nil]
  rw [Branches.allPlaces, Branches.allPlaces, placesOfBranches_append, hBranch,
    List.append_assoc (placesOfBranches found.branches),
    List.append_assoc (placesOfBranches found.branches)]
  exact (List.perm_append_comm.append_left _).subperm

/-- A branch without a condition, in place of an earlier one. -/
theorem subperm_of_otherwise (found : Branches) (nodes : List Node) :
    (Branches.allPlaces { found with otherwise := some nodes }).Subperm
      (found.allPlaces ++ ([] ++ placesOfNodes nodes)) := by
  rw [Branches.allPlaces, Branches.allPlaces, placesOfOtherwise, List.nil_append]
  exact ((List.sublist_append_left _ _).append_right _).subperm

/-- A branch that was read, and what is read behind it. -/
theorem located_branch {tags : List Nat} {stop : Nat} {found next result : Branches}
    {nodes : List Node} (hHead : Spans source start middle places)
    (hBody : Placed A source middle stop nodes)
    (hLater : Passage.Located A source (.branches stop last tags next result))
    (hNext : next.allPlaces.Subperm (found.allPlaces ++ (places ++ placesOfNodes nodes)))
    (hNamed : found.Named A → next.Named A) (tag : Nat) :
    Passage.Located A source (.branches start last (tag :: tags) found result) := by
  obtain ⟨more, hMore, hPlaces, hResult⟩ := hLater
  refine ⟨(places ++ placesOfNodes nodes) ++ more, (hHead.append hBody.spans).append hMore, ?_,
    fun hFound => hResult (hNamed hFound)⟩
  rw [← List.append_assoc]
  exact hPlaces.trans (hNext.append (List.Subperm.refl more))

/-- By induction on how it was read: whatever is read without a mistake has its
names where it was read. -/
theorem Derives.located {passage : Passage} (h : Derives source passage)
    (hLegible : Legible A source.tokens) (hStart : passage.start ≤ source.tokens.length) :
    passage.Located A source := by
  have hTokens (i : Nat) : Legible A (source.tokensFrom i) := hLegible.sub (List.drop_subset _ _)
  have hKeyword (i : Nat) :
      Took [] (source.tokensFrom i) (advance (advance (source.tokensFrom i))) [] :=
    (Took.advance [] _).trans (Took.advance [] _)
  induction h with
  | done | nothing => exact Placed.nothing (spans_refl hStart) rfl
  | next _ _ ihFirst ihRest =>
      have hFirst := ihFirst hStart
      exact hFirst.append (ihRest hFirst.spans.2.1)
  | text previous _ => exact placed_ofText (spans_of_took hStart (Took.advance [] _)).1 _ _
  | print _ hRead =>
      obtain ⟨hTook, hAll⟩ := took_of_readVariable (hTokens _) hRead
      exact placed_single (spans_of_took hStart hTook).1 hAll
  | assign _ _ hRead =>
      obtain ⟨hTook, hAll⟩ := took_of_readAssign (hTokens _) hRead
      exact placed_single (spans_of_took hStart hTook).1 hAll
  | @conditional start stop last _ _ close _ _ _ _ _ _ _ _ _ hHead _ _ hShut ihBody ihBranches =>
      obtain ⟨hTook, hNamed⟩ := took_of_readCondition ((hTokens start).took (hKeyword start)) hHead
      have hSpans := (spans_of_took hStart ((hKeyword start).trans hTook)).1
      have hInner := (ihBody hSpans.2.1).trimBody close (current (source.tokensFrom stop))
      obtain ⟨places, hLater, hPlaces, hResult⟩ := ihBranches hInner.spans.2.1
      have hEnd := (spans_of_took hLater.2.1 (took_of_readClosingTag hShut)).1
      have hAll := ((hSpans.append hInner.spans).append hLater).append hEnd
      rw [List.append_nil] at hAll
      obtain ⟨hAllBranches, hAllOtherwise⟩ := hResult ⟨trivial, trivial⟩
      refine placed_single (hAll.sub ?_) ⟨hNamed, hInner.all, hAllBranches, hAllOtherwise⟩
      rw [Node.places, List.append_assoc]
      exact (List.Subperm.refl _).append hPlaces
  | @loop start last _ head _ _ _ _ _ _ _ _ hHead _ hShut ihBody =>
      obtain ⟨hTook, hIterator, hIterable⟩ := took_of_readLoopHead (hTokens start) hHead
      have hSpans := (spans_of_took hStart hTook).1
      have hInner := (ihBody hSpans.2.1).trimBody head.close (current (source.tokensFrom last))
      have hEnd := (spans_of_took hInner.spans.2.1 (took_of_readClosingTag hShut)).1
      have hAll := (hSpans.append hInner.spans).append hEnd
      rw [List.append_nil] at hAll
      exact placed_single hAll ⟨hIterator, hIterable, hInner.all⟩
  | noBranch last found => exact ⟨[], spans_refl hStart, by rw [List.append_nil], id⟩
  | @branch tag next _ _ found _ condition close _ _ _ hHead _ _ ihBody ihLater =>
      obtain ⟨hTook, hNamed⟩ := took_of_readCondition ((hTokens tag).took (hKeyword tag)) hHead
      have hSpans := (spans_of_took hStart ((hKeyword tag).trans hTook)).1
      have hInner := (ihBody hSpans.2.1).trimBody close (current (source.tokensFrom next))
      refine located_branch hSpans hInner (ihLater hInner.spans.2.1)
        (subperm_of_branch found condition _) (fun hFound => ?_) tag
      exact ⟨allBranches_append hFound.1 ⟨hNamed, hInner.all, trivial⟩, hFound.2⟩
  | @otherwise tag next _ _ found _ close _ _ _ hHead _ _ ihBody ihLater =>
      have hSpans := (spans_of_took hStart ((hKeyword tag).trans (took_of_expectEnd [] hHead))).1
      have hInner := (ihBody hSpans.2.1).trimBody close (current (source.tokensFrom next))
      exact located_branch hSpans hInner (ihLater hInner.spans.2.1) (subperm_of_otherwise found _)
        (fun hFound => ⟨hFound.1, hInner.all⟩) tag

/-- No two names of a list of tokens read without a mistake stand at one place,
names are as they may be in front of assignments and expressions as they are to
be read. -/
theorem body_of_ofTokens {room : Nat} {position : Position} {tokens : List Token}
    {blocks : BlockMap} {parsed : Parsed (List Node)} (hScanned : Token.Scanned position tokens)
    (hLegible : Legible A tokens) (h : ofTokens room tokens blocks = .ok parsed)
    (hErrors : parsed.errors = []) :
    (placesOfNodes parsed.result).Nodup ∧ AllNodes A Assignable parsed.result := by
  let source : Source := ⟨tokens, blocks, room⟩
  have hDerives : Derives source _ := derives_of_ofTokens h hErrors
  obtain ⟨hSpans, hAll⟩ := hDerives.located hLegible (Nat.zero_le _)
  obtain ⟨taken, hPerm, hTaken⟩ := hSpans.2.2
  have hSegment : (source.segment 0 parsed.position).Sublist tokens :=
    (List.take_sublist _ _).trans (List.drop_sublist _ _)
  have hNodup := hScanned.nodup_places.sublist (hTaken.trans (hSegment.map Token.place))
  exact ⟨hPerm.nodup_iff.mp hNodup, hAll⟩

end Node

namespace Template

open Node Tokens

variable {A : Expr → Prop} {room : Nat} {text : String} {t : Template}

/-- In a template without mistakes no two names stand at one place, names are as
they may be in front of assignments and expressions as all are that are read from
its tokens. -/
theorem parse_read (h : parse room text = .ok t)
    (hRead : ∀ tokens, Token.scan text = .ok tokens → Legible A tokens) :
    (placesOfNodes t.nodes).Nodup ∧ AllNodes A Assignable t.nodes := by
  have hNothing : (placesOfNodes []).Nodup ∧ AllNodes A Assignable [] :=
    ⟨List.nodup_nil, trivial⟩
  rw [parse] at h
  obtain ⟨tokens, hScan, h⟩ := of_bind_ok h
  have hScanned := Token.scan_scanned hScan
  dsimp only at h
  split at h
  · rw [ofTokens, ofParsed.eq_def] at h
    split at h
    · next parsed hParsed =>
      cases h
      split
      · next hErrors =>
        exact body_of_ofTokens hScanned (hRead tokens hScan) hParsed (List.isEmpty_iff.mp hErrors)
      · exact hNothing
    · cases h
      exact hNothing
    · cases h
  · cases h
    exact hNothing

/-- In a template without mistakes no two names stand at one place, names are
as they may be in expressions and in front of assignments. -/
theorem parse_body (h : parse room text = .ok t) :
    (placesOfNodes t.nodes).Nodup ∧ AllNodes WellNamed Assignable t.nodes := by
  refine parse_read h fun tokens hScan => ?_
  have hSound : AllSound tokens := (Token.scan_scanned hScan).sound
  exact ⟨hSound, fun hTokens => wellNamed_of_readExpr fun t hMem => hSound t (hTokens hMem)⟩

/-- All names in a template without mistakes are written with its tokens. -/
theorem parse_spelled {P W Q : String → Prop} (h : parse room text = .ok t)
    (hSpelling : ∀ tokens, Token.scan text = .ok tokens → Spelling tokens P W)
    (hAssignable : ∀ name, Assignable name → Q name) :
    AllNodes (Expr.Spelled P W) Q t.nodes := by
  refine (parse_read h fun tokens hScan => ?_).2.imp (fun _ => id) hAssignable
  exact ⟨(Token.scan_scanned hScan).sound, fun hTokens hExpr =>
    spelled_of_readExpr (hSpelling tokens hScan) hTokens hExpr⟩

end Template

end NoteTemplate
