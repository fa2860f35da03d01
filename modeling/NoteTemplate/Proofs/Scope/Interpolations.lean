import Mathlib
import NoteTemplate.Proofs.RoundTrip.Canonical
import NoteTemplate.Proofs.Scope.Use
import NoteTemplate.Template

/-! The check of a printed expression beside the check of the same expression as a
condition. A condition is looked through as a whole. Of a printed expression the
check looks at the name at its root only. -/
namespace NoteTemplate.Validate

/-- The names that a warning is about. -/
def warned (nodes : List Node) (known : List String) : List String :=
  (warnings nodes known).map Warning.name

/-- The names that an expression uses outside of the arguments of its filters. -/
def usedNames (e : Expr) : List String := (names e).map Prod.fst

/-- The name at the root of an expression without its place. -/
def rootName? (e : Expr) : Option String := (root? e).map Prod.fst

/-- A name that nothing tells the check of, outside of loops and assignments. -/
def IsUnknown (known : List String) (name : String) : Prop :=
  isKnown (presets ++ known) [] name = false

instance (known : List String) (name : String) : Decidable (IsUnknown known name) :=
  inferInstanceAs (Decidable (_ = _))

/-- The names of an expression do not depend on where it stands. -/
theorem usedNames_unplaced (e : Expr) : usedNames e.unplaced = usedNames e := by
  simp only [usedNames]
  induction e using names.induct with
  | case1 name place => rw [Expr.unplaced, names, names, List.map_singleton, List.map_singleton]
  | case2 value name args separators parenthesized place ih => rw [Expr.unplaced, names, names, ih]
  | case3 operator left right place ihLeft ihRight =>
      rw [Expr.unplaced, names, names, List.map_append, List.map_append, ihLeft, ihRight]
  | case4 e place ih => rw [Expr.unplaced, names, names, ih]
  | case5 object name place ih => rw [Expr.unplaced, names, names, ih]
  | case6 object key place ihObject ihKey =>
      rw [Expr.unplaced, names, names, List.map_append, List.map_append, ihObject, ihKey]
  | case7 inner place ih => rw [Expr.unplaced, names, names, ih]
  | case8 l place => rw [Expr.unplaced, names, names]

theorem rootName?_mem {e : Expr} {name : String} (h : rootName? e = some name) : name ∈ usedNames e := by
  obtain ⟨found, hRoot, rfl⟩ := Option.map_eq_some_iff.mp h
  exact List.mem_map_of_mem (root?_subset_names e (Option.mem_toList.mpr hRoot))

/-- Of names that are referred to, the unknown ones are warned about. -/
theorem mem_warned_iff {nodes : List Node} {found : List (String × Place)}
    (h : (ofNodes [] nodes).1 = refer [] found) (known : List String) (name : String) :
    name ∈ warned nodes known ↔ name ∈ found.map Prod.fst ∧ IsUnknown known name := by
  simp only [warned, warnings, h, refer, List.filter_map, List.map_map, List.mem_map, List.mem_filter,
    IsUnknown]
  constructor
  · rintro ⟨o, ⟨hMem, hUnknown⟩, rfl⟩
    exact ⟨⟨o, hMem, rfl⟩, by simpa using hUnknown⟩
  · rintro ⟨⟨o, hMem, rfl⟩, hUnknown⟩
    exact ⟨o, ⟨hMem, by simpa using hUnknown⟩, rfl⟩

section
variable (e : Expr) (known : List String) (trim : Trim) (place : Place) (name : String)

theorem mem_warned_print : name ∈ warned [.print e trim place] known ↔
    rootName? e = some name ∧ IsUnknown known name := by
  have hFound : (ofNodes [] [.print e trim place]).1 = refer [] (root? e).toList := by
    rw [ofNodes_cons, ofNode, ofNodes, List.append_nil]
  rw [mem_warned_iff hFound, rootName?]
  cases root? e <;> simp [eq_comm]

theorem mem_warned_conditional : name ∈ warned [.conditional e [] [] none trim place] known ↔
    name ∈ usedNames e ∧ IsUnknown known name := by
  have hFound : (ofNodes [] [.conditional e [] [] none trim place]).1 = refer [] (names e) := by
    rw [ofNodes_cons, ofNode_conditional]
    simp only [ofNodes, ofBranches, ofOtherwise, List.append_nil]
  rw [mem_warned_iff hFound, usedNames]

end

/-- As a condition, an expression is warned about for every unknown name that it uses
outside of the arguments of its filters. Printed, it is warned about for no others, and
for all of them exactly if none is unknown but the one at its root. -/
theorem print_checked_like_condition_iff {e other : Expr} (hSame : other.unplaced = e.unplaced)
    (known : List String) (trim trim' : Trim) (place place' : Place) :
    let printed := warned [.print e trim place] known
    let tested := warned [.conditional other [] [] none trim' place'] known
    (∀ name, name ∈ tested ↔ name ∈ usedNames e ∧ IsUnknown known name) ∧
      (∀ name ∈ printed, name ∈ tested) ∧
      ((∀ name, name ∈ printed ↔ name ∈ tested) ↔
        ∀ name ∈ usedNames e, IsUnknown known name → rootName? e = some name) := by
  intro printed tested
  have hUsed : usedNames other = usedNames e := by
    rw [← usedNames_unplaced, hSame, usedNames_unplaced]
  have hTested (name : String) : name ∈ tested ↔ name ∈ usedNames e ∧ IsUnknown known name := by
    rw [mem_warned_conditional, hUsed]
  have hPrinted (name : String) : name ∈ printed ↔ rootName? e = some name ∧ IsUnknown known name :=
    mem_warned_print e known trim place name
  have hSubset : ∀ name ∈ printed, name ∈ tested := by
    intro name hMem
    obtain ⟨hRoot, hUnknown⟩ := (hPrinted name).mp hMem
    exact (hTested name).mpr ⟨rootName?_mem hRoot, hUnknown⟩
  refine ⟨hTested, hSubset, fun hAll name hMem hUnknown => ?_, fun hRoots name => ?_⟩
  · exact ((hPrinted name).mp ((hAll name).mpr ((hTested name).mpr ⟨hMem, hUnknown⟩))).1
  · refine ⟨hSubset name, fun hMem => ?_⟩
    obtain ⟨hName, hUnknown⟩ := (hTested name).mp hMem
    exact (hPrinted name).mpr ⟨hRoots name hName hUnknown, hUnknown⟩

/-- A row chosen by a key that every page has. -/
theorem print_checked_like_condition_iff_index :
    let e := Expr.index (.identifier "rows" ⟨1, 4⟩) (.identifier "title" ⟨1, 9⟩) ⟨1, 8⟩
    let other := Expr.index (.identifier "rows" ⟨1, 7⟩) (.identifier "title" ⟨1, 12⟩) ⟨1, 11⟩
    let printed := [Node.print e ⟨false, false⟩ ⟨1, 1⟩]
    let tested := [Node.conditional other [] [] none ⟨false, false⟩ ⟨1, 1⟩]
    Template.parse Template.usualRoom "\x7b\x7b rows[title] \x7d\x7d" = .ok ⟨printed, []⟩ ∧
      Template.parse Template.usualRoom "\x7b% if rows[title] %\x7d\x7b% endif %\x7d" = .ok ⟨tested, []⟩ ∧
      other.unplaced = e.unplaced ∧ warned printed [] = ["rows"] ∧
      ∀ name, name ∈ warned printed [] ↔ name ∈ warned tested [] := by
  intro e other printed tested
  have hSame : other.unplaced = e.unplaced := by rfl
  have hRoots : ∀ name ∈ usedNames e, IsUnknown [] name → rootName? e = some name := by
    intro name hMem hUnknown
    rcases List.mem_cons.mp hMem with rfl | hTitle
    · rfl
    · rw [List.mem_singleton.mp hTitle] at hUnknown
      exact absurd hUnknown (by decide)
  refine ⟨by cbv, by cbv, hSame, by decide, ?_⟩
  exact (print_checked_like_condition_iff hSame [] _ _ _ _).2.2.mpr hRoots

/-- Parentheses hide a name that is printed. -/
theorem parentheses_hide_name :
    let e := Expr.group (.identifier "foo" ⟨1, 5⟩) ⟨1, 4⟩
    let other := Expr.group (.identifier "foo" ⟨1, 8⟩) ⟨1, 7⟩
    let printed := [Node.print e ⟨false, false⟩ ⟨1, 1⟩]
    let tested := [Node.conditional other [] [] none ⟨false, false⟩ ⟨1, 1⟩]
    Template.parse Template.usualRoom "\x7b\x7b (foo) \x7d\x7d" = .ok ⟨printed, []⟩ ∧
      Template.parse Template.usualRoom "\x7b% if (foo) %\x7d\x7b% endif %\x7d" = .ok ⟨tested, []⟩ ∧
      e.promptSource? = none ∧ warned printed [] = [] ∧ warned tested [] = ["foo"] := by
  intro e other printed tested
  exact ⟨by cbv, by cbv, by rfl, by decide, by decide⟩

end NoteTemplate.Validate
