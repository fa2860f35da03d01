import NoteTemplate.Validate

/-! Every use of a name in a template, those in the arguments of filters
included, with the names that the check takes to be assigned before it. The
check itself looks at a part of these uses only. -/
namespace NoteTemplate

mutual

/-- All names of an expression, in the order in which they are written. -/
def Expr.occurrences : Expr → List (String × Place)
  | .literal _ _ => []
  | .identifier name place => [(name, place)]
  | .member object _ _ => occurrences object
  | .index object key _ => occurrences object ++ occurrences key
  | .not e _ => occurrences e
  | .binary _ left right _ => occurrences left ++ occurrences right
  | .group inner _ => occurrences inner
  | .filter value _ args _ _ _ => occurrences value ++ occurrencesAll args

/-- All names of a list of expressions. -/
def Expr.occurrencesAll : List Expr → List (String × Place)
  | [] => []
  | e :: rest => occurrences e ++ occurrencesAll rest

end

/-- The places of the names of an expression. -/
def Expr.places (e : Expr) : List Place := e.occurrences.map Prod.snd

mutual

/-- The places of all names in a part. -/
def Node.places : Node → List Place
  | .text _ _ => []
  | .print e _ _ => e.places
  | .conditional condition body branches otherwise _ _ =>
      condition.places ++ placesOfNodes body ++ placesOfBranches branches ++
        placesOfOtherwise otherwise
  | .loop _ iterable body _ _ => iterable.places ++ placesOfNodes body
  | .assign _ e _ _ => e.places

/-- The places of all names in parts one behind the other. -/
def Node.placesOfNodes : List Node → List Place
  | [] => []
  | node :: rest => places node ++ placesOfNodes rest

/-- The places of all names in the branches of a condition. -/
def Node.placesOfBranches : List (Expr × List Node) → List Place
  | [] => []
  | (condition, body) :: rest => condition.places ++ placesOfNodes body ++ placesOfBranches rest

/-- The places of all names in the branch without a condition. -/
def Node.placesOfOtherwise : Option (List Node) → List Place
  | some body => placesOfNodes body
  | none => []

end

variable {P : Expr → Prop} {Q : String → Prop}

mutual

/-- What holds of the expressions at the heads of a part and of the parts in
it, and of the names that are assigned there. -/
def Node.All (P : Expr → Prop) (Q : String → Prop) : Node → Prop
  | .text _ _ => True
  | .print e _ _ => P e
  | .conditional condition body branches otherwise _ _ =>
      P condition ∧ AllNodes P Q body ∧ AllBranches P Q branches ∧ AllOtherwise P Q otherwise
  | .loop iterator iterable body _ _ => Q iterator ∧ P iterable ∧ AllNodes P Q body
  | .assign name e _ _ => Q name ∧ P e

/-- The same for parts one behind the other. -/
def Node.AllNodes (P : Expr → Prop) (Q : String → Prop) : List Node → Prop
  | [] => True
  | node :: rest => All P Q node ∧ AllNodes P Q rest

/-- The same for the branches of a condition. -/
def Node.AllBranches (P : Expr → Prop) (Q : String → Prop) : List (Expr × List Node) → Prop
  | [] => True
  | (condition, body) :: rest => P condition ∧ AllNodes P Q body ∧ AllBranches P Q rest

/-- The same for the branch without a condition. -/
def Node.AllOtherwise (P : Expr → Prop) (Q : String → Prop) : Option (List Node) → Prop
  | some body => AllNodes P Q body
  | none => True

end

namespace Node

variable {P' : Expr → Prop} {Q' : String → Prop}

mutual

/-- What holds of all expressions and assigned names can be replaced by what follows
from it. -/
theorem All.imp (hP : ∀ e, P e → P' e) (hQ : ∀ name, Q name → Q' name) :
    ∀ {node}, All P Q node → All P' Q' node
  | .text _ _, _ => trivial
  | .print _ _ _, h => hP _ h
  | .conditional _ _ _ _ _ _, h =>
      ⟨hP _ h.1, AllNodes.imp hP hQ h.2.1, AllBranches.imp hP hQ h.2.2.1,
        AllOtherwise.imp hP hQ h.2.2.2⟩
  | .loop _ _ _ _ _, h => ⟨hQ _ h.1, hP _ h.2.1, AllNodes.imp hP hQ h.2.2⟩
  | .assign _ _ _ _, h => ⟨hQ _ h.1, hP _ h.2⟩

theorem AllNodes.imp (hP : ∀ e, P e → P' e) (hQ : ∀ name, Q name → Q' name) :
    ∀ {nodes}, AllNodes P Q nodes → AllNodes P' Q' nodes
  | [], _ => trivial
  | _ :: _, h => ⟨All.imp hP hQ h.1, AllNodes.imp hP hQ h.2⟩

theorem AllBranches.imp (hP : ∀ e, P e → P' e) (hQ : ∀ name, Q name → Q' name) :
    ∀ {branches}, AllBranches P Q branches → AllBranches P' Q' branches
  | [], _ => trivial
  | (_, _) :: _, h => ⟨hP _ h.1, AllNodes.imp hP hQ h.2.1, AllBranches.imp hP hQ h.2.2⟩

theorem AllOtherwise.imp (hP : ∀ e, P e → P' e) (hQ : ∀ name, Q name → Q' name) :
    ∀ {body}, AllOtherwise P Q body → AllOtherwise P' Q' body
  | some _, h => AllNodes.imp hP hQ h
  | none, _ => trivial

end

theorem allNodes_of_append {earlier later : List Node} {node : Node}
    (h : AllNodes P Q (earlier ++ node :: later)) : AllNodes P Q earlier ∧ All P Q node := by
  induction earlier with
  | nil => exact ⟨trivial, h.1⟩
  | cons first rest ih => exact ⟨⟨h.1, (ih h.2).1⟩, (ih h.2).2⟩

theorem allNodes_of_allBranches {before after : List (Expr × List Node)} {condition : Expr}
    {inner : List Node} (h : AllBranches P Q (before ++ (condition, inner) :: after)) :
    AllNodes P Q inner := by
  induction before with
  | nil => exact h.2.1
  | cons branch rest ih => exact ih h.2.2

/-- The branch that a condition comes to is one of its branches. -/
theorem allNodes_of_branch {first condition : Expr} {body inner : List Node}
    {branches before after : List (Expr × List Node)}
    (hBranches : (first, body) :: branches = before ++ (condition, inner) :: after)
    (h : AllBranches P Q ((first, body) :: branches)) : AllNodes P Q inner :=
  allNodes_of_allBranches (hBranches ▸ h)

end Node

namespace Validate

mutual

/-- The uses of names in a part, with the names assigned before each of them. -/
def usesOfNode (scope : List String) : Node → List Reference
  | .text _ _ => []
  | .print e _ _ => refer scope e.occurrences
  | .assign name e _ _ => refer (name :: scope) e.occurrences
  | .conditional condition body branches otherwise _ _ =>
      refer scope condition.occurrences ++ usesOfNodes scope body ++
        usesOfBranches (ofNodes scope body).2 branches ++
          usesOfOtherwise (ofBranches (ofNodes scope body).2 branches).2 otherwise
  | .loop iterator iterable body _ _ =>
      refer scope iterable.occurrences ++
        usesOfNodes (iterator :: (iterator ++ "_index") :: scope) body

/-- The uses of names in parts one behind the other. -/
def usesOfNodes (scope : List String) : List Node → List Reference
  | [] => []
  | node :: rest => usesOfNode scope node ++ usesOfNodes (ofNode scope node).2 rest

/-- The uses of names in the branches of a condition. -/
def usesOfBranches (scope : List String) : List (Expr × List Node) → List Reference
  | [] => []
  | (condition, body) :: rest =>
      refer scope condition.occurrences ++ usesOfNodes scope body ++
        usesOfBranches (ofNodes scope body).2 rest

/-- The uses of names in the branch without a condition. -/
def usesOfOtherwise (scope : List String) : Option (List Node) → List Reference
  | some body => usesOfNodes scope body
  | none => []

end

theorem append_subset_append {α : Type} {a b c d : List α} (hLeft : a ⊆ c) (hRight : b ⊆ d) :
    a ++ b ⊆ c ++ d :=
  List.append_subset.mpr
    ⟨List.subset_append_of_subset_left _ hLeft, List.subset_append_of_subset_right _ hRight⟩

/-- The check passes over the arguments of filters. -/
theorem names_subset_occurrences (e : Expr) : names e ⊆ e.occurrences := by
  induction e using names.induct with
  | case1 name place => simp [names, Expr.occurrences]
  | case2 value name args separators parenthesized place ih =>
      rw [names, Expr.occurrences]
      exact List.subset_append_of_subset_left _ ih
  | case3 operator left right place ihLeft ihRight =>
      rw [names, Expr.occurrences]
      exact append_subset_append ihLeft ihRight
  | case4 e place ih => simpa only [names, Expr.occurrences] using ih
  | case5 object name place ih => simpa only [names, Expr.occurrences] using ih
  | case6 object key place ihObject ihKey =>
      rw [names, Expr.occurrences]
      exact append_subset_append ihObject ihKey
  | case7 inner place ih => simpa only [names, Expr.occurrences] using ih
  | case8 l place => simp [names]

/-- The root of an expression is one of its names. -/
theorem root?_subset_names (e : Expr) : (root? e).toList ⊆ names e := by
  induction e using root?.induct with
  | case1 name place => simp [root?, names]
  | case2 value name args separators parenthesized place ih => simpa only [root?, names] using ih
  | case3 object name place ih => simpa only [root?, names] using ih
  | case4 object key place ih =>
      rw [root?, names]
      exact List.subset_append_of_subset_left _ ih
  | case5 left right place ih =>
      rw [root?, if_pos rfl, names]
      exact List.subset_append_of_subset_left _ ih
  | case6 operator left right place hOperator => simp [root?, hOperator]
  | case7 e hIdentifier hFilter hMember hIndex hBinary =>
      cases e with
      | identifier name place => exact (hIdentifier name place rfl).elim
      | filter value name args separators parenthesized place =>
          exact (hFilter value name args separators parenthesized place rfl).elim
      | member object name place => exact (hMember object name place rfl).elim
      | index object key place => exact (hIndex object key place rfl).elim
      | binary operator left right place => exact (hBinary operator left right place rfl).elim
      | literal l place => simp [root?]
      | not e place => simp [root?]
      | group inner place => simp [root?]

theorem refer_subset {scope : List String} {found more : List (String × Place)}
    (h : found ⊆ more) : refer scope found ⊆ refer scope more :=
  List.map_subset _ h

variable (scope : List String)

/-- The analysis of a condition goes through its body and then its branches. -/
theorem ofNode_conditional (condition : Expr) (body : List Node)
    (branches : List (Expr × List Node)) (otherwise : Option (List Node)) (trim : Trim)
    (place : Place) : ofNode scope (.conditional condition body branches otherwise trim place) =
      let scope' := (ofNodes scope body).2
      let scope'' := (ofBranches scope' branches).2
      (refer scope (names condition) ++ (ofNodes scope body).1 ++ (ofBranches scope' branches).1 ++
        (ofOtherwise scope'' otherwise).1, (ofOtherwise scope'' otherwise).2) := by
  rw [ofNode]

theorem ofNode_loop (iterator : String) (iterable : Expr) (body : List Node) (trim : Trim)
    (place : Place) : ofNode scope (.loop iterator iterable body trim place) =
      (refer scope (names iterable) ++
        (ofNodes (iterator :: (iterator ++ "_index") :: scope) body).1, scope) := by
  rw [ofNode]

theorem ofNodes_cons (node : Node) (rest : List Node) : ofNodes scope (node :: rest) =
    ((ofNode scope node).1 ++ (ofNodes (ofNode scope node).2 rest).1,
      (ofNodes (ofNode scope node).2 rest).2) := by
  rw [ofNodes]

theorem ofBranches_cons (condition : Expr) (body : List Node) (rest : List (Expr × List Node)) :
    ofBranches scope ((condition, body) :: rest) =
      (refer scope (names condition) ++ (ofNodes scope body).1 ++
        (ofBranches (ofNodes scope body).2 rest).1, (ofBranches (ofNodes scope body).2 rest).2) := by
  rw [ofBranches]

mutual

/-- What the check refers to is a use. -/
theorem references_subset_usesOfNode : ∀ scope node, (ofNode scope node).1 ⊆ usesOfNode scope node
  | scope, .text _ _ => by simp [ofNode]
  | scope, .print e _ _ => by
      rw [ofNode, usesOfNode]
      exact refer_subset (List.Subset.trans (root?_subset_names e) (names_subset_occurrences e))
  | scope, .assign name e _ _ => by
      rw [ofNode, usesOfNode]
      exact refer_subset (names_subset_occurrences e)
  | scope, .conditional condition body branches otherwise _ _ => by
      rw [ofNode_conditional, usesOfNode]
      refine append_subset_append (append_subset_append (append_subset_append ?_ ?_) ?_) ?_
      · exact refer_subset (names_subset_occurrences condition)
      · exact references_subset_usesOfNodes scope body
      · exact references_subset_usesOfBranches _ branches
      · exact references_subset_usesOfOtherwise _ otherwise
  | scope, .loop iterator iterable body _ _ => by
      rw [ofNode_loop, usesOfNode]
      refine append_subset_append ?_ ?_
      · exact refer_subset (names_subset_occurrences iterable)
      · exact references_subset_usesOfNodes _ body

theorem references_subset_usesOfNodes : ∀ scope nodes, (ofNodes scope nodes).1 ⊆ usesOfNodes scope nodes
  | scope, [] => by simp [ofNodes]
  | scope, node :: rest => by
      rw [ofNodes_cons, usesOfNodes]
      refine append_subset_append ?_ ?_
      · exact references_subset_usesOfNode scope node
      · exact references_subset_usesOfNodes _ rest

/-- The references of branches are among the uses of names in them. -/
theorem references_subset_usesOfBranches :
    ∀ scope branches, (ofBranches scope branches).1 ⊆ usesOfBranches scope branches
  | scope, [] => by simp [ofBranches]
  | scope, (condition, body) :: rest => by
      rw [ofBranches_cons, usesOfBranches]
      refine append_subset_append (append_subset_append ?_ ?_) ?_
      · exact refer_subset (names_subset_occurrences condition)
      · exact references_subset_usesOfNodes scope body
      · exact references_subset_usesOfBranches _ rest

theorem references_subset_usesOfOtherwise :
    ∀ scope body, (ofOtherwise scope body).1 ⊆ usesOfOtherwise scope body
  | scope, some body => by
      rw [ofOtherwise, usesOfOtherwise]
      exact references_subset_usesOfNodes scope body
  | scope, none => by simp [ofOtherwise]

end

mutual

/-- Names are assigned once for all: behind a part there are at least those
before it. -/
theorem scope_subset_ofNode : ∀ scope node, scope ⊆ (ofNode scope node).2
  | scope, .text _ _ => by simp [ofNode]
  | scope, .print _ _ _ => by simp [ofNode]
  | scope, .assign name _ _ _ => by
      rw [ofNode]
      exact List.subset_cons_self name scope
  | scope, .conditional condition body branches otherwise _ _ => by
      rw [ofNode_conditional]
      have hBody := scope_subset_ofNodes scope body
      have hBranches := scope_subset_ofBranches (ofNodes scope body).2 branches
      exact List.Subset.trans (List.Subset.trans hBody hBranches) (scope_subset_ofOtherwise _ otherwise)
  | scope, .loop iterator iterable body _ _ => by simp [ofNode_loop]

theorem scope_subset_ofNodes : ∀ scope nodes, scope ⊆ (ofNodes scope nodes).2
  | scope, [] => by simp [ofNodes]
  | scope, node :: rest => by
      rw [ofNodes_cons]
      exact List.Subset.trans (scope_subset_ofNode scope node) (scope_subset_ofNodes _ rest)

theorem scope_subset_ofBranches : ∀ scope branches, scope ⊆ (ofBranches scope branches).2
  | scope, [] => by simp [ofBranches]
  | scope, (condition, body) :: rest => by
      rw [ofBranches_cons]
      exact List.Subset.trans (scope_subset_ofNodes scope body) (scope_subset_ofBranches _ rest)

theorem scope_subset_ofOtherwise : ∀ scope body, scope ⊆ (ofOtherwise scope body).2
  | scope, some body => by
      rw [ofOtherwise]
      exact scope_subset_ofNodes scope body
  | scope, none => by simp [ofOtherwise]

end

theorem map_place_refer (scope : List String) (found : List (String × Place)) :
    (refer scope found).map Reference.place = found.map Prod.snd := by
  simp [refer]

mutual

/-- Each name of a part is used once, where it stands. -/
theorem places_usesOfNode :
    ∀ scope node, (usesOfNode scope node).map Reference.place = node.places
  | scope, .text _ _ => by simp [usesOfNode, Node.places]
  | scope, .print e _ _ => by rw [usesOfNode, Node.places, map_place_refer, Expr.places]
  | scope, .assign name e _ _ => by rw [usesOfNode, Node.places, map_place_refer, Expr.places]
  | scope, .conditional condition body branches otherwise _ _ => by
      rw [usesOfNode, Node.places, List.map_append, List.map_append, List.map_append,
        map_place_refer, places_usesOfNodes scope body, places_usesOfBranches _ branches,
        places_usesOfOtherwise _ otherwise, Expr.places]
  | scope, .loop iterator iterable body _ _ => by
      rw [usesOfNode, Node.places, List.map_append, map_place_refer, places_usesOfNodes _ body,
        Expr.places]

theorem places_usesOfNodes :
    ∀ scope nodes, (usesOfNodes scope nodes).map Reference.place = Node.placesOfNodes nodes
  | scope, [] => by simp [usesOfNodes, Node.placesOfNodes]
  | scope, node :: rest => by
      rw [usesOfNodes, Node.placesOfNodes, List.map_append, places_usesOfNode scope node,
        places_usesOfNodes _ rest]

theorem places_usesOfBranches :
    ∀ scope branches, (usesOfBranches scope branches).map Reference.place = Node.placesOfBranches branches
  | scope, [] => by simp [usesOfBranches, Node.placesOfBranches]
  | scope, (condition, body) :: rest => by
      rw [usesOfBranches, Node.placesOfBranches, List.map_append, List.map_append, map_place_refer,
        places_usesOfNodes scope body, places_usesOfBranches _ rest, Expr.places]

theorem places_usesOfOtherwise :
    ∀ scope body, (usesOfOtherwise scope body).map Reference.place = Node.placesOfOtherwise body
  | scope, some body => by rw [usesOfOtherwise, Node.placesOfOtherwise, places_usesOfNodes scope body]
  | scope, none => by simp [usesOfOtherwise, Node.placesOfOtherwise]

end

theorem forall_refer {P : String → Prop} (scope : List String) (found : List (String × Place)) :
    (∀ u ∈ refer scope found, P u.name) ↔ ∀ o ∈ found, P o.1 := by
  rw [refer, List.forall_mem_map]

/-- What holds of all names in expressions and parts. -/
abbrev NamesAll (P : String → Prop) (e : Expr) : Prop := ∀ o ∈ e.occurrences, P o.1

section Names

variable {P : String → Prop}

mutual

/-- What holds of the uses of names holds of the expressions at the heads of parts. -/
theorem node_all_iff : ∀ scope node, Node.All (NamesAll P) (fun _ => True) node ↔
    ∀ u ∈ usesOfNode scope node, P u.name
  | scope, .text _ _ => by simp [usesOfNode, Node.All]
  | scope, .print e _ _ => by rw [usesOfNode, Node.All, forall_refer]
  | scope, .assign name e _ _ => by rw [usesOfNode, Node.All, forall_refer, true_and]
  | scope, .conditional condition body branches otherwise _ _ => by
      rw [usesOfNode, Node.All, nodes_all_iff scope body, branches_all_iff _ branches,
        otherwise_all_iff _ otherwise, List.forall_mem_append, List.forall_mem_append,
        List.forall_mem_append, forall_refer, and_assoc, and_assoc]
  | scope, .loop iterator iterable body _ _ => by
      rw [usesOfNode, Node.All, nodes_all_iff _ body, List.forall_mem_append, forall_refer,
        true_and]

theorem nodes_all_iff : ∀ scope nodes, Node.AllNodes (NamesAll P) (fun _ => True) nodes ↔
    ∀ u ∈ usesOfNodes scope nodes, P u.name
  | scope, [] => by simp [usesOfNodes, Node.AllNodes]
  | scope, node :: rest => by
      rw [usesOfNodes, Node.AllNodes, node_all_iff scope node, nodes_all_iff _ rest,
        List.forall_mem_append]

theorem branches_all_iff : ∀ scope branches,
    Node.AllBranches (NamesAll P) (fun _ => True) branches ↔
      ∀ u ∈ usesOfBranches scope branches, P u.name
  | scope, [] => by simp [usesOfBranches, Node.AllBranches]
  | scope, (condition, body) :: rest => by
      rw [usesOfBranches, Node.AllBranches, nodes_all_iff scope body, branches_all_iff _ rest,
        List.forall_mem_append, List.forall_mem_append, forall_refer, and_assoc]

theorem otherwise_all_iff : ∀ scope body, Node.AllOtherwise (NamesAll P) (fun _ => True) body ↔
    ∀ u ∈ usesOfOtherwise scope body, P u.name
  | scope, some body => by rw [usesOfOtherwise, Node.AllOtherwise, nodes_all_iff scope body]
  | scope, none => by simp [usesOfOtherwise, Node.AllOtherwise]

end

end Names

/-- Parts in the middle of a list use names with what was assigned in front
of them. -/
theorem usesOfNode_subset (before : List Node) (node : Node) (after : List Node)
    (scope : List String) :
    usesOfNode (ofNodes scope before).2 node ⊆ usesOfNodes scope (before ++ node :: after) := by
  induction before generalizing scope with
  | nil =>
      rw [List.nil_append, usesOfNodes, ofNodes]
      exact List.subset_append_left _ _
  | cons first rest ih =>
      rw [List.cons_append, usesOfNodes, ofNodes_cons]
      exact List.subset_append_of_subset_right _ (ih _)

/-- The same for the branches of a condition. -/
theorem usesOfBranch_subset (before : List (Expr × List Node)) (condition : Expr)
    (body : List Node) (after : List (Expr × List Node)) (scope : List String) :
    refer (ofBranches scope before).2 condition.occurrences ++
        usesOfNodes (ofBranches scope before).2 body ⊆
      usesOfBranches scope (before ++ (condition, body) :: after) := by
  induction before generalizing scope with
  | nil =>
      rw [List.nil_append, usesOfBranches, ofBranches]
      exact List.subset_append_left _ _
  | cons first rest ih =>
      rw [List.cons_append, usesOfBranches, ofBranches_cons]
      exact List.subset_append_of_subset_right _ (ih _)

end Validate

namespace Node

/-- What holds of every expression holds of all those in parts. -/
theorem allNodes_of_forall (h : ∀ e, P e) (nodes : List Node) :
    AllNodes P (fun _ => True) nodes :=
  ((Validate.nodes_all_iff (P := fun _ => True) [] nodes).mpr fun _ _ => trivial).imp
    (fun e _ => h e) fun _ => id

theorem allBranches_of_forall (h : ∀ e, P e) (branches : List (Expr × List Node)) :
    AllBranches P (fun _ => True) branches :=
  ((Validate.branches_all_iff (P := fun _ => True) [] branches).mpr fun _ _ => trivial).imp
    (fun e _ => h e) fun _ => id

theorem allOtherwise_of_forall (h : ∀ e, P e) (body : Option (List Node)) :
    AllOtherwise P (fun _ => True) body :=
  ((Validate.otherwise_all_iff (P := fun _ => True) [] body).mpr fun _ _ => trivial).imp
    (fun e _ => h e) fun _ => id

end Node

end NoteTemplate
