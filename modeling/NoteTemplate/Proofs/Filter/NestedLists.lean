import NoteTemplate.Filter.Bullets
import NoteTemplate.Proofs.Json.FloatText

/-! Arrays in arrays as lists in lists. Each item that is no array itself has one line,
in the order in which the items are written. The line is indented by the arrays around
its array, and its number counts the items before it in the same array, where arrays
are left out. -/
namespace NoteTemplate.Filter

open Text

/-- Whether an item has a line of its own. -/
def isSingle : Value → Bool
  | .arr _ => false
  | _ => true

/-- An item that is no array: the places that lead to its array from the outermost one,
its own place, the items before it, and its value. -/
structure Leaf where
  outer : List Nat
  place : Nat
  before : List Value
  value : Value

/-- The items of arrays within an array, at any depth. -/
inductive LeafOf : List Value → Leaf → Prop where
  | here {items : List Value} {place : Nat} {v : Value} (hItem : items[place]? = some v)
      (hSingle : isSingle v = true) : LeafOf items ⟨[], place, items.take place, v⟩
  | inside {items inner : List Value} {place : Nat} {leaf : Leaf}
      (hItem : items[place]? = some (.arr inner)) (hLeaf : LeafOf inner leaf) :
      LeafOf items { leaf with outer := place :: leaf.outer }

namespace Leaf

/-- Where an item stands, by places from the outermost array inwards. Items are written
in the order of their addresses. -/
def address (leaf : Leaf) : List Nat := leaf.outer ++ [leaf.place]

/-- The line of an item in a list that stands at some depth itself. -/
def lineAt (bullet : Bullet) (depth : Nat) (leaf : Leaf) : String :=
  String.ofList (List.replicate (depth + leaf.outer.length) '\t') ++
    bullet.mark (leaf.before.countP isSingle + 1) ++ leaf.value.text

/-- The line of an item: a tab for each array around its own one, the mark with the
number of the item, and its text. -/
def line (bullet : Bullet) (leaf : Leaf) : String :=
  String.ofList (List.replicate leaf.outer.length '\t') ++
    bullet.mark (leaf.before.countP isSingle + 1) ++ leaf.value.text

/-- An item as one of an array that stands at a place in another one. -/
def within (place : Nat) (leaf : Leaf) : Leaf := { leaf with outer := place :: leaf.outer }

end Leaf

/-- The items of an array and of those in it, behind some items of the array. -/
def leavesBehind (before : List Value) : List Value → List Leaf
  | [] => []
  | .arr inner :: rest =>
    (leavesBehind [] inner).map (Leaf.within before.length) ++
      leavesBehind (before ++ [.arr inner]) rest
  | v :: rest => ⟨[], before.length, before, v⟩ :: leavesBehind (before ++ [v]) rest

/-- What one item adds: itself, or the items of the array that it is. -/
def leavesAt (before : List Value) : Value → List Leaf
  | .arr inner => (leavesBehind [] inner).map (Leaf.within before.length)
  | v => [⟨[], before.length, before, v⟩]

theorem leavesAt_single {v : Value} (h : isSingle v = true) (before : List Value) :
    leavesAt before v = [⟨[], before.length, before, v⟩] := by
  cases v with
  | arr items => cases h
  | _ => rfl

theorem leavesBehind_cons (before : List Value) (v : Value) (rest : List Value) :
    leavesBehind before (v :: rest) = leavesAt before v ++ leavesBehind (before ++ [v]) rest := by
  cases v with
  | arr inner => rw [leavesBehind, leavesAt]
  | _ => rw [leavesBehind, leavesAt_single rfl, List.singleton_append]; nofun

/-- The leaves of a list are those of its front and then those of its back. -/
theorem leavesBehind_append (before first rest : List Value) :
    leavesBehind before (first ++ rest) =
      leavesBehind before first ++ leavesBehind (before ++ first) rest := by
  induction first generalizing before with
  | nil => simp [leavesBehind]
  | cons v first ih =>
      rw [List.cons_append, leavesBehind_cons, leavesBehind_cons, ih, List.append_assoc,
        List.append_assoc, List.singleton_append]

/-- What an item adds is among the items. -/
theorem leavesAt_subset {items : List Value} {place : Nat} {v : Value} (h : items[place]? = some v) :
    leavesAt (items.take place) v ⊆ leavesBehind [] items := by
  obtain ⟨hPlace, rfl⟩ := List.getElem?_eq_some_iff.mp h
  have hItems : items = items.take place ++ items[place] :: items.drop (place + 1) := by simp
  have hSplit := leavesBehind_append [] (items.take place) (items[place] :: items.drop (place + 1))
  rw [← hItems, List.nil_append, leavesBehind_cons] at hSplit
  rw [hSplit]
  exact fun leaf hMem => List.mem_append_right _ (List.mem_append_left _ hMem)

theorem length_take_of_getElem? {items : List Value} {place : Nat} {v : Value}
    (h : items[place]? = some v) : (items.take place).length = place :=
  List.length_take_of_le (Nat.le_of_lt (List.getElem?_eq_some_iff.mp h).1)

/-- Every leaf of an array is listed. -/
theorem LeafOf.mem {items : List Value} {leaf : Leaf} (h : LeafOf items leaf) :
    leaf ∈ leavesBehind [] items := by
  induction h with
  | here hItem hSingle =>
      refine leavesAt_subset hItem ?_
      rw [leavesAt_single hSingle, length_take_of_getElem? hItem]
      exact List.mem_singleton_self _
  | @inside items inner place leaf hItem _ ih =>
      refine leavesAt_subset hItem (List.mem_map.mpr ⟨leaf, ih, ?_⟩)
      rw [length_take_of_getElem? hItem, Leaf.within]

/-- Nothing is listed but leaves. -/
theorem leafOf_of_mem {before rest : List Value} {leaf : Leaf}
    (h : leaf ∈ leavesBehind before rest) : LeafOf (before ++ rest) leaf := by
  fun_induction leavesBehind before rest generalizing leaf with
  | case1 before => cases h
  | case2 before inner rest ihInner ih =>
      rcases List.mem_append.mp h with hInner | hRest
      · obtain ⟨other, hOther, rfl⟩ := List.mem_map.mp hInner
        have hItem : (before ++ .arr inner :: rest)[before.length]? = some (.arr inner) := by simp
        exact .inside hItem (ihInner hOther)
      · rw [List.append_cons]
        exact ih hRest
  | case3 before v rest hNoArray ih =>
      rcases List.mem_cons.mp h with rfl | hRest
      · have hItem : (before ++ v :: rest)[before.length]? = some v := by simp
        have hSingle : isSingle v = true := by
          cases v with
          | arr items => exact absurd rfl (hNoArray items)
          | _ => rfl
        have hLeaf := LeafOf.here hItem hSingle
        rwa [List.take_left] at hLeaf
      · rw [List.append_cons]
        exact ih hRest

theorem mem_leaves_iff {items : List Value} {leaf : Leaf} :
    leaf ∈ leavesBehind [] items ↔ LeafOf items leaf :=
  ⟨leafOf_of_mem, LeafOf.mem⟩

/-- The items that one item adds stand at its own place. -/
theorem address_of_mem_leavesAt {before : List Value} {v : Value} {leaf : Leaf}
    (h : leaf ∈ leavesAt before v) : ∃ inner, leaf.address = before.length :: inner := by
  cases v with
  | arr items =>
      obtain ⟨other, -, rfl⟩ := List.mem_map.mp h
      exact ⟨other.address, rfl⟩
  | _ =>
      rw [leavesAt_single rfl, List.mem_singleton] at h
      exact ⟨[], by rw [h]; rfl⟩

/-- The address of a leaf begins with the place of the item that it is in. -/
theorem address_of_mem_leavesBehind {before rest : List Value} {leaf : Leaf}
    (h : leaf ∈ leavesBehind before rest) :
    ∃ place inner, before.length ≤ place ∧ leaf.address = place :: inner := by
  induction rest generalizing before with
  | nil => simp [leavesBehind] at h
  | cons v rest ih =>
      rw [leavesBehind_cons, List.mem_append] at h
      rcases h with hHere | hRest
      · obtain ⟨inner, hAddress⟩ := address_of_mem_leavesAt hHere
        exact ⟨_, inner, Nat.le_refl _, hAddress⟩
      · obtain ⟨place, inner, hPlace, hAddress⟩ := ih hRest
        rw [List.length_append] at hPlace
        exact ⟨place, inner, by omega, hAddress⟩

/-- What an item adds stands before what the items behind it add. -/
theorem address_lt {before rest : List Value} {v : Value} {first second : Leaf}
    (hFirst : first ∈ leavesAt before v) (hSecond : second ∈ leavesBehind (before ++ [v]) rest) :
    first.address < second.address := by
  obtain ⟨inner, hFirst⟩ := address_of_mem_leavesAt hFirst
  obtain ⟨place, other, hPlace, hSecond⟩ := address_of_mem_leavesBehind hSecond
  rw [List.length_append, List.length_singleton] at hPlace
  rw [hFirst, hSecond, List.cons_lt_cons_iff]
  exact .inl hPlace

theorem isSingle_of_ne {v : Value} (h : ∀ items, v = .arr items → False) : isSingle v = true := by
  cases v with
  | arr items => exact (h items rfl).elim
  | _ => rfl

/-- The items stand in the order of their addresses. -/
theorem pairwise_leavesBehind (before rest : List Value) :
    (leavesBehind before rest).Pairwise fun a b => a.address < b.address := by
  fun_induction leavesBehind before rest with
  | case1 before => exact .nil
  | case2 before inner rest ihInner ih =>
      refine List.pairwise_append.mpr ⟨List.pairwise_map.mpr ?_, ih, ?_⟩
      · exact ihInner.imp fun hLess => List.cons_lt_cons_iff.mpr (.inr ⟨rfl, hLess⟩)
      · exact fun first hFirst second hSecond => address_lt (v := .arr inner) hFirst hSecond
  | case3 before v rest hNoArray ih =>
      refine List.pairwise_cons.mpr ⟨fun leaf hMem => address_lt ?_ hMem, ih⟩
      rw [leavesAt_single (isSingle_of_ne hNoArray)]
      exact List.mem_singleton_self _

/-- The lines follow the items. The depth grows with each array that is entered, and the
number counts on within one array. -/
theorem bulletLines_eq (bullet : Bullet) (depth : Nat) (before rest : List Value) :
    bulletLines bullet depth (before.countP isSingle) rest =
      (leavesBehind before rest).map (Leaf.lineAt bullet depth) := by
  fun_induction leavesBehind before rest generalizing depth with
  | case1 before => rw [bulletLines, List.map_nil]
  | case2 before inner rest ihInner ih =>
      have hWithin : Leaf.lineAt bullet depth ∘ Leaf.within before.length =
          Leaf.lineAt bullet (depth + 1) := by
        funext leaf
        simp only [Function.comp_apply, Leaf.lineAt, Leaf.within, List.length_cons]
        rw [Nat.add_right_comm, Nat.add_assoc]
      have hCount : (before ++ [Value.arr inner]).countP isSingle = before.countP isSingle := by
        rw [List.countP_append]
        rfl
      rw [bulletLines, List.map_append, List.map_map, hWithin, ← ihInner, ← ih, hCount]
      rfl
  | case3 before v rest hNoArray ih =>
      have hSingle : isSingle v = true := isSingle_of_ne hNoArray
      have hCount : (before ++ [v]).countP isSingle = before.countP isSingle + 1 := by
        rw [List.countP_append, List.countP_singleton, if_pos hSingle]
      rw [bulletLines.eq_3 _ _ _ _ _ hNoArray, List.map_cons, ← ih, hCount]
      rfl

/-- The list of the array that a text is read as. -/
theorem bullets_of_ofJson? {s : String} {items : List Value}
    (hRead : Value.ofJson? s = some (.arr items)) (param : Option String) :
    bullets s param = joinWith "\n"
      ((leavesBehind [] items).map (Leaf.line (Bullet.ofName (Param.single param)))) := by
  have hLine (bullet : Bullet) : Leaf.lineAt bullet 0 = Leaf.line bullet := by
    funext leaf
    rw [Leaf.lineAt, Leaf.line, Nat.zero_add]
  have hItems : itemsOf? s = some items := by rw [itemsOf?, hRead]
  rw [bullets, hItems, ← hLine, ← bulletLines_eq]
  rfl

/-- The list of an array has one line for each item of it and of the arrays in it, in the
order in which they are written. -/
theorem bullets_lists_leaves {items : List Value} (hItems : (Value.arr items).Legible)
    (param : Option String) :
    ∃ leaves : List Leaf, (leaves.Pairwise fun a b => a.address < b.address) ∧
      (∀ leaf, leaf ∈ leaves ↔ LeafOf items leaf) ∧
      bullets (Value.arr items).toJson param =
        joinWith "\n" (leaves.map (Leaf.line (Bullet.ofName (Param.single param)))) :=
  ⟨leavesBehind [] items, pairwise_leavesBehind [] items, fun _ => mem_leaves_iff,
    bullets_of_ofJson? hItems.ofJson?_toJson param⟩

/-- Empty arrays and arrays at the beginning, in the middle and at the end of others. -/
theorem bullets_lists_leaves_nested :
    let items : List Value := [.arr [], .arr [.str "a", .arr [.int 1, .float 0.1], .str "b"],
      .str "c", .arr [], .null, .arr [.bool true]]
    (Value.arr items).Legible ∧
      (∃ leaves : List Leaf, (leaves.Pairwise fun a b => a.address < b.address) ∧
        (∀ leaf, leaf ∈ leaves ↔ LeafOf items leaf) ∧
        bullets (Value.arr items).toJson (some "numbered") =
          joinWith "\n" (leaves.map (Leaf.line (Bullet.ofName (Param.single (some "numbered")))))) ∧
      bullets (Value.arr items).toJson (some "numbered") =
        "\t1. a\n\t\t1. 1\n\t\t2. 0.1\n\t2. b\n1. c\n2. \n\t1. true" := by
  intro items
  have hItems : (Value.arr items).Legible := by
    refine .arr ?_
    simp only [items, List.forall_mem_cons]
    refine ⟨.arr nofun, .arr ?_, .str _, .arr nofun, .null,
      .arr (List.forall_mem_singleton.mpr (.bool true)), nofun⟩
    simp only [List.forall_mem_cons]
    refine ⟨.str _, .arr ?_, .str _, nofun⟩
    simp only [List.forall_mem_cons]
    exact ⟨.int (by decide +kernel), .float _, nofun⟩
  refine ⟨hItems, bullets_lists_leaves hItems (some "numbered"), ?_⟩
  have hTenth : (Value.float 0.1).text = "0.1" := by decide +kernel
  rw [bullets, itemsOf?, hItems.ofJson?_toJson]
  simp only [items, Option.getD_some, bulletLines, hTenth]
  cbv

/-- An array with an integer that is too long is no JSON data, and its text is the only
item of the list. -/
theorem bullets_of_long {n : Int} (h : Decimal.digitLimit ≤ n.natAbs) :
    bullets (Value.arr [.int n]).toJson none = "- " ++ (Value.arr [.int n]).toJson := by
  have hItems : itemsOf? (Value.arr [.int n]).toJson = none := by
    rw [itemsOf?, Value.ofJson?_toJson_of_long h []]
  simp [bullets, hItems, bulletLines, Bullet.ofName, Bullet.mark, Param.single, joinWith, Value.text]

/-- An integer of more than 4300 digits is not taken out of its array. -/
theorem bullets_long_integer :
    bullets (Value.arr [.int (10 ^ 4300)]).toJson none ≠
      joinWith "\n" ["- " ++ (Value.int (10 ^ 4300)).text] := by
  have hShorter (n : Int) :
      "- " ++ (Value.arr [.int n]).toJson ≠ joinWith "\n" ["- " ++ (Value.int n).text] := by
    intro hSame
    have hLength := congrArg (List.length ∘ String.toList) hSame
    simp [joinWith, Value.text, Value.toJson, Value.Json.write, Value.Json.writeItems,
      Value.Json.separated] at hLength
    omega
  rw [bullets_of_long (by decide +kernel)]
  exact hShorter _

end NoteTemplate.Filter
