import NoteTemplate.Filter.Items
import NoteTemplate.Proofs.Json.ReadBack

/-! Dropping duplicates. Values are compared by their JSON text. Of the items of an array
the first one with a text stays, and of the fields of an object the last one; for the
fields the list is turned around before and behind. Nothing that is dropped is lost,
since an equal value stays. -/
namespace NoteTemplate.Filter

section
variable {α : Type} (mark : α → String)

/-- The entries whose mark no entry before them has, where some more entries stand in
front. -/
def firstsBehind (before : List α) : List α → List α
  | [] => []
  | a :: rest =>
    if ∃ b ∈ before, mark b = mark a then firstsBehind (before ++ [a]) rest
    else a :: firstsBehind (before ++ [a]) rest

/-- The entries whose mark no entry behind them has. -/
def lasts : List α → List α
  | [] => []
  | a :: rest => if ∃ b ∈ rest, mark b = mark a then lasts rest else a :: lasts rest

/-- Some of the entries of a list, in its order, with each of its marks once. -/
structure OneOfEach (kept all : List α) : Prop where
  sublist : kept.Sublist all
  covers : ∀ a ∈ all, ∃ b ∈ kept, mark b = mark a
  distinct : (kept.map mark).Nodup

variable {mark}

/-- The marks that have been seen are those of the entries before. -/
theorem dedupBy_eq_firstsBehind {seen : List String} {before : List α}
    (h : ∀ s, s ∈ seen ↔ ∃ b ∈ before, mark b = s) (rest : List α) :
    dedupBy mark seen rest = firstsBehind mark before rest := by
  induction rest generalizing seen before with
  | nil => rfl
  | cons a rest ih =>
      have hBehind (s : String) : (∃ b ∈ before ++ [a], mark b = s) ↔
          (∃ b ∈ before, mark b = s) ∨ mark a = s := by
        simp [or_and_right, exists_or]
      simp only [dedupBy, firstsBehind, List.contains_iff_mem, h]
      split
      · next hOld =>
          refine ih fun s => ?_
          rw [h, hBehind]
          exact (or_iff_left_of_imp fun hSame => hSame ▸ hOld).symm
      · refine congrArg (a :: ·) (ih fun s => ?_)
        rw [List.mem_cons, h, hBehind, or_comm, eq_comm]

theorem dedupBy_eq_firsts (xs : List α) : dedupBy mark [] xs = firstsBehind mark [] xs :=
  dedupBy_eq_firstsBehind (by simp) xs

/-- The last entry stays if its mark is new. -/
theorem firstsBehind_concat (before rest : List α) (a : α) :
    firstsBehind mark before (rest ++ [a]) = firstsBehind mark before rest ++
      if ∃ b ∈ before ++ rest, mark b = mark a then [] else [a] := by
  induction rest generalizing before with
  | nil => simp [firstsBehind]
  | cons c rest ih =>
      rw [List.cons_append, firstsBehind, firstsBehind, ih, List.append_cons before c rest]
      split <;> rfl

/-- Read backwards, the first entries of a list are the last ones. -/
theorem reverse_firsts_reverse (xs : List α) :
    (firstsBehind mark [] xs.reverse).reverse = lasts mark xs := by
  induction xs with
  | nil => rfl
  | cons a rest ih =>
      rw [List.reverse_cons, firstsBehind_concat, List.reverse_append, ih, List.nil_append, lasts]
      simp only [List.mem_reverse]
      split <;> rfl

/-- The last occurrences are one of each mark. -/
theorem oneOfEach_lasts (xs : List α) : OneOfEach mark (lasts mark xs) xs := by
  induction xs with
  | nil => exact ⟨.slnil, List.forall_mem_nil _, List.nodup_nil⟩
  | cons a rest ih =>
      rw [lasts]
      split
      · next hLater =>
          refine ⟨ih.sublist.cons a, List.forall_mem_cons.mpr ⟨?_, ih.covers⟩, ih.distinct⟩
          obtain ⟨b, hMem, hMark⟩ := hLater
          obtain ⟨c, hKept, hSame⟩ := ih.covers b hMem
          exact ⟨c, hKept, hSame.trans hMark⟩
      · next hLast =>
          refine ⟨ih.sublist.cons_cons a, List.forall_mem_cons.mpr ⟨⟨a, List.mem_cons_self, rfl⟩, ?_⟩, ?_⟩
          · intro b hMem
            obtain ⟨c, hKept, hSame⟩ := ih.covers b hMem
            exact ⟨c, List.mem_cons_of_mem a hKept, hSame⟩
          · refine List.nodup_cons.mpr ⟨fun hMem => ?_, ih.distinct⟩
            obtain ⟨b, hKept, hSame⟩ := List.mem_map.mp hMem
            exact hLast ⟨b, ih.sublist.subset hKept, hSame⟩

/-- One of each, read from the end. -/
theorem OneOfEach.reverse {kept all : List α} (h : OneOfEach mark kept all) :
    OneOfEach mark kept.reverse all.reverse where
  sublist := h.sublist.reverse
  covers := by
    simp only [List.mem_reverse]
    exact h.covers
  distinct := by
    rw [List.map_reverse, List.nodup_reverse]
    exact h.distinct

theorem oneOfEach_firsts (xs : List α) : OneOfEach mark (firstsBehind mark [] xs) xs := by
  have h : OneOfEach mark (lasts mark xs.reverse).reverse xs.reverse.reverse :=
    (oneOfEach_lasts xs.reverse).reverse
  rwa [← reverse_firsts_reverse, List.reverse_reverse, List.reverse_reverse] at h

/-- Where no mark stands twice, all entries stay. -/
theorem lasts_of_nodup {xs : List α} (h : (xs.map mark).Nodup) : lasts mark xs = xs := by
  induction xs with
  | nil => rfl
  | cons a rest ih =>
      rw [List.map_cons, List.nodup_cons] at h
      rw [lasts, ih h.2, if_neg]
      rintro ⟨b, hMem, hMark⟩
      exact h.1 (List.mem_map.mpr ⟨b, hMem, hMark⟩)

theorem firsts_of_nodup {xs : List α} (h : (xs.map mark).Nodup) :
    firstsBehind mark [] xs = xs := by
  have hReversed : (xs.reverse.map mark).Nodup := by rwa [List.map_reverse, List.nodup_reverse]
  have hLasts : (firstsBehind mark [] xs.reverse.reverse).reverse = lasts mark xs.reverse :=
    reverse_firsts_reverse xs.reverse
  rw [List.reverse_reverse, lasts_of_nodup hReversed] at hLasts
  exact List.reverse_injective hLasts

end

section
variable {items : List Value} {fields : List (String × Value)}

theorem unique_arr (h : (Value.arr items).Faithful) :
    unique (Value.arr items).toJson = (Value.arr (firstsBehind Value.toJson [] items)).toJson := by
  rw [unique, h.ofJson?_toJson]
  simp only [dedupBy_eq_firsts]

theorem unique_obj (h : (Value.obj fields).Faithful) :
    unique (Value.obj fields).toJson =
      (Value.obj (lasts (fun field => field.2.toJson) fields)).toJson := by
  rw [unique, h.ofJson?_toJson]
  simp only [dedupBy_eq_firsts, reverse_firsts_reverse]

/-- The items that stay are those of the array, each once. -/
theorem unique_arr_spec (h : (Value.arr items).Faithful) :
    let kept := firstsBehind Value.toJson [] items
    unique (Value.arr items).toJson = (Value.arr kept).toJson ∧
      unique (Value.arr kept).toJson = (Value.arr kept).toJson ∧
      items ⊆ kept ∧ (kept.map Value.toJson).Nodup := by
  intro kept
  have hOne : OneOfEach Value.toJson kept items := oneOfEach_firsts items
  have hKept : (Value.arr kept).Faithful := h.arr_of_sublist hOne.sublist
  refine ⟨unique_arr h, ?_, fun item hMem => ?_, hOne.distinct⟩
  · rw [unique_arr hKept, firsts_of_nodup hOne.distinct]
  · obtain ⟨other, hOther, hText⟩ := hOne.covers item hMem
    have hSame := (hKept.of_mem_arr hOther).eq_of_toJson (h.of_mem_arr hMem) hText
    rwa [← hSame]

/-- The values of the fields that stay are those of the object, each once. -/
theorem unique_obj_spec (h : (Value.obj fields).Faithful) :
    let kept := lasts (fun field : String × Value => field.2.toJson) fields
    unique (Value.obj fields).toJson = (Value.obj kept).toJson ∧
      unique (Value.obj kept).toJson = (Value.obj kept).toJson ∧
      fields.map (·.2) ⊆ kept.map (·.2) ∧ (kept.map fun field => field.2.toJson).Nodup := by
  intro kept
  have hOne : OneOfEach (fun field => field.2.toJson) kept fields := oneOfEach_lasts fields
  have hKept : (Value.obj kept).Faithful := h.obj_of_sublist hOne.sublist
  refine ⟨unique_obj h, ?_, fun entry hEntry => ?_, hOne.distinct⟩
  · rw [unique_obj hKept, lasts_of_nodup hOne.distinct]
  · obtain ⟨field, hMem, rfl⟩ := List.mem_map.mp hEntry
    obtain ⟨other, hOther, hText⟩ := hOne.covers field hMem
    have hSame := (hKept.of_mem_obj hOther).eq_of_toJson (h.of_mem_obj hMem) hText
    exact List.mem_map.mpr ⟨other, hOther, hSame⟩

/-- Of an array the first items with each JSON text stay, and of an object the last
fields with such values, in their order. A second time nothing is dropped, every value
is still there, and no two of them have the same text. -/
theorem unique_keeps_one (hItems : (Value.arr items).Faithful)
    (hFields : (Value.obj fields).Faithful) :
    let keptItems := firstsBehind Value.toJson [] items
    let keptFields := lasts (fun field : String × Value => field.2.toJson) fields
    (unique (Value.arr items).toJson = (Value.arr keptItems).toJson ∧
      unique (Value.arr keptItems).toJson = (Value.arr keptItems).toJson ∧
      items ⊆ keptItems ∧ (keptItems.map Value.toJson).Nodup) ∧
    unique (Value.obj fields).toJson = (Value.obj keptFields).toJson ∧
      unique (Value.obj keptFields).toJson = (Value.obj keptFields).toJson ∧
      fields.map (·.2) ⊆ keptFields.map (·.2) ∧
      (keptFields.map fun field => field.2.toJson).Nodup :=
  ⟨unique_arr_spec hItems, unique_obj_spec hFields⟩

end

/-- Numbers, texts and arrays with the same characters in them are different. -/
theorem unique_keeps_one_alike :
    let items : List Value := [.int 1, .str "1", .arr [.int 1], .int 1, .bool true, .arr [.int 1]]
    let fields : List (String × Value) :=
      [("a", .int 1), ("b", .arr [.null]), ("c", .str "1"), ("d", .int 1), ("", .arr [.null])]
    (Value.arr items).Faithful ∧ (Value.obj fields).Faithful ∧
      unique (Value.arr items).toJson = "[1,\"1\",[1],true]" ∧
      unique (Value.obj fields).toJson = "\x7b\"c\":\"1\",\"d\":1,\"\":[null]\x7d" := by
  intro items fields
  have hOne : (Value.int 1).Faithful := .int (by decide +kernel)
  have hItems : (Value.arr items).Faithful := by
    refine .arr ?_
    simp only [items, List.forall_mem_cons]
    exact ⟨hOne, .str _, .arr (List.forall_mem_singleton.mpr hOne), hOne, .bool _,
      .arr (List.forall_mem_singleton.mpr hOne), nofun⟩
  have hFields : (Value.obj fields).Faithful := by
    refine .obj (by decide) ?_
    simp only [fields, List.forall_mem_cons]
    exact ⟨hOne, .arr (List.forall_mem_singleton.mpr .null), .str _, hOne,
      .arr (List.forall_mem_singleton.mpr .null), nofun⟩
  have hKept := unique_keeps_one hItems hFields
  refine ⟨hItems, hFields, hKept.1.1.trans ?_, hKept.2.1.trans ?_⟩
  · decide +kernel
  · decide +kernel

/-- Integers of more than 4300 digits are no JSON data, and a text with them is left as
it is. -/
theorem unique_long_repeated :
    unique (Value.arr [.int (10 ^ 4300), .int (10 ^ 4300)]).toJson ≠
      (Value.arr [.int (10 ^ 4300)]).toJson := by
  have hTwice (v : Value) : (Value.arr [v, v]).toJson ≠ (Value.arr [v]).toJson := by
    intro hSame
    have hLength := congrArg (List.length ∘ String.toList) hSame
    simp [Value.toJson, Value.Json.write, Value.Json.writeItems, Value.Json.separated,
      Value.Json.compact] at hLength
  have hLong : unique (Value.arr [.int (10 ^ 4300), .int (10 ^ 4300)]).toJson =
      (Value.arr [.int (10 ^ 4300), .int (10 ^ 4300)]).toJson := by
    rw [unique, Value.ofJson?_toJson_of_long (by decide +kernel)]
  rw [hLong]
  exact hTwice _

end NoteTemplate.Filter
