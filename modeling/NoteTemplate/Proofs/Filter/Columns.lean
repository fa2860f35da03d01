import NoteTemplate.Filter.Table
import NoteTemplate.Proofs.Cache.Entries
import NoteTemplate.Proofs.Filter.SplitJoin
import NoteTemplate.Proofs.Json.ReadBack

/-! Tables and their columns. Every line of a table has as many bars as its header,
unless the header is given for an array of arrays and has another width than the
widest of these. -/
namespace NoteTemplate.Filter

open Text

/-- A text that ends neither a cell nor a line. -/
def Plain (s : String) : Prop := '|' ∉ s.toList ∧ '\n' ∉ s.toList

instance (s : String) : Decidable (Plain s) := inferInstanceAs (Decidable (_ ∧ _))

/-- The number of bars in a line. -/
def bars (line : String) : Nat := line.toList.count '|'

/-- A text with the same number of bars in all its lines. -/
def Rectangular (s : String) : Prop := ∃ count, ∀ line ∈ pieces '\n' s, bars line = count

/-- An array or object with something in it. -/
def HasEntries : Value → Prop
  | .arr items => items ≠ []
  | .obj fields => fields ≠ []
  | _ => False

/-- The names and texts of fields. -/
def fieldTexts (fields : List (String × Value)) : List String :=
  fields.flatMap fun (name, v) => [name, v.text]

/-- The texts that an item of an array shows in a table. If the first item is an object,
objects show their fields and others nothing; if it is an array, arrays show their
items. Any other item shows itself. -/
def shownTexts (first : Value) (item : Value) : List String :=
  match first, item with
  | .obj _, .obj fields => fieldTexts fields
  | .obj _, _ => []
  | .arr _, .arr items => items.map Value.text
  | _, v => [v.text]

/-- The texts and names that a table shows. -/
def cellTexts : Value → List String
  | .obj fields => fieldTexts fields
  | .arr (first :: rest) => (first :: rest).flatMap (shownTexts first)
  | _ => []

/-- The number of cells that an item of an array of arrays has. -/
def itemWidth : Value → Nat
  | .arr items => items.length
  | _ => 1

/-- Names for the columns that are as many as the cells of a row, where they do not
decide about the rows. -/
def HeaderFits (header : List String) : Value → Prop
  | .arr (.arr first :: rest) =>
    header ≠ [] → header.length = ((Value.arr first :: rest).map itemWidth).foldl max 1
  | _ => True

/-! Plain texts. -/

theorem plain_empty : Plain "" := ⟨by decide, by decide⟩

/-- A cell without bars is written as it is. -/
theorem replaceAll_bar {cs : List Char} (h : '|' ∉ cs) (replacement : List Char) :
    replaceAll ['|'] replacement cs = cs := by
  have hSome : ['|'] ≠ [] := List.cons_ne_nil _ _
  induction cs with
  | nil => exact replaceAll_nil replacement hSome
  | cons c cs ih =>
      obtain ⟨hFirst, hRest⟩ := List.ne_and_not_mem_of_not_mem_cons h
      rw [replaceAll_cons replacement hSome (by simpa using hFirst), ih hRest]

/-- A plain text is its own cell. -/
theorem cell_of_plain {v : Value} (h : Plain v.text) : cell v = v.text := by
  rw [cell, replaceAll_bar h.1, String.ofList_toList]

theorem plain_cell {v : Value} (h : Plain v.text) : Plain (cell v) := by
  rw [cell_of_plain h]
  exact h

theorem plain_cell_str {s : String} (h : Plain s) : Plain (cell (.str s)) := by
  have hText : (Value.str s).text = s := rfl
  exact plain_cell (hText.symm ▸ h)

/-- Lines are found again between the line breaks. -/
theorem pieces_joinWith {lines : List String} (hSome : lines ≠ [])
    (hLines : ∀ line ∈ lines, '\n' ∉ line.toList) : pieces '\n' (joinWith "\n" lines) = lines := by
  have hBreak : "\n".toList = ['\n'] := rfl
  have hSplit : List.splitOn '\n' (['\n'].intercalate (lines.map String.toList)) =
      lines.map String.toList := by
    refine List.splitOn_intercalate '\n' (fun cs hMem => ?_) (by simpa using hSome)
    obtain ⟨line, hLine, rfl⟩ := List.mem_map.mp hMem
    exact hLines line hLine
  have hSame : String.ofList ∘ String.toList = id := funext fun _ => String.ofList_toList
  rw [pieces, splitOnChar_eq_splitOn, joinWith, String.toList_intercalate, hBreak, hSplit, List.map_map,
    hSame, List.map_id]

/-! Lines of a table. -/

/-- How often a character stands in joined texts in which it does not stand itself. -/
theorem count_joinWith (sep : String) (c : Char) {cells : List String}
    (hCells : ∀ cell ∈ cells, c ∉ cell.toList) :
    (joinWith sep cells).toList.count c = (cells.length - 1) * sep.toList.count c := by
  induction cells with
  | nil => simp [joinWith]
  | cons first cells ih =>
      obtain ⟨hFirst, hRest⟩ := List.forall_mem_cons.mp hCells
      cases cells with
      | nil => simp [joinWith, List.count_eq_zero_of_not_mem hFirst]
      | cons second cells =>
          have hLater := ih hRest
          rw [joinWith, String.intercalate_cons_cons, String.toList_append, String.toList_append,
            List.count_append, List.count_append, ← joinWith, hLater,
            List.count_eq_zero_of_not_mem hFirst]
          simp only [List.length_cons, Nat.add_sub_cancel, Nat.zero_add]
          ring

/-- The bars of a line are those around and between its cells. -/
theorem count_tableLine (c : Char) {cells : List String} (hCells : ∀ cell ∈ cells, c ∉ cell.toList) :
    (tableLine cells).toList.count c =
      (cells.length - 1) * [' ', '|', ' '].count c + 2 * ['|', ' '].count c := by
  have hOpen : "| ".toList = ['|', ' '] := rfl
  have hClose : " |".toList = [' ', '|'] := rfl
  have hBetween : " | ".toList = [' ', '|', ' '] := rfl
  rw [tableLine, String.toList_append, String.toList_append, List.count_append, List.count_append,
    count_joinWith " | " c hCells, hOpen, hClose, hBetween, (List.Perm.swap '|' ' ' []).count_eq c]
  ring

/-- A line has a bar in front of each of its cells and one behind the last. -/
theorem bars_tableLine {cells : List String} (hCells : ∀ cell ∈ cells, Plain cell) :
    bars (tableLine cells) = max cells.length 1 + 1 := by
  rw [bars, count_tableLine '|' fun cell hMem => (hCells cell hMem).1]
  show (cells.length - 1) * 1 + 2 * 1 = _
  omega

theorem not_mem_tableLine {cells : List String} (hCells : ∀ cell ∈ cells, Plain cell) :
    '\n' ∉ (tableLine cells).toList := by
  rw [← List.count_eq_zero, count_tableLine '\n' fun cell hMem => (hCells cell hMem).2]
  rfl

section
variable {header : List String} {rows : List (List String)} (hHeader : ∀ cell ∈ header, Plain cell)
  (hRows : ∀ row ∈ rows, ∀ cell ∈ row, Plain cell)

theorem plain_dashes (count : Nat) : ∀ cell ∈ List.replicate count "-", Plain cell :=
  List.forall_mem_replicate.mpr (.inr (by decide))

include hHeader hRows

/-- A table consists of its header, the line below it and its rows. -/
theorem pieces_tableText : pieces '\n' (tableText header rows) =
    tableLine header :: tableLine (List.replicate header.length "-") :: rows.map tableLine := by
  refine pieces_joinWith (List.cons_ne_nil _ _) fun line hLine => ?_
  rcases List.mem_cons.mp hLine with rfl | hLine
  · exact not_mem_tableLine hHeader
  rcases List.mem_cons.mp hLine with rfl | hLine
  · exact not_mem_tableLine (plain_dashes header.length)
  · obtain ⟨row, hRow, rfl⟩ := List.mem_map.mp hLine
    exact not_mem_tableLine (hRows row hRow)

/-- The bars agree if the widths do. A line without cells looks like one with an empty cell. -/
theorem rectangular_tableText_iff : Rectangular (tableText header rows) ↔
    ∀ row ∈ rows, max row.length 1 = max header.length 1 := by
  have hBelow := bars_tableLine (plain_dashes header.length)
  rw [List.length_replicate] at hBelow
  rw [Rectangular, pieces_tableText hHeader hRows]
  constructor
  · rintro ⟨count, hCount⟩ row hRow
    have hFirst := hCount _ List.mem_cons_self
    have hLine := hCount (tableLine row)
      (List.mem_cons_of_mem _ (List.mem_cons_of_mem _ (List.mem_map_of_mem hRow)))
    rw [bars_tableLine hHeader] at hFirst
    rw [bars_tableLine (hRows row hRow)] at hLine
    omega
  · refine fun hWidths => ⟨max header.length 1 + 1, fun line hLine => ?_⟩
    rcases List.mem_cons.mp hLine with rfl | hLine
    · exact bars_tableLine hHeader
    rcases List.mem_cons.mp hLine with rfl | hLine
    · exact hBelow
    · obtain ⟨row, hRow, rfl⟩ := List.mem_map.mp hLine
      rw [bars_tableLine (hRows row hRow), hWidths row hRow]

end

/-! The table of a value. -/

/-- A text that is a table of plain cells. Its rows are as wide as its header exactly
under a condition. -/
structure IsTable (header : List String) (rows : List (List String)) (fits : Prop) (s : String) :
    Prop where
  text : s = tableText header rows
  plainHeader : ∀ cell ∈ header, Plain cell
  plainRows : ∀ row ∈ rows, ∀ cell ∈ row, Plain cell
  widths : (∀ row ∈ rows, max row.length 1 = max header.length 1) ↔ fits

theorem plain_texts {vs : List Value} (h : ∀ v ∈ vs, Plain v.text) : ∀ c ∈ vs.map cell, Plain c := by
  intro c hMem
  obtain ⟨v, hValue, rfl⟩ := List.mem_map.mp hMem
  exact plain_cell (h v hValue)

theorem plain_fields {fields : List (String × Value)} (h : ∀ t ∈ fieldTexts fields, Plain t) :
    ∀ field ∈ fields, Plain field.1 ∧ Plain field.2.text := by
  intro field hMem
  have hField {t : String} (hText : t ∈ [field.1, field.2.text]) : Plain t :=
    h t (List.mem_flatMap.mpr ⟨field, hMem, hText⟩)
  exact ⟨hField List.mem_cons_self, hField (List.mem_cons_of_mem _ List.mem_cons_self)⟩

theorem plain_padCells {cells : List String} (h : ∀ c ∈ cells, Plain c) (width : Nat) :
    ∀ c ∈ padCells width cells, Plain c := by
  have hPadding : ∀ c ∈ List.replicate (width - cells.length) "", Plain c :=
    List.forall_mem_replicate.mpr (.inr plain_empty)
  exact List.forall_mem_append.mpr ⟨h, hPadding⟩

theorem length_padCells {width : Nat} {cells : List String} (h : cells.length ≤ width) :
    (padCells width cells).length = width := by
  rw [padCells, List.length_append, List.length_replicate]
  omega

/-- A field as a row of two cells. -/
def fieldCells (field : String × Value) : List String := [cell (.str field.1), cell field.2]

/-- The fields of an object are rows of two cells, the first of them at the head. -/
theorem isTable_fields {field : String × Value} {rest : List (String × Value)}
    (h : ∀ t ∈ fieldTexts (field :: rest), Plain t) :
    IsTable (fieldCells field) (rest.map fieldCells) True
      (tableText (fieldCells field) (rest.map fieldCells)) := by
  have hCells : ∀ entry ∈ field :: rest, ∀ c ∈ fieldCells entry, Plain c := by
    intro entry hMem
    obtain ⟨hName, hText⟩ := plain_fields h entry hMem
    exact List.forall_mem_cons.mpr
      ⟨plain_cell_str hName, List.forall_mem_singleton.mpr (plain_cell hText)⟩
  refine ⟨rfl, hCells field List.mem_cons_self, fun row hRow => ?_,
    iff_of_true (fun row hRow => ?_) trivial⟩
  · obtain ⟨entry, hEntry, rfl⟩ := List.mem_map.mp hRow
    exact hCells entry (List.mem_cons_of_mem _ hEntry)
  · obtain ⟨entry, _, rfl⟩ := List.mem_map.mp hRow
    rfl

/-- An object has a cell in every column. -/
theorem plain_columnCells {columns : List String} {first : List (String × Value)} {item : Value}
    (h : ∀ t ∈ shownTexts (.obj first) item, Plain t) : ∀ c ∈ columnCells columns item, Plain c := by
  intro c hMem
  cases item with
  | obj fields =>
      obtain ⟨column, _, rfl⟩ := List.mem_map.mp hMem
      cases hFound : Assoc.get? fields column with
      | none => exact plain_cell plain_empty
      | some v => exact plain_cell (plain_fields h (column, v) (Assoc.mem_of_get? hFound)).2
  | _ =>
      obtain ⟨column, _, rfl⟩ := List.mem_map.mp hMem
      exact plain_empty

theorem length_columnCells (columns : List String) (item : Value) :
    (columnCells columns item).length = columns.length := by
  cases item <;> exact List.length_map _

theorem length_rowCells (item : Value) : (rowCells item).length = itemWidth item := by
  cases item with
  | arr items => exact List.length_map _
  | _ => rfl

theorem plain_rowCells {first : List Value} {item : Value}
    (h : ∀ t ∈ shownTexts (.arr first) item, Plain t) : ∀ c ∈ rowCells item, Plain c := by
  cases item with
  | arr items => exact plain_texts fun v hMem => h v.text (List.mem_map_of_mem hMem)
  | _ => exact List.forall_mem_singleton.mpr (plain_cell (h _ List.mem_cons_self))

theorem foldl_max (start : Nat) (widths : List Nat) :
    widths.foldl max start = max start (widths.foldl max 0) := by
  have hStart : max start 0 = start := Nat.max_zero start
  rw [← hStart, List.foldl_assoc, hStart]

/-- The width of a table is at least that of each row. -/
theorem le_foldl_max {widths : List Nat} {width : Nat} (h : width ∈ widths) :
    width ≤ widths.foldl max 0 := by
  induction widths with
  | nil => cases h
  | cons first widths ih =>
      rw [List.foldl_cons, Nat.zero_max, foldl_max]
      rcases List.mem_cons.mp h with rfl | hRest
      · exact le_max_left _ _
      · exact (ih hRest).trans (le_max_right _ _)

/-- Rows of arrays are as wide as the widest one. Names for the columns come as they are. -/
theorem isTable_arrays {header : List String} (hHeader : ∀ c ∈ header, Plain c) {first : List Value}
    {rest : List Value} (h : ∀ t ∈ cellTexts (.arr (.arr first :: rest)), Plain t) :
    let items := Value.arr first :: rest
    let width := ((items.map rowCells).map List.length).foldl max 0
    IsTable (if header = [] then List.replicate width "" else header)
      ((items.map rowCells).map (padCells width)) (HeaderFits header (.arr items))
      (tableOfItems header (.arr first) items) := by
  intro items width
  have hWidths : (items.map rowCells).map List.length = items.map itemWidth := by
    rw [List.map_map]
    exact List.map_congr_left fun item _ => length_rowCells item
  have hRow : ∀ row ∈ (items.map rowCells).map (padCells width),
      row.length = width ∧ ∀ c ∈ row, Plain c := by
    intro row hMem
    obtain ⟨cells, hCells, rfl⟩ := List.mem_map.mp hMem
    obtain ⟨item, hItem, rfl⟩ := List.mem_map.mp hCells
    have hLength : (rowCells item).length ≤ width := le_foldl_max (List.mem_map_of_mem hCells)
    have hPlain := plain_rowCells fun t hText => h t (List.mem_flatMap.mpr ⟨item, hItem, hText⟩)
    exact ⟨length_padCells hLength, plain_padCells hPlain width⟩
  refine ⟨rfl, ?_, fun row hMem => (hRow row hMem).2, ?_⟩
  · split
    · exact List.forall_mem_replicate.mpr (.inr plain_empty)
    · exact hHeader
  · rw [HeaderFits, foldl_max, ← hWidths]
    split
    · next hNone =>
      refine iff_of_true (fun row hMem => ?_) (absurd hNone)
      rw [(hRow row hMem).1, List.length_replicate]
    · next hSome =>
      have hPos : 0 < header.length := List.length_pos_iff.mpr hSome
      constructor
      · intro hEven _
        have hFirst := hEven _ List.mem_cons_self
        rw [(hRow _ List.mem_cons_self).1] at hFirst
        omega
      · intro hFits row hMem
        have hSame := hFits hSome
        rw [(hRow row hMem).1]
        omega

/-- Objects have a cell in each column, and what is no object has empty ones. -/
theorem isTable_objects {header : List String} (hHeader : ∀ c ∈ header, Plain c)
    {fields : List (String × Value)} {rest : List Value}
    (h : ∀ t ∈ cellTexts (.arr (.obj fields :: rest)), Plain t) :
    let items := Value.obj fields :: rest
    let columns := if header = [] then fields.map (·.1) else header
    IsTable columns (items.map (columnCells columns)) (HeaderFits header (.arr items))
      (tableOfItems header (.obj fields) items) := by
  intro items columns
  refine ⟨rfl, ?_, fun row hMem => ?_, iff_of_true (fun row hMem => ?_) trivial⟩
  · have hFields := plain_fields fun t hText =>
      h t (List.mem_flatMap.mpr ⟨.obj fields, List.mem_cons_self, hText⟩)
    show ∀ c ∈ if header = [] then fields.map (·.1) else header, Plain c
    split
    · intro c hMem
      obtain ⟨field, hField, rfl⟩ := List.mem_map.mp hMem
      exact (hFields field hField).1
    · exact hHeader
  · obtain ⟨item, hItem, rfl⟩ := List.mem_map.mp hMem
    exact plain_columnCells fun t hText => h t (List.mem_flatMap.mpr ⟨item, hItem, hText⟩)
  · obtain ⟨item, _, rfl⟩ := List.mem_map.mp hMem
    rw [length_columnCells]

/-- The rows of given length hold the items and no more of them than fit. -/
theorem chunks_spec (width : Nat) (items : List Value) : ∀ row ∈ chunks (width + 1) items,
    row.length ≤ width + 1 ∧ ∀ v ∈ row, v ∈ items := by
  fun_induction chunks (width + 1) items with
  | case1 => exact List.forall_mem_nil _
  | case2 v rest ih =>
      refine List.forall_mem_cons.mpr ⟨⟨?_, ?_⟩, fun row hRow => ?_⟩
      · rw [List.length_cons, List.length_take]
        omega
      · exact List.forall_mem_cons.mpr
          ⟨List.mem_cons_self, fun v hMem => List.mem_cons_of_mem _ (List.mem_of_mem_take hMem)⟩
      · refine ⟨(ih row hRow).1, fun v hMem => ?_⟩
        exact List.mem_cons_of_mem _ (List.mem_of_mem_drop ((ih row hRow).2 v hMem))

/-- A value that is neither an array nor an object. -/
def IsScalar : Value → Prop
  | .arr _ | .obj _ => False
  | _ => True

theorem shownTexts_scalar {first : Value} (hFirst : IsScalar first) (item : Value) :
    shownTexts first item = [item.text] := by
  cases first with
  | arr | obj => exact hFirst.elim
  | _ => rfl

/-- Single items are put below each other, or into rows as wide as a given header. -/
theorem isTable_items {header : List String} (hHeader : ∀ c ∈ header, Plain c) {first : Value}
    {rest : List Value} (hFirst : IsScalar first) (h : ∀ t ∈ cellTexts (.arr (first :: rest)), Plain t) :
    ∃ top rows, IsTable top rows True (tableOfItems header first (first :: rest)) := by
  have hItems : ∀ v ∈ first :: rest, Plain v.text := by
    intro v hMem
    refine h v.text (List.mem_flatMap.mpr ⟨v, hMem, ?_⟩)
    rw [shownTexts_scalar hFirst]
    exact List.mem_singleton_self _
  have hTable : tableOfItems header first (first :: rest) =
      if header = [] then tableText ["Value"] ((first :: rest).map fun v => [cell v])
      else tableText header
        ((chunks header.length (first :: rest)).map fun row => padCells header.length (row.map cell)) := by
    cases first with
    | arr | obj => exact hFirst.elim
    | _ => rfl
  rw [hTable]
  split
  · refine ⟨_, _, rfl, ?_, fun row hMem => ?_, iff_of_true (fun row hMem => ?_) trivial⟩
    · exact List.forall_mem_singleton.mpr ⟨by decide, by decide⟩
    · obtain ⟨v, hValue, rfl⟩ := List.mem_map.mp hMem
      exact List.forall_mem_singleton.mpr (plain_cell (hItems v hValue))
    · obtain ⟨v, _, rfl⟩ := List.mem_map.mp hMem
      rfl
  · next hSome =>
    obtain ⟨width, hWidth⟩ := Nat.exists_eq_succ_of_ne_zero (mt List.length_eq_zero_iff.mp hSome)
    have hChunks := chunks_spec width (first :: rest)
    rw [hWidth]
    refine ⟨_, _, rfl, hHeader, fun row hMem => ?_, iff_of_true (fun row hMem => ?_) trivial⟩
    · obtain ⟨items, hChunk, rfl⟩ := List.mem_map.mp hMem
      exact plain_padCells (plain_texts fun v hValue => hItems v ((hChunks items hChunk).2 v hValue)) _
    · obtain ⟨items, hChunk, rfl⟩ := List.mem_map.mp hMem
      have hLength : (items.map cell).length ≤ width + 1 := by
        rw [List.length_map]
        exact (hChunks items hChunk).1
      rw [length_padCells hLength, hWidth]

section
variable {s : String} {v : Value} (hRead : Value.ofJson? s = some v) (hFilled : HasEntries v)
include hRead hFilled

/-- What is read as an array or object is not taken for nothing. -/
theorem isMissing_of_read : isMissing s = false := by
  have hNot {other : String} (hOther : ∀ v, Value.ofJson? other = some v → ¬ HasEntries v) :
      s ≠ other := by
    rintro rfl
    exact hOther v hRead hFilled
  have hEmpty : s ≠ "" := hNot fun v h => by cases h
  have hUndefined : s ≠ "undefined" := hNot fun v h => by cases h
  have hNull : s ≠ "null" := hNot fun v h => by
    cases h
    exact id
  simp [isMissing, hEmpty, hUndefined, hNull]

/-- Whatever has entries is shown as a table. -/
theorem exists_isTable (hCells : ∀ t ∈ cellTexts v, Plain t) {param : Option String}
    (hHeader : ∀ c ∈ Param.list param, Plain c) :
    ∃ header rows, IsTable header rows (HeaderFits (Param.list param) v) (table s param) := by
  have hMissing := isMissing_of_read hRead hFilled
  cases v with
  | null | bool | int | float | str => exact hFilled.elim
  | obj fields =>
      obtain ⟨field, rest, rfl⟩ := List.exists_cons_of_ne_nil hFilled
      have hTable : table s param = tableText (fieldCells field) (rest.map fieldCells) := by
        rw [table, hMissing, hRead]
        rfl
      rw [hTable]
      exact ⟨_, _, isTable_fields hCells⟩
  | arr items =>
      obtain ⟨first, rest, rfl⟩ := List.exists_cons_of_ne_nil hFilled
      have hTable : table s param = tableOfItems (Param.list param) first (first :: rest) := by
        rw [table, hMissing, hRead]
        rfl
      rw [hTable]
      cases first with
      | obj fields => exact ⟨_, _, isTable_objects hHeader hCells⟩
      | arr items => exact ⟨_, _, isTable_arrays hHeader hCells⟩
      | null | bool | int | float | str =>
          obtain ⟨top, rows, hItems⟩ := isTable_items hHeader (by trivial) hCells
          exact ⟨top, rows, hItems⟩

/-- An array or object whose texts have no bars and no line breaks is shown as a table,
which consists of a header, a line below it and its rows. All lines have the same
number of bars, except where names of columns are given for arrays and are not as
many as the widest of these has items. -/
theorem table_rectangular_iff (hCells : ∀ t ∈ cellTexts v, Plain t) {param : Option String}
    (hHeader : ∀ c ∈ Param.list param, Plain c) :
    (∃ (header : List String) (rows : List (List String)), pieces '\n' (table s param) =
      tableLine header :: tableLine (List.replicate header.length "-") :: rows.map tableLine) ∧
      (Rectangular (table s param) ↔ HeaderFits (Param.list param) v) := by
  obtain ⟨header, rows, hTable⟩ := exists_isTable hRead hFilled hCells hHeader
  rw [hTable.text, rectangular_tableText_iff hTable.plainHeader hTable.plainRows]
  exact ⟨⟨header, rows, pieces_tableText hTable.plainHeader hTable.plainRows⟩, hTable.widths⟩

end

/-- Two names above arrays of two and one items and an item that is no array. -/
theorem table_rectangular_iff_ragged :
    let s := "[[\"a\",\"b\"],[\"c\"],7]"
    let v := Value.arr [.arr [.str "a", .str "b"], .arr [.str "c"], .int 7]
    let param := some "(\"A\", \"B\")"
    Value.ofJson? s = some v ∧ HasEntries v ∧ (∀ t ∈ cellTexts v, Plain t) ∧
      (∀ c ∈ Param.list param, Plain c) ∧
      table s param = "| A | B |\n| - | - |\n| a | b |\n| c |  |\n| 7 |  |" ∧
      Rectangular (table s param) := by
  intro s v param
  have hFaithful : v.Faithful := by
    refine .arr ?_
    simp only [List.forall_mem_cons]
    exact ⟨Value.faithful_texts ["a", "b"], Value.faithful_texts ["c"], .int (by decide +kernel), nofun⟩
  have hRead : Value.ofJson? s = some v :=
    hFaithful.ofJson?_eq Value.Json.sound_compact (by decide +kernel)
  have hFilled : HasEntries v := List.cons_ne_nil _ _
  have hCells : ∀ t ∈ cellTexts v, Plain t := by decide +kernel
  have hHeader : ∀ c ∈ Param.list param, Plain c := by decide +kernel
  refine ⟨hRead, hFilled, hCells, hHeader, by decide +kernel, ?_⟩
  have hFits : HeaderFits (Param.list param) v := fun _ => by decide +kernel
  exact (table_rectangular_iff hRead hFilled hCells hHeader).2.mpr hFits

/-- One item below two names. -/
theorem table_short_row :
    let s := "[[\"a\"]]"
    let v := Value.arr [.arr [.str "a"]]
    let param := some "(\"A\",\"B\")"
    Value.ofJson? s = some v ∧ HasEntries v ∧ (∀ t ∈ cellTexts v, Plain t) ∧
      (∀ c ∈ Param.list param, Plain c) ∧ table s param = "| A | B |\n| - | - |\n| a |" ∧
      ¬ Rectangular (table s param) := by
  intro s v param
  have hFaithful : v.Faithful := .arr (List.forall_mem_singleton.mpr (Value.faithful_texts ["a"]))
  have hRead : Value.ofJson? s = some v :=
    hFaithful.ofJson?_eq Value.Json.sound_compact (by decide +kernel)
  have hText : table s param = "| A | B |\n| - | - |\n| a |" := by decide +kernel
  refine ⟨hRead, List.cons_ne_nil _ _, by decide +kernel, by decide +kernel, hText, ?_⟩
  rintro ⟨count, hCount⟩
  rw [hText] at hCount
  have hHeader := hCount "| A | B |" (by decide +kernel)
  have hRow := hCount "| a |" (by decide +kernel)
  rw [← hRow] at hHeader
  exact absurd hHeader (by decide)

end NoteTemplate.Filter
