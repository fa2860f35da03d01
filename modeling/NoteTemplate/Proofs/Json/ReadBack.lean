import NoteTemplate.Proofs.Json.Scalars
import NoteTemplate.Filter.Registry

/-! Reading back the JSON text of a value. A value without floating-point numbers, in
which no integer is too long and no key stands twice in one object, is found again
in its text, at any depth. Filters that leave a text alone therefore leave arrays
and objects alone, if they can be written at all. -/
namespace NoteTemplate

namespace Assoc

variable {κ α : Type} [DecidableEq κ]

theorem set_of_notMem {entries : Assoc κ α} {key : κ} (h : key ∉ entries.map (·.1)) (entry : α) :
    Assoc.set entries key entry = entries ++ [(key, entry)] := by
  induction entries with
  | nil => rfl
  | cons field rest ih =>
      rw [List.map_cons, List.mem_cons, not_or] at h
      rw [Assoc.set, if_neg (Ne.symm h.1), ih h.2, List.cons_append]

/-- Pairs under distinct keys are kept as they are. -/
theorem ofPairs_of_nodup {pairs : List (κ × α)} (h : (pairs.map (·.1)).Nodup) :
    Assoc.ofPairs pairs = pairs := by
  have hFold (entries : Assoc κ α) (pairs : List (κ × α))
      (h : ((entries ++ pairs).map (·.1)).Nodup) :
      pairs.foldl (fun entries field => Assoc.set entries field.1 field.2) entries =
        entries ++ pairs := by
    induction pairs generalizing entries with
    | nil => simp
    | cons field rest ih =>
        obtain ⟨key, entry⟩ := field
        have hNew : key ∉ entries.map (·.1) := by
          rw [List.map_append, List.map_cons, List.nodup_append] at h
          exact fun hMem => h.2.2 key hMem key (by simp) rfl
        rw [List.foldl_cons]
        show rest.foldl _ (Assoc.set entries key entry) = _
        rw [set_of_notMem hNew, ih _ (by rwa [List.append_assoc]), List.append_assoc]
        rfl
  exact hFold [] pairs h

end Assoc

namespace Value

open Text Json

/-- A value that is found again in its JSON text. -/
inductive Faithful : Value → Prop where
  | null : Faithful .null
  | bool (b : Bool) : Faithful (.bool b)
  | int {n : Int} (hLength : n.natAbs < Decimal.digitLimit) : Faithful (.int n)
  | str (s : String) : Faithful (.str s)
  | arr {items : List Value} (hItems : ∀ item ∈ items, Faithful item) : Faithful (.arr items)
  | obj {fields : List (String × Value)} (hKeys : (fields.map (·.1)).Nodup)
      (hFields : ∀ field ∈ fields, Faithful field.2) : Faithful (.obj fields)

/-- A value without floating-point numbers, in which no object has a key twice. -/
inductive Floatless : Value → Prop where
  | null : Floatless .null
  | bool (b : Bool) : Floatless (.bool b)
  | int (n : Int) : Floatless (.int n)
  | str (s : String) : Floatless (.str s)
  | arr {items : List Value} (hItems : ∀ item ∈ items, Floatless item) : Floatless (.arr items)
  | obj {fields : List (String × Value)} (hKeys : (fields.map (·.1)).Nodup)
      (hFields : ∀ field ∈ fields, Floatless field.2) : Floatless (.obj fields)

/-- What can be written of such values is found again. -/
theorem Floatless.faithful {v : Value} (h : Floatless v) (hWritable : v.writable = true) :
    Faithful v := by
  induction h with
  | null => exact .null
  | bool b => exact .bool b
  | int n => exact .int (by simpa [writable] using hWritable)
  | str s => exact .str s
  | arr _ ih =>
      rw [writable, itemsWritable_iff] at hWritable
      exact .arr fun item hMem => ih item hMem (hWritable item hMem)
  | obj hKeys _ ih =>
      rw [writable, fieldsWritable_iff] at hWritable
      exact .obj hKeys fun field hMem => ih field hMem (hWritable field hMem)

theorem faithful_texts (texts : List String) : Faithful (.arr (texts.map .str)) :=
  .arr (List.forall_mem_map.mpr fun s _ => .str s)

theorem Faithful.of_mem_arr {items : List Value} (h : Faithful (.arr items)) {item : Value}
    (hMem : item ∈ items) : Faithful item := by
  cases h with
  | arr hItems => exact hItems item hMem

theorem Faithful.of_mem_obj {fields : List (String × Value)} (h : Faithful (.obj fields))
    {field : String × Value} (hMem : field ∈ fields) : Faithful field.2 := by
  cases h with
  | obj _ hFields => exact hFields field hMem

theorem Faithful.arr_of_sublist {kept items : List Value} (h : Faithful (.arr items))
    (hKept : kept.Sublist items) : Faithful (.arr kept) :=
  .arr fun _ hMem => h.of_mem_arr (hKept.subset hMem)

theorem Faithful.obj_of_sublist {kept fields : List (String × Value)} (h : Faithful (.obj fields))
    (hKept : kept.Sublist fields) : Faithful (.obj kept) := by
  refine .obj ?_ fun _ hMem => h.of_mem_obj (hKept.subset hMem)
  cases h with
  | obj hKeys _ => exact (hKept.map (·.1)).nodup hKeys

/-- A text begins with a character that is neither skipped nor closes anything. -/
def Begins (cs : List Char) : Prop :=
  ∃ c rest, cs = c :: rest ∧ isSpace c = false ∧ c ≠ ']' ∧ c ≠ '\x7d'

/-- What is put behind the beginning of a value does not change it. -/
theorem Begins.append {cs : List Char} (h : Begins cs) (rest : List Char) : Begins (cs ++ rest) := by
  obtain ⟨c, behind, rfl, hFirst⟩ := h
  exact ⟨c, behind ++ rest, rfl, hFirst⟩

/-- There are no blanks to skip in front of a value. -/
theorem Begins.skipSpace_eq {cs : List Char} (h : Begins cs) : skipSpace cs = cs := by
  obtain ⟨c, rest, rfl, hSpace, _⟩ := h
  rw [skipSpace, List.dropWhile_cons_of_neg (by simp [hSpace])]

theorem Begins.exists_succ {cs : List Char} (h : Begins cs) {fuel : Nat} (hFuel : cs.length ≤ fuel) :
    ∃ steps, fuel = steps + 1 := by
  obtain ⟨c, rest, rfl, _⟩ := h
  rw [List.length_cons] at hFuel
  exact Nat.exists_eq_succ_of_ne_zero (by omega)

theorem Begins.skipSpace_append {cs : List Char} (h : Begins cs) {blanks : List Char}
    (hBlanks : ∀ c ∈ blanks, isSpace c = true) : skipSpace (blanks ++ cs) = cs := by
  rw [skipSpace, List.dropWhile_append_of_pos hBlanks]
  exact h.skipSpace_eq

theorem begins_quoted (cs : List Char) : Begins (quoted cs) := ⟨'"', _, rfl, by decide⟩

theorem begins_separated {first : List Char} (h : Begins first) (sep : List Char)
    (others : List (List Char)) : Begins (separated sep (first :: others)) := by
  cases others with
  | nil => exact h
  | cons next more => exact (h.append _).append _

/-- Nothing but blanks stands behind the comma and the colon of a spacing. -/
structure Json.Spacing.Sound (spacing : Spacing) : Prop where
  comma : ∃ blanks, spacing.comma.toList = ',' :: blanks ∧ ∀ c ∈ blanks, isSpace c = true
  colon : ∃ blanks, spacing.colon.toList = ':' :: blanks ∧ ∀ c ∈ blanks, isSpace c = true

theorem Json.sound_compact : compact.Sound := ⟨⟨[], rfl, by simp⟩, ⟨[], rfl, by simp⟩⟩

theorem Json.sound_spaced : spaced.Sound :=
  ⟨⟨[' '], rfl, by simp [isSpace]⟩, ⟨[' '], rfl, by simp [isSpace]⟩⟩

/-- A value can be read at the front of a text: with fuel for each character of its
own text it is found up to what closes it. -/
structure ReadsBack (spacing : Spacing) (v : Value) : Prop where
  begins : Begins (write spacing v)
  reads : ∀ fuel rest, (write spacing v).length ≤ fuel → Closes rest →
    readValue? fuel (write spacing v ++ rest) = some (v, rest)

/-- A name does not begin with a digit, alone or behind a minus. -/
theorem readName?_of_isAsciiDigit {c : Char} (h : isAsciiDigit c = true) (rest : List Char) :
    readName? (c :: rest) = none ∧ readName? ('-' :: c :: rest) = none := by
  have hNe {d : Char} (hd : isAsciiDigit d = false) : d ≠ c := by
    rintro rfl
    rw [h] at hd
    cases hd
  simp [readName?, readName?.names, dropPrefix?, hNe (d := 'n') rfl, hNe (d := 't') rfl,
    hNe (d := 'f') rfl, hNe (d := 'N') rfl, hNe (d := 'I') rfl, hNe (d := '-') rfl]

/-- A value that begins with a digit is a number. -/
theorem readValue?_of_isAsciiDigit (fuel : Nat) {c : Char} (h : isAsciiDigit c = true)
    (rest : List Char) : readValue? (fuel + 1) (c :: rest) = readNumber? false (c :: rest) := by
  have hNe {d : Char} (hd : isAsciiDigit d = false) (other : List Char) :
      c :: rest = d :: other → False := by
    rintro hSame
    rw [← (List.cons.inj hSame).1, h] at hd
    cases hd
  rw [readValue?.eq_6 _ _ (hNe rfl) (hNe rfl) (hNe rfl) (hNe rfl),
    (readName?_of_isAsciiDigit h rest).1]
  cases readNumber? false (c :: rest) <;> rfl

/-- A value that begins with a minus and a digit is a number. -/
theorem readValue?_minus (fuel : Nat) {c : Char} (h : isAsciiDigit c = true) (rest : List Char) :
    readValue? (fuel + 1) ('-' :: c :: rest) = readNumber? true (c :: rest) := by
  rw [readValue?, (readName?_of_isAsciiDigit h rest).2]
  cases readNumber? true (c :: rest) <;> rfl

/-- An integer is read back, or it is refused for its length. -/
theorem readValue?_int (spacing : Spacing) (fuel : Nat) (n : Int) {rest : List Char}
    (h : Closes rest) : readValue? (fuel + 1) (write spacing (.int n) ++ rest) =
      if n.natAbs < Decimal.digitLimit then some (.int n, rest) else none := by
  have hText : write spacing (.int n) = (if n < 0 then ['-'] else []) ++ Nat.toDigits 10 n.natAbs :=
    intText_toList n
  have hAll := isAsciiDigit_of_mem_toDigits (n := n.natAbs)
  have hRead (negative : Bool) := readNumber?_toDigits negative n.natAbs h
  cases hDigits : Nat.toDigits 10 n.natAbs with
  | nil => exact absurd hDigits Nat.toDigits_ne_nil
  | cons first digits =>
      rw [hDigits] at hText hAll hRead
      have hFirst : isAsciiDigit first = true := hAll first List.mem_cons_self
      by_cases hNegative : n < 0
      · have hValue : (if true = true then -(n.natAbs : Int) else n.natAbs) = n := by
          rw [if_pos rfl]
          omega
        have hNumber := hRead true
        rw [hValue] at hNumber
        rw [hText, if_pos hNegative]
        exact (readValue?_minus fuel hFirst (digits ++ rest)).trans hNumber
      · have hValue : (if false = true then -(n.natAbs : Int) else n.natAbs) = n := by
          rw [if_neg Bool.false_ne_true]
          omega
        have hNumber := hRead false
        rw [hValue] at hNumber
        rw [hText, if_neg hNegative]
        exact (readValue?_of_isAsciiDigit fuel hFirst (digits ++ rest)).trans hNumber

/-- A number ends in front of a comma. -/
theorem closes_comma (rest : List Char) : Closes (',' :: rest) := by
  intro c hHead
  exact .inl (Option.some.inj hHead).symm

/-- A number ends in front of a closing bracket. -/
theorem closes_bracket (rest : List Char) : Closes (']' :: rest) := by
  intro c hHead
  exact .inr (.inl (Option.some.inj hHead).symm)

theorem closes_brace (rest : List Char) : Closes ('\x7d' :: rest) := by
  intro c hHead
  exact .inr (.inr (Option.some.inj hHead).symm)

section
variable {spacing : Spacing} {v : Value} (hValue : ReadsBack spacing v) {fuel : Nat}
include hValue

/-- The last item of an array ends at the bracket. -/
theorem readItems?_last (rest : List Char) (hFuel : (write spacing v).length ≤ fuel) :
    readItems? (fuel + 1) (write spacing v ++ ']' :: rest) = some ([v], rest) := by
  rw [readItems?, hValue.reads fuel _ hFuel (closes_bracket rest)]
  rfl

/-- Other items follow behind a comma. -/
theorem readItems?_comma (rest : List Char) (hFuel : (write spacing v).length ≤ fuel) :
    readItems? (fuel + 1) (write spacing v ++ ',' :: rest) =
      (readItems? fuel (skipSpace rest)).map fun (items, rest) => (v :: items, rest) := by
  rw [readItems?, hValue.reads fuel _ hFuel (closes_comma rest)]
  show (readItems? fuel (skipSpace rest)).bind _ = _
  cases readItems? fuel (skipSpace rest) <;> rfl

variable {blanks : List Char} (hBlanks : ∀ c ∈ blanks, isSpace c = true)
include hBlanks

/-- A field is its key, a colon and its value. -/
theorem readFields?_field (key : String) (rest : List Char) (hCloses : Closes rest)
    (hFuel : (quoted key.toList ++ ':' :: (blanks ++ write spacing v)).length ≤ fuel) :
    readFields? (fuel + 1) (quoted key.toList ++ ':' :: (blanks ++ write spacing v) ++ rest) =
      match skipSpace rest with
      | '\x7d' :: rest => some ([(key, v)], rest)
      | ',' :: rest => do
        let (fields, rest) ← readFields? fuel (skipSpace rest)
        return ((key, v) :: fields, rest)
      | _ => none := by
  have hLength : (quoted key.toList ++ ':' :: (blanks ++ write spacing v)).length =
      (key.toList.flatMap escapeChar).length + (blanks.length + (write spacing v).length) + 3 := by
    simp [quoted]
    omega
  have hKey : key.toList.length < fuel := by
    have := length_le_length_escaped key.toList
    omega
  have hText : quoted key.toList ++ ':' :: (blanks ++ write spacing v) ++ rest =
      '"' :: (key.toList.flatMap escapeChar ++
        '"' :: ':' :: (blanks ++ (write spacing v ++ rest))) := by
    simp [quoted]
  have hColon (cs : List Char) : skipSpace (':' :: cs) = ':' :: cs := rfl
  rw [hText, readFields?, readString?_escaped _ _ hKey]
  simp only [Option.bind_eq_bind, Option.bind_some, hColon,
    (hValue.begins.append rest).skipSpace_append hBlanks, hValue.reads fuel rest (by omega) hCloses,
    String.ofList_toList]
  rfl

/-- The last field of an object ends at the brace. -/
theorem readFields?_last (key : String) (rest : List Char)
    (hFuel : (quoted key.toList ++ ':' :: (blanks ++ write spacing v)).length ≤ fuel) :
    readFields? (fuel + 1)
      (quoted key.toList ++ ':' :: (blanks ++ write spacing v) ++ '\x7d' :: rest) =
      some ([(key, v)], rest) :=
  readFields?_field hValue hBlanks key _ (closes_brace rest) hFuel

/-- Other fields follow behind a comma. -/
theorem readFields?_comma (key : String) (rest : List Char)
    (hFuel : (quoted key.toList ++ ':' :: (blanks ++ write spacing v)).length ≤ fuel) :
    readFields? (fuel + 1)
      (quoted key.toList ++ ':' :: (blanks ++ write spacing v) ++ ',' :: rest) =
      (readFields? fuel (skipSpace rest)).map fun (fields, rest) => ((key, v) :: fields, rest) := by
  rw [readFields?_field hValue hBlanks key _ (closes_comma rest) hFuel]
  show (readFields? fuel (skipSpace rest)).bind _ = _
  cases readFields? fuel (skipSpace rest) <;> rfl

end

section
variable {spacing : Spacing} (hSpacing : spacing.Sound)
include hSpacing

/-- The items of an array are read back up to its bracket. -/
theorem readItems?_separated {items : List Value} (hItems : ∀ item ∈ items, ReadsBack spacing item)
    (hSome : items ≠ []) {fuel : Nat} (rest : List Char)
    (hFuel : (separated spacing.comma.toList (writeItems spacing items)).length < fuel) :
    readItems? fuel (separated spacing.comma.toList (writeItems spacing items) ++ ']' :: rest) =
      some (items, rest) := by
  obtain ⟨blanks, hComma, hBlanks⟩ := hSpacing.comma
  induction items generalizing fuel with
  | nil => exact absurd rfl hSome
  | cons item others ih =>
      obtain ⟨steps, rfl⟩ : ∃ steps, fuel = steps + 1 := Nat.exists_eq_succ_of_ne_zero (by omega)
      rw [List.forall_mem_cons] at hItems
      cases others with
      | nil => exact readItems?_last hItems.1 rest (Nat.le_of_lt_succ hFuel)
      | cons next more =>
          have hText : separated spacing.comma.toList (writeItems spacing (item :: next :: more)) =
              write spacing item ++ ',' :: (blanks ++
                separated spacing.comma.toList (writeItems spacing (next :: more))) := by
            simp [writeItems, separated, hComma]
          have hBegins : Begins (separated spacing.comma.toList (writeItems spacing (next :: more))) :=
            begins_separated (hItems.2 next List.mem_cons_self).begins _ _
          have hLater := (List.suffix_append blanks
            (separated spacing.comma.toList (writeItems spacing (next :: more)))).length_le
          rw [hText, List.length_append, List.length_cons] at hFuel
          rw [hText, List.append_assoc, List.cons_append, List.append_assoc blanks,
            readItems?_comma hItems.1 _ (by omega), (hBegins.append _).skipSpace_append hBlanks,
            ih hItems.2 (List.cons_ne_nil _ _) (by omega)]
          rfl

/-- The fields of an object are read back up to its brace. -/
theorem readFields?_separated {fields : List (String × Value)}
    (hFields : ∀ field ∈ fields, ReadsBack spacing field.2) (hSome : fields ≠ []) {fuel : Nat}
    (rest : List Char)
    (hFuel : (separated spacing.comma.toList (writeFields spacing fields)).length < fuel) :
    readFields? fuel (separated spacing.comma.toList (writeFields spacing fields) ++ '\x7d' :: rest) =
      some (fields, rest) := by
  obtain ⟨blanks, hComma, hBlanks⟩ := hSpacing.comma
  obtain ⟨behindKey, hColon, hBehindKey⟩ := hSpacing.colon
  induction fields generalizing fuel with
  | nil => exact absurd rfl hSome
  | cons field others ih =>
      obtain ⟨steps, rfl⟩ : ∃ steps, fuel = steps + 1 := Nat.exists_eq_succ_of_ne_zero (by omega)
      obtain ⟨key, entry⟩ := field
      rw [List.forall_mem_cons] at hFields
      have hEntry : ReadsBack spacing entry := hFields.1
      have hField : quoted key.toList ++ spacing.colon.toList ++ write spacing entry =
          quoted key.toList ++ ':' :: (behindKey ++ write spacing entry) := by simp [hColon]
      cases others with
      | nil =>
          have hText : separated spacing.comma.toList (writeFields spacing [(key, entry)]) =
              quoted key.toList ++ ':' :: (behindKey ++ write spacing entry) := hField
          rw [hText] at hFuel ⊢
          exact readFields?_last hEntry hBehindKey key rest (Nat.le_of_lt_succ hFuel)
      | cons next more =>
          have hText : separated spacing.comma.toList
                (writeFields spacing ((key, entry) :: next :: more)) =
              quoted key.toList ++ ':' :: (behindKey ++ write spacing entry) ++
                ',' :: (blanks ++
                  separated spacing.comma.toList (writeFields spacing (next :: more))) := by
            rw [writeFields, hField]
            simp [writeFields, separated, hComma]
          have hBegins :
              Begins (separated spacing.comma.toList (writeFields spacing (next :: more))) :=
            begins_separated (((begins_quoted _).append _).append _) _ _
          have hLater := (List.suffix_append blanks
            (separated spacing.comma.toList (writeFields spacing (next :: more)))).length_le
          rw [hText, List.length_append, List.length_cons] at hFuel
          rw [hText, List.append_assoc, List.cons_append, List.append_assoc blanks,
            readFields?_comma hEntry hBehindKey key _ (by omega),
            (hBegins.append _).skipSpace_append hBlanks,
            ih hFields.2 (List.cons_ne_nil _ _) (by omega)]
          rfl

end

/-- Behind a bracket stand items. A closing bracket, for an empty array, is no beginning
of a value. -/
theorem readValue?_bracket (fuel : Nat) {cs : List Char} (h : Begins cs) :
    readValue? (fuel + 1) ('[' :: cs) =
      (readItems? fuel cs).map fun (items, rest) => (.arr items, rest) := by
  rw [readValue?, h.skipSpace_eq]
  obtain ⟨c, rest, rfl, _, hClose, _⟩ := h
  split
  · next hSame => exact absurd (List.cons.inj hSame).1 hClose
  · rfl

/-- Behind a brace stand fields, as items stand behind a bracket. -/
theorem readValue?_brace (fuel : Nat) {cs : List Char} (h : Begins cs) :
    readValue? (fuel + 1) ('\x7b' :: cs) =
      (readFields? fuel cs).map fun (fields, rest) => (.obj (Assoc.ofPairs fields), rest) := by
  rw [readValue?, h.skipSpace_eq]
  obtain ⟨c, rest, rfl, _, _, hClose⟩ := h
  split
  · next hSame => exact absurd (List.cons.inj hSame).1 hClose
  · rfl

section
variable {spacing : Spacing} (hSpacing : spacing.Sound)
include hSpacing

/-- An array is read back if its items are. -/
theorem readsBack_arr {items : List Value} (hItems : ∀ item ∈ items, ReadsBack spacing item) :
    ReadsBack spacing (.arr items) := by
  have hBegins : Begins (write spacing (.arr items)) := ⟨'[', _, rfl, by decide⟩
  refine ⟨hBegins, fun fuel rest hFuel _ => ?_⟩
  obtain ⟨steps, rfl⟩ := hBegins.exists_succ hFuel
  cases items with
  | nil => rfl
  | cons item others =>
      have hText : write spacing (.arr (item :: others)) =
          '[' :: (separated spacing.comma.toList (writeItems spacing (item :: others)) ++ [']']) :=
        rfl
      have hInside : Begins (separated spacing.comma.toList (writeItems spacing (item :: others))) :=
        begins_separated (hItems item List.mem_cons_self).begins _ _
      rw [hText, List.length_cons, List.length_append, List.length_singleton] at hFuel
      rw [hText, List.cons_append, List.append_assoc, List.singleton_append,
        readValue?_bracket steps (hInside.append _),
        readItems?_separated hSpacing hItems (List.cons_ne_nil _ _) rest (by omega)]
      rfl

/-- An object is read back if its values are and no key is doubled. -/
theorem readsBack_obj {fields : List (String × Value)} (hKeys : (fields.map (·.1)).Nodup)
    (hFields : ∀ field ∈ fields, ReadsBack spacing field.2) : ReadsBack spacing (.obj fields) := by
  have hBegins : Begins (write spacing (.obj fields)) := ⟨'\x7b', _, rfl, by decide⟩
  refine ⟨hBegins, fun fuel rest hFuel _ => ?_⟩
  obtain ⟨steps, rfl⟩ := hBegins.exists_succ hFuel
  cases fields with
  | nil => rfl
  | cons field others =>
      have hText : write spacing (.obj (field :: others)) =
          '\x7b' :: (separated spacing.comma.toList (writeFields spacing (field :: others)) ++
            ['\x7d']) := rfl
      have hInside :
          Begins (separated spacing.comma.toList (writeFields spacing (field :: others))) :=
        begins_separated (((begins_quoted _).append _).append _) _ _
      rw [hText, List.length_cons, List.length_append, List.length_singleton] at hFuel
      rw [hText, List.cons_append, List.append_assoc, List.singleton_append,
        readValue?_brace steps (hInside.append _),
        readFields?_separated hSpacing hFields (List.cons_ne_nil _ _) rest (by omega)]
      simp only [Option.map_some, Assoc.ofPairs_of_nodup hKeys]

end

/-- Every text is read back, whatever has to be escaped in it. -/
theorem readsBack_str (spacing : Spacing) (s : String) : ReadsBack spacing (.str s) := by
  have hBegins : Begins (write spacing (.str s)) := begins_quoted s.toList
  refine ⟨hBegins, fun fuel rest hFuel _ => ?_⟩
  obtain ⟨steps, rfl⟩ := hBegins.exists_succ hFuel
  have hText : write spacing (.str s) = '"' :: (s.toList.flatMap escapeChar ++ ['"']) := rfl
  have hLength := length_le_length_escaped s.toList
  rw [hText, List.length_cons, List.length_append, List.length_singleton] at hFuel
  rw [hText, List.cons_append, List.append_assoc, List.singleton_append, readValue?,
    readString?_escaped _ _ (by omega)]
  simp only [Option.map_some, String.ofList_toList]

/-- A digit begins a value. -/
theorem begins_digit {c : Char} (h : isAsciiDigit c = true) (rest : List Char) :
    Begins (c :: rest) := by
  have hNe {d : Char} (hd : isAsciiDigit d = false) : c ≠ d := by
    rintro rfl
    rw [h] at hd
    cases hd
  refine ⟨c, rest, rfl, ?_, hNe rfl, hNe rfl⟩
  simp [isSpace, hNe (d := ' ') rfl, hNe (d := '\t') rfl, hNe (d := '\n') rfl, hNe (d := '\r') rfl]

/-- A written integer begins a value, with or without a sign. -/
theorem begins_int (spacing : Spacing) (n : Int) : Begins (write spacing (.int n)) := by
  have hText : write spacing (.int n) = (if n < 0 then ['-'] else []) ++ Nat.toDigits 10 n.natAbs :=
    intText_toList n
  rw [hText]
  split_ifs
  · exact ⟨'-', _, rfl, by decide⟩
  · obtain ⟨first, digits, hDigits⟩ := List.exists_cons_of_ne_nil (Nat.toDigits_ne_nil (n := n.natAbs))
    rw [hDigits]
    exact begins_digit (isAsciiDigit_of_mem_toDigits first (by rw [hDigits]; exact List.mem_cons_self))
      digits

/-- An integer with few enough digits is read back. -/
theorem readsBack_int (spacing : Spacing) {n : Int} (hLength : n.natAbs < Decimal.digitLimit) :
    ReadsBack spacing (.int n) := by
  have hBegins : Begins (write spacing (.int n)) := begins_int spacing n
  refine ⟨hBegins, fun fuel rest hFuel hCloses => ?_⟩
  obtain ⟨steps, rfl⟩ := hBegins.exists_succ hFuel
  rw [readValue?_int spacing steps n hCloses, if_pos hLength]

/-- No value is read back from its name. -/
theorem readsBack_null (spacing : Spacing) : ReadsBack spacing .null := by
  have hBegins : Begins (write spacing .null) := ⟨'n', _, rfl, by decide⟩
  refine ⟨hBegins, fun fuel rest hFuel _ => ?_⟩
  obtain ⟨steps, rfl⟩ := hBegins.exists_succ hFuel
  rfl

/-- Truth values are read back from their names. -/
theorem readsBack_bool (spacing : Spacing) (b : Bool) : ReadsBack spacing (.bool b) := by
  have hBegins : Begins (write spacing (.bool b)) := by
    cases b
    · exact ⟨'f', _, rfl, by decide⟩
    · exact ⟨'t', _, rfl, by decide⟩
  refine ⟨hBegins, fun fuel rest hFuel _ => ?_⟩
  obtain ⟨steps, rfl⟩ := hBegins.exists_succ hFuel
  cases b <;> rfl

/-- A faithful value is found again in its text. -/
theorem Faithful.readsBack {v : Value} (h : Faithful v) {spacing : Spacing}
    (hSpacing : spacing.Sound) : ReadsBack spacing v := by
  induction h with
  | null => exact readsBack_null spacing
  | bool b => exact readsBack_bool spacing b
  | int hLength => exact readsBack_int spacing hLength
  | str s => exact readsBack_str spacing s
  | arr _ ih => exact readsBack_arr hSpacing ih
  | obj hKeys _ ih => exact readsBack_obj hSpacing hKeys ih

/-- A value that is read at the front of any text is the value of its own one. -/
theorem ReadsBack.read?_write {spacing : Spacing} {v : Value} (h : ReadsBack spacing v) :
    Json.read? (write spacing v) = some v := by
  have hReads := h.reads (2 * (write spacing v).length + 2) [] (by omega) nofun
  rw [List.append_nil] at hReads
  simp only [Json.read?, h.begins.skipSpace_eq, hReads]
  rfl

/-- Whether a value is an array or an object. -/
def isContainer : Value → Bool
  | .arr _ => true
  | .obj _ => true
  | _ => false

/-- The text of an array or object is closed by its brackets. -/
theorem write_of_isContainer {v : Value} (h : v.isContainer = true) (spacing : Spacing) :
    (∃ inside, write spacing v = '[' :: (inside ++ [']'])) ∨
      ∃ inside, write spacing v = '\x7b' :: (inside ++ ['\x7d']) := by
  cases v with
  | arr items => exact .inl ⟨_, rfl⟩
  | obj fields => exact .inr ⟨_, rfl⟩
  | _ => cases h

/-- The text of an array or object is looked at as JSON. -/
theorem ofStructured_write {v : Value} (h : v.isContainer = true) (spacing : Spacing) :
    ofStructured (String.ofList (write spacing v)) =
      (Json.read? (write spacing v)).getD (.str (String.ofList (write spacing v))) := by
  have hText : (String.ofList (write spacing v)).toList = write spacing v := String.toList_ofList
  have hSolid : Solid (String.ofList (write spacing v)) := by
    obtain ⟨inside, hWrite⟩ | ⟨inside, hWrite⟩ := write_of_isContainer h spacing
    · exact solid_between (hText.trans hWrite) (by decide) (by decide)
    · exact solid_between (hText.trans hWrite) (by decide) (by decide)
  rw [ofStructured, hSolid.trim_eq, hText]
  obtain ⟨inside, hWrite⟩ | ⟨inside, hWrite⟩ := write_of_isContainer h spacing
  · rw [hWrite]
    rfl
  · rw [hWrite]
    rfl

theorem text_of_isContainer {v : Value} (h : v.isContainer = true) : v.text = v.toJson := by
  cases v with
  | arr items => rfl
  | obj fields => rfl
  | _ => cases h

/-- A faithful value is the value of its text. -/
theorem Faithful.read?_write {v : Value} (h : Faithful v) {spacing : Spacing}
    (hSpacing : spacing.Sound) : Json.read? (write spacing v) = some v :=
  (h.readsBack hSpacing).read?_write

/-- A text that a faithful value is written as is read as this value. -/
theorem Faithful.ofJson?_eq {v : Value} (h : Faithful v) {spacing : Spacing}
    (hSpacing : spacing.Sound) {s : String} (hText : s.toList = write spacing v) :
    ofJson? s = some v := by
  rw [ofJson?, hText]
  exact h.read?_write hSpacing

theorem Faithful.ofJson?_toJson {v : Value} (h : Faithful v) : ofJson? v.toJson = some v :=
  h.ofJson?_eq sound_compact String.toList_ofList

/-- Faithful values with the same JSON text are the same. -/
theorem Faithful.eq_of_toJson {v w : Value} (hv : Faithful v) (hw : Faithful w)
    (h : v.toJson = w.toJson) : v = w := by
  have hRead := hv.ofJson?_toJson
  rw [h, hw.ofJson?_toJson] at hRead
  exact (Option.some.inj hRead).symm

/-- A faithful array or object is found again in its JSON text. -/
theorem Faithful.ofStructured_write {v : Value} (h : Faithful v) (hContainer : v.isContainer = true)
    {spacing : Spacing} (hSpacing : spacing.Sound) :
    ofStructured (String.ofList (write spacing v)) = v := by
  rw [Value.ofStructured_write hContainer, h.read?_write hSpacing, Option.getD_some]

/-- A faithful array or object is found again in the text it is printed as. -/
theorem Faithful.ofStructured_text {v : Value} (h : Faithful v) (hContainer : v.isContainer = true) :
    ofStructured v.text = v := by
  rw [text_of_isContainer hContainer]
  exact h.ofStructured_write hContainer sound_compact

/-- The first item of an array is followed by a comma or by the bracket. -/
theorem exists_write_cons (spacing : Spacing) (hSpacing : spacing.Sound) (item : Value)
    (others : List Value) : ∃ behind, Closes behind ∧
      write spacing (.arr (item :: others)) = '[' :: (write spacing item ++ behind) := by
  cases others with
  | nil => exact ⟨_, closes_bracket [], rfl⟩
  | cons next more =>
      obtain ⟨blanks, hComma, _⟩ := hSpacing.comma
      refine ⟨_, closes_comma (blanks ++
        (separated spacing.comma.toList (writeItems spacing (next :: more)) ++ [']'])), ?_⟩
      simp [write, writeItems, separated, hComma]

/-- An array is not read if its first item is an integer that is too long. -/
theorem ofJson?_toJson_of_long {n : Int} (h : Decimal.digitLimit ≤ n.natAbs)
    (others : List Value) : ofJson? (Value.arr (.int n :: others)).toJson = none := by
  obtain ⟨behind, hCloses, hText⟩ := exists_write_cons compact sound_compact (.int n) others
  have hRefused (fuel : Nat) :
      readValue? (fuel + 3) ('[' :: (write compact (.int n) ++ behind)) = none := by
    rw [readValue?_bracket _ ((begins_int compact n).append _), readItems?,
      readValue?_int compact fuel n hCloses, if_neg (Nat.not_lt.mpr h)]
    rfl
  have hBegins : Begins ('[' :: (write compact (.int n) ++ behind)) := ⟨'[', _, rfl, by decide⟩
  rw [ofJson?, toJson, String.toList_ofList, hText, Json.read?, hBegins.skipSpace_eq,
    List.length_cons, show 2 * ((write compact (.int n) ++ behind).length + 1) + 2 =
      2 * (write compact (.int n) ++ behind).length + 1 + 3 by omega, hRefused]

end Value

namespace Registry

section
variable {registry : Registry} {name : String} {filter : Filter}
  (hFilter : Assoc.get? registry name = some filter)
include hFilter

/-- The text that a filter returns is looked at as JSON. -/
theorem apply_of_run {d : Datum} {text : String} {param : Option String} {url s : String}
    (hText : d.written = .ok text)
    (hRun : filter.run text (nonEmpty param) (if filter.wantsUrl then url else "") =
      some (.str s)) :
    registry.apply name d param url = .ok (.plain (Value.ofStructured s)) := by
  rw [apply, hFilter]
  simp only [hText, bind, Except.bind, applyTo, hRun]
  rfl

/-- Nothing is made of a value that cannot be written. -/
theorem apply_of_fault {d : Datum} {f : Fault} (hText : d.written = .error f) (param : Option String)
    (url : String) : registry.apply name d param url = .error f := by
  rw [apply, hFilter]
  simp only [hText]
  rfl

/-- A filter that returns the text it is given leaves an array or object as it is, at any
depth, if its integers can be written. -/
theorem apply_of_text_unchanged
    (hUnchanged : ∀ text param url, filter.run text param url = some (.str text))
    {v : Value} (h : v.Floatless) (hContainer : v.isContainer = true) (param : Option String)
    (url : String) :
    registry.apply name (.plain v) param url =
        (if v.writable then .ok (.plain v) else .error .integerTooLong) ∧
      v.written.map Value.ofStructured = if v.writable then .ok v else .error .integerTooLong := by
  cases hWritable : v.writable with
  | true =>
      have hText : v.written = .ok v.text := Value.written_of_writable hWritable
      have hRead := (h.faithful hWritable).ofStructured_text hContainer
      refine ⟨?_, by rw [hText, Except.map, hRead]; rfl⟩
      rw [apply_of_run (d := .plain v) hFilter hText (hUnchanged v.text _ _), hRead]
      rfl
  | false =>
      have hText : v.written = .error .integerTooLong := Value.written_of_not_writable hWritable
      refine ⟨apply_of_fault (d := .plain v) hFilter hText param url, by rw [hText]; rfl⟩

end

/-- The filter that does nothing. -/
def sameText : Filter := Filter.ofText "same" id ""

/-- An object with quotes, line breaks, brackets and names of values in its texts
passes through it. -/
theorem apply_of_text_unchanged_nested :
    let value : Value := .obj [("a \"b\"", .arr [.int (-10), .str "[1,null]\n", .arr [], .null]),
      ("", .obj [("\x7b", .bool true)])]
    (ofList [sameText]).apply "same" (.plain value) (some "x") "" = .ok (.plain value) ∧
      value.written.map Value.ofStructured = .ok value := by
  intro value
  have hItems : Value.Floatless (.arr [.int (-10), .str "[1,null]\n", .arr [], .null]) := by
    refine .arr ?_
    simp only [List.forall_mem_cons]
    exact ⟨.int _, .str _, .arr nofun, .null, nofun⟩
  have hInner : Value.Floatless (.obj [("\x7b", .bool true)]) := by
    refine .obj (by decide) ?_
    simp only [List.forall_mem_cons]
    exact ⟨.bool true, nofun⟩
  have hValue : value.Floatless := by
    refine .obj (by decide) ?_
    simp only [List.forall_mem_cons]
    exact ⟨hItems, hInner, nofun⟩
  have hWritable : value.writable = true := by decide +kernel
  have hFilter : Assoc.get? (ofList [sameText]) "same" = some sameText := rfl
  have hSame := apply_of_text_unchanged hFilter (fun _ _ _ => rfl) hValue rfl (some "x") ""
  rwa [hWritable] at hSame

/-- An integer of more than 4300 digits stops the filter. -/
theorem apply_text_unchanged_long :
    (ofList [sameText]).apply "same" (.plain (.arr [.int (10 ^ 4300)])) none "" =
      .error .integerTooLong := by
  have hFilter : Assoc.get? (ofList [sameText]) "same" = some sameText := rfl
  refine apply_of_fault hFilter ?_ none ""
  exact Value.written_of_not_writable (by decide +kernel)

end Registry

end NoteTemplate
