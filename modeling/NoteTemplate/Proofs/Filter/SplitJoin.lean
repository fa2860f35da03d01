import NoteTemplate.Filter.Builtin
import NoteTemplate.Proofs.Json.Structured
import NoteTemplate.Proofs.Param.Arguments
import NoteTemplate.Proofs.Text.Replacing

/-! Splitting a text and joining its pieces. In between the pieces are an array. The
two filters do not read the separator alike, but both of them mean the same one. -/
namespace NoteTemplate.Filter

open Text
open Value.Json (read? readString? readValue? skipSpace)

/-- Splitting at a character is the splitting of the library. -/
theorem splitOnChar_eq_splitOn (sep : Char) (cs : List Char) :
    splitOnChar sep cs = cs.splitOn sep := by
  induction cs with
  | nil => rfl
  | cons c cs ih =>
      rw [splitOnChar, ih, List.splitOn_cons_eq_if_modifyHead]
      by_cases hSep : c = sep
      · rw [if_pos hSep, if_pos (beq_iff_eq.mpr hSep)]
      · rw [if_neg hSep, if_neg (by simpa using hSep)]
        cases hPieces : cs.splitOn sep with
        | nil => exact absurd hPieces (List.splitOn_ne_nil _ _)
        | cons piece pieces => rfl

/-- The pieces of a text between its separators. -/
def pieces (sep : Char) (s : String) : List String :=
  (splitOnChar sep s.toList).map String.ofList

/-- The pieces of a text with the separators between them are the text. -/
theorem joinWith_pieces (sep : Char) (s : String) :
    joinWith (String.ofList [sep]) (pieces sep s) = s := by
  have hSame : String.toList ∘ String.ofList = id := funext fun _ => String.toList_ofList
  rw [← String.toList_inj, joinWith, pieces, String.toList_intercalate, List.map_map, hSame,
    List.map_id, String.toList_ofList, splitOnChar_eq_splitOn, List.intercalate_splitOn]

/-- One character between quotes is no JSON text if it is a backslash or a control character. -/
theorem read?_char {c : Char} (hQuote : c ≠ '"') : read? ['"', c, '"'] =
    if c = '\\' ∨ c.toNat < 32 then none else some (.str (String.ofList [c])) := by
  have hString : readString? 7 [c, '"'] =
      if c = '\\' ∨ c.toNat < 32 then none else some ([c], []) := by
    by_cases hBackslash : c = '\\'
    · rw [if_pos (.inl hBackslash), hBackslash]
      rfl
    · by_cases hControl : c.toNat < 32
      · simp [readString?, hQuote, hBackslash, hControl]
      · simp [readString?, hQuote, hBackslash, hControl]
  have hValue : readValue? (2 * ['"', c, '"'].length + 2) ['"', c, '"'] =
      (readString? 7 [c, '"']).map fun found => (.str (String.ofList found.1), found.2) := by
    show readValue? 8 ['"', c, '"'] = _
    rw [readValue?]
  have hText : skipSpace ['"', c, '"'] = ['"', c, '"'] := rfl
  rw [read?, hText, hValue, hString]
  by_cases hRefused : c = '\\' ∨ c.toNat < 32
  · rw [if_pos hRefused, if_pos hRefused]
    rfl
  · rw [if_neg hRefused, if_neg hRefused]
    rfl

section
variable (sep : Char)

/-- A separator as a parameter. -/
def separatorParam : String := NoteTemplate.quote (String.ofList [sep])

theorem single_separatorParam : Param.single (some (separatorParam sep)) = String.ofList [sep] :=
  Param.single_quote _

theorem nonEmpty_separatorParam :
    Registry.nonEmpty (some (separatorParam sep)) = some (separatorParam sep) :=
  Option.filter_some_pos (decide_eq_true (Param.quote_ne_empty (String.ofList [sep])))

/-- A character between quotes, behind a backslash if it is a quote, is read as the text
of this character or not at all. -/
theorem eq_of_read?_separator {v : Value}
    (h : read? ('"' :: (replaceAll ['"'] ['\\', '"'] [sep] ++ ['"'])) = some v) :
    v = .str (String.ofList [sep]) := by
  have hSome : ['"'] ≠ [] := List.cons_ne_nil _ _
  by_cases hQuote : sep = '"'
  · have hText : replaceAll ['"'] ['\\', '"'] ['"'] = ['\\', '"'] := by
      have hOnce := replaceAll_append ['\\', '"'] hSome []
      rwa [replaceAll_nil _ hSome] at hOnce
    rw [hQuote, hText] at h
    rw [hQuote]
    exact (Option.some.inj h).symm
  · have hText : replaceAll ['"'] ['\\', '"'] [sep] = [sep] := by
      rw [replaceAll_cons _ hSome (by simpa using Ne.symm hQuote), replaceAll_nil _ hSome]
    rw [hText, List.singleton_append, read?_char hQuote] at h
    split at h
    · cases h
    · exact (Option.some.inj h).symm

/-- The separator of the joined pieces is the character that is given. -/
theorem joinSeparator_separatorParam :
    joinSeparator (some (separatorParam sep)) = String.ofList [sep] := by
  simp only [joinSeparator, single_separatorParam, String.toList_ofList, Value.ofJson?]
  split
  · next hRead => exact Value.str.inj (eq_of_read?_separator sep hRead)
  · rfl

variable (s url : String)

/-- Split at a character, a text becomes the array of its pieces. -/
theorem apply_split :
    standard.apply "split" (.plain (.str s)) (some (separatorParam sep)) url =
      .ok (.plain (.arr ((pieces sep s).map .str))) := by
  have hFilter : Assoc.get? standard "split" =
      some (ofFallible "split" split? "Split into an array: split:\",\"") := rfl
  have hParts : partsValue ((splitOnChar sep s.toList).map some) =
      .arr ((pieces sep s).map .str) := by
    simp [partsValue, pieces]
  have hSplit : split? s (some (separatorParam sep)) =
      some (Value.arr ((pieces sep s).map .str)).toSpacedJson := by
    simp only [split?, single_separatorParam, String.toList_ofList, splitParts?, Option.map_some,
      hParts]
  have hRead : Value.ofStructured (Value.arr ((pieces sep s).map .str)).toSpacedJson =
      .arr ((pieces sep s).map .str) :=
    (Value.faithful_texts (pieces sep s)).ofStructured_write rfl Value.Json.sound_spaced
  rw [← hRead]
  refine Registry.apply_of_run hFilter (Value.written_str s) ?_
  simp only [nonEmpty_separatorParam, ofFallible, hSplit, Option.map_some]

/-- Joined with a character, the array of the pieces becomes the text. -/
theorem apply_join :
    standard.apply "join" (.plain (.arr ((pieces sep s).map .str))) (some (separatorParam sep))
      url = .ok (.plain (Value.ofStructured s)) := by
  have hFilter : Assoc.get? standard "join" =
      some (ofParam "join" join "Join array items: join:\", \"") := rfl
  have hItems : itemsOf? (Value.arr ((pieces sep s).map .str)).toJson =
      some ((pieces sep s).map .str) := by
    have hRead := (Value.faithful_texts (pieces sep s)).read?_write Value.Json.sound_compact
    simp only [itemsOf?, Value.ofJson?, Value.toJson, String.toList_ofList, hRead]
  have hTexts : ((pieces sep s).map Value.str).map Value.text = pieces sep s := by
    have hSame : Value.text ∘ Value.str = id := rfl
    rw [List.map_map, hSame, List.map_id]
  have hText := Value.written_of_writable (Value.writable_texts (pieces sep s))
  refine Registry.apply_of_run hFilter hText ?_
  simp only [nonEmpty_separatorParam, ofParam, Value.text, join, hItems, hTexts,
    joinSeparator_separatorParam, joinWith_pieces]

end

/-- Joining undoes splitting at the same character, whatever the character and the text
are. What comes out is the text, read as JSON if it is one of an array or an object. -/
theorem join_undoes_split (sep : Char) (s url url' : String) :
    (do
      let d ← standard.apply "split" (.plain (.str s)) (some (separatorParam sep)) url
      standard.apply "join" d (some (separatorParam sep)) url') =
        .ok (.plain (Value.ofStructured s)) ∧
      Value.ofStructured s =
        ((Value.ofJson? (strip s)).filter Value.isContainer).getD (.str s) := by
  rw [apply_split]
  exact ⟨apply_join sep s url', Value.ofStructured_eq s⟩

end NoteTemplate.Filter
