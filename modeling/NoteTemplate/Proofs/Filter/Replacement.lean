import NoteTemplate.Filter.Substitution
import NoteTemplate.Proofs.Param.Arguments
import NoteTemplate.Proofs.Text.Replacing

/-! The filter that replaces texts. Its parameter text lists pairs, with a colon in
each pair and a comma between two of them. Every pair is read back as it was
written, and the pairs are applied in their order. -/
namespace NoteTemplate.Replacement

open Param Text
open NoteTemplate.Filter (replace replaceText replacementPair?)

/-- The texts of pairs as arguments, one behind the other. -/
def pairArgs : List (String × String) → List Value
  | [] => []
  | (search, replacement) :: pairs => .str search :: .str replacement :: pairArgs pairs

/-- A colon inside each pair, and a comma between two pairs. -/
def pairSeparators : List (String × String) → List Separator
  | [] => []
  | [_] => [.colon]
  | _ :: pairs => .colon :: .comma :: pairSeparators pairs

/-- A pair as it is written. -/
def pairText (pair : String × String) : String := quote pair.1 ++ ":" ++ quote pair.2

/-- Pairs are written with commas between them. -/
theorem interleave_pairs (pairs : List (String × String)) :
    interleave (pairSeparators pairs) ((pairArgs pairs).map Value.paramText) =
      String.intercalate "," (pairs.map pairText) := by
  induction pairs with
  | nil => rfl
  | cons pair pairs ih =>
      obtain ⟨search, replacement⟩ := pair
      cases pairs with
      | nil =>
          simp [pairArgs, pairSeparators, interleave, pairText, Value.paramText, Separator.text,
            String.append_assoc]
      | cons next pairs =>
          obtain ⟨nextSearch, nextReplacement⟩ := next
          rw [List.map_cons, List.map_cons, String.intercalate_cons_cons, ← List.map_cons, ← ih]
          simp [pairArgs, pairSeparators, interleave, pairText, Value.paramText, Separator.text,
            String.append_assoc]

theorem paramOf_pairs {pairs : List (String × String)} (hSome : pairs ≠ []) :
    Render.paramOf (pairSeparators pairs) false (pairArgs pairs) =
      some (String.intercalate "," (pairs.map pairText)) := by
  have hArgs : (pairArgs pairs).isEmpty = false := by
    obtain ⟨pair, rest, rfl⟩ := List.exists_cons_of_ne_nil hSome
    rfl
  simp only [Render.paramOf, hArgs, layoutArgs, Bool.false_eq_true, if_false, interleave_pairs]

theorem separates_colon : Separates ':' := ⟨rfl, by decide, rfl⟩

theorem toList_pairText (pair : String × String) :
    (pairText pair).toList = (quote pair.1).toList ++ [':'] ++ (quote pair.2).toList := by
  rw [pairText, String.toList_append, String.toList_append]
  rfl

/-- No comma of a pair stands outside its quotes. -/
theorem part_pairText (pair : String × String) : Part ',' (pairText pair) := by
  have hColon : Passes ',' [':'] := passes_singleton (by decide) rfl (by decide)
  refine ⟨?_, ?_, ?_⟩
  · rw [toList_pairText]
    exact ((passes_quote ',' pair.1).append hColon).append (passes_quote ',' pair.2)
  · exact ((solid_quote pair.1).append (solid_singleton (c := ':') rfl)).append (solid_quote pair.2)
  · simp [pairText]

/-- The pairs are found between the commas of the parameter text. -/
theorem split_pairs {pairs : List (String × String)} (hSome : pairs ≠ []) :
    Param.split ',' (stripParens (String.intercalate "," (pairs.map pairText))) =
      pairs.map pairText := by
  refine split_stripParens (by simpa using hSome) (fun part hMem => ?_) fun part hMem => ?_
  · obtain ⟨pair, _, rfl⟩ := List.mem_map.mp hMem
    exact part_pairText pair
  · obtain ⟨pair, _, rfl⟩ := List.mem_map.mp hMem
    rw [toList_pairText, Token.quote_toList]
    exact ⟨_, rfl⟩

/-- A pair is read back from the text it is written as. -/
theorem replacementPair?_pairText (pair : String × String) :
    replacementPair? (pairText pair) = some pair := by
  have hNoBlanks : ∀ c ∈ ([] : List Char), isBlank c = true := by simp
  have hParts : ∀ part ∈ [quote pair.1, quote pair.2], Part ':' part := by
    simp [part_quote]
  have hText : pairText pair = String.intercalate ":" [quote pair.1, quote pair.2] := by
    rw [String.intercalate_cons_cons, String.intercalate_singleton, pairText]
  have hSplit : Param.split ':' (pairText pair) = [quote pair.1, quote pair.2] := by
    rw [hText]
    exact split_intercalate separates_colon hNoBlanks (List.cons_ne_nil _ _) hParts
  rw [replacementPair?, hSplit]
  simp only [List.head?_cons, Option.map_some, Option.getD_some, decode_quote]

/-- A text with several replacements made one after another. -/
inductive SubstitutedAll : List (String × String) → String → String → Prop where
  | nil (s : String) : SubstitutedAll [] s s
  | cons {search replacement : String} {pairs : List (String × String)} {s t u : String} :
      Substituted search.toList replacement.toList s.toList t.toList → SubstitutedAll pairs t u →
      SubstitutedAll ((search, replacement) :: pairs) s u

theorem toList_replaceText {s : String} {pair : String × String} (hSome : pair.1 ≠ "") :
    (replaceText s pair).toList = replaceAll pair.1.toList pair.2.toList s.toList := by
  rw [replaceText, if_neg hSome, String.toList_ofList]

/-- The pairs are applied one after another. -/
theorem substitutedAll_iff {pairs : List (String × String)} (hSome : ∀ pair ∈ pairs, pair.1 ≠ "")
    (s t : String) : SubstitutedAll pairs s t ↔ pairs.foldl replaceText s = t := by
  induction pairs generalizing s with
  | nil =>
      constructor
      · intro h
        cases h
        rfl
      · rintro rfl
        exact .nil s
  | cons pair pairs ih =>
      have hFirst : pair.1 ≠ "" := hSome pair List.mem_cons_self
      have hPart : pair.1.toList ≠ [] := fun hNil => hFirst (String.toList_eq_nil_iff.mp hNil)
      have hLater := ih fun later hMem => hSome later (List.mem_cons_of_mem pair hMem)
      constructor
      · intro h
        cases h with
        | @cons search replacement _ _ u _ hOnce hRest =>
            have hText : replaceText s (search, replacement) = u := by
              rw [← String.toList_inj, toList_replaceText hFirst]
              exact (substituted_iff _ hPart _ _).mp hOnce
            rw [List.foldl_cons, hText]
            exact (hLater u).mp hRest
      · intro h
        refine .cons ?_ ((hLater (replaceText s pair)).mpr h)
        rw [toList_replaceText hFirst]
        exact substituted_replaceAll _ hPart _

/-- The filter applies the pairs that its parameter text writes. -/
theorem replace_pairs {pairs : List (String × String)} (hSome : pairs ≠ []) (s : String) :
    replace s (Render.paramOf (pairSeparators pairs) false (pairArgs pairs)) =
      pairs.foldl replaceText s := by
  rw [paramOf_pairs hSome, replace, split_pairs hSome, List.foldl_map]
  refine List.foldl_ext _ _ _ fun s pair _ => ?_
  rw [replacementPair?_pairText]

/-- Given pairs of texts, the filter makes exactly the replacements that they list,
in their order, whatever characters the texts hold. -/
theorem replace_exactly_listed {pairs : List (String × String)} (hSome : pairs ≠ [])
    (hSearch : ∀ pair ∈ pairs, pair.1 ≠ "") (s t : String) :
    replace s (Render.paramOf (pairSeparators pairs) false (pairArgs pairs)) = t ↔
      SubstitutedAll pairs s t := by
  rw [replace_pairs hSome, substitutedAll_iff hSearch]

/-- What the first pair puts in is found by the second one, and a quote in front of a
bracket, a comma and a line break are characters like others. -/
theorem replace_exactly_listed_awkward :
    let pairs := [("\"):", ",["), (",[", "\\\n")]
    pairs ≠ [] ∧ (∀ pair ∈ pairs, pair.1 ≠ "") ∧
      replace "a\"):b,,[" (Render.paramOf (pairSeparators pairs) false (pairArgs pairs)) =
        "a\\\nb,\\\n" := by
  refine ⟨by decide, by decide, (replace_exactly_listed (by decide) (by decide) _ _).mpr ?_⟩
  rw [substitutedAll_iff (by decide)]
  decide +kernel

end NoteTemplate.Replacement
