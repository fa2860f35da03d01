import Mathlib.Data.List.Dedup
import Mathlib.Data.List.DropRight
import NoteTemplate.Cache.Parse
import NoteTemplate.Proofs.Cache.Entries

/-! What a cache of parsed texts holds is read off the calls that were made to
it: the texts asked for most recently, each with what parsing gives for it. So
a call is answered without parsing just when its text is one of them. -/
namespace NoteTemplate

/-- The texts of a history, each once, in the order in which they were last
asked for; of these the latest ones, as many as there is room for. -/
def latestTexts (capacity : Nat) (texts : List String) : List String := texts.dedup.rtake capacity

theorem latestTexts_nil (capacity : Nat) : latestTexts capacity [] = [] := by
  rw [latestTexts, List.dedup_nil, List.rtake_nil]

/-- Using a text once more moves it to the end of the distinct texts. -/
theorem dedup_concat (texts : List String) (text : String) :
    (texts ++ [text]).dedup = texts.dedup.filter (· ≠ text) ++ [text] := by
  induction texts with
  | nil => rfl
  | cons first rest ih =>
      rw [List.cons_append]
      by_cases hRest : first ∈ rest
      · rw [List.dedup_cons_of_mem (List.mem_append_left _ hRest), List.dedup_cons_of_mem hRest, ih]
      · rw [List.dedup_cons_of_notMem hRest]
        by_cases hText : first = text
        · rw [List.dedup_cons_of_mem (by simp [hText]), ih,
            List.filter_cons_of_neg (by simpa using hText)]
        · rw [List.dedup_cons_of_notMem (by simp [hRest, hText]), ih,
            List.filter_cons_of_pos (by simpa using hText), List.cons_append]

/-- What is far enough behind is not among the latest. -/
theorem rtake_append {earlier later : List String} {capacity : Nat}
    (h : capacity ≤ later.length) : (earlier ++ later).rtake capacity = later.rtake capacity := by
  rw [List.rtake, List.rtake, List.length_append, Nat.add_sub_assoc h, List.drop_length_add_append]

theorem rtake_of_length_le {texts : List String} {capacity : Nat} (h : texts.length ≤ capacity) :
    texts.rtake capacity = texts := by
  rw [List.rtake, Nat.sub_eq_zero_of_le h, List.drop_zero]

/-- Leaving out one text of a list without repetitions leaves room for it. -/
theorem length_le_filter_concat {texts : List String} (h : texts.Nodup) (text : String) :
    texts.length ≤ (texts.filter (· ≠ text) ++ [text]).length := by
  have hErase : texts.filter (· ≠ text) = texts.erase text := by
    rw [h.erase_eq_filter]
    exact List.filter_congr fun other _ => by rw [bne, beq_eq_decide, decide_not]
  rw [hErase, List.length_append, List.length_singleton, List.length_erase]
  split <;> omega

/-- One more text: which ones are the latest then depends on the latest ones
before it alone. -/
theorem latestTexts_concat (capacity : Nat) (texts : List String) (text : String) :
    latestTexts capacity (texts ++ [text]) =
      ((latestTexts capacity texts).filter (· ≠ text) ++ [text]).rtake capacity := by
  have hNodup := texts.nodup_dedup
  rw [latestTexts, latestTexts, dedup_concat]
  generalize texts.dedup = all at hNodup
  rcases Nat.le_total all.length capacity with hRoom | hFull
  · rw [rtake_of_length_le hRoom]
  · have hLatest : (all.rtake capacity).length = capacity := by
      rw [List.rtake, List.length_drop, Nat.sub_sub_self hFull]
    have hEnough : capacity ≤ ((all.rtake capacity).filter (· ≠ text) ++ [text]).length := by
      conv_lhs => rw [← hLatest]
      exact length_le_filter_concat (hNodup.sublist (List.drop_sublist _ _)) text
    conv_lhs => rw [← List.take_append_drop (all.length - capacity) all, List.filter_append,
      List.append_assoc]
    exact rtake_append hEnough

theorem length_latestTexts (capacity : Nat) (texts : List String) :
    (latestTexts capacity texts).length = min capacity texts.dedup.length := by
  rw [latestTexts, List.rtake, List.length_drop]
  omega

namespace ParseCache

variable {α ε : Type} {parse : String → Except ε α} {cache : ParseCache α} {text : String}

/-- What a cache is asked to do. -/
inductive Call where
  | get (text : String)
  | invalidate
deriving Repr, DecidableEq

/-- The cache behind a call. -/
def behind (parse : String → Except ε α) (cache : ParseCache α) : Call → ParseCache α
  | .get text => (cache.get parse text).2
  | .invalidate => cache.invalidate

/-- A new cache behind some calls. -/
def after (parse : String → Except ε α) (capacity : Nat) (calls : List Call) : ParseCache α :=
  calls.foldl (behind parse) { capacity }

/-- The text that a call asks for with success. -/
def Call.served? (parse : String → Except ε α) : Call → Option String
  | .get text => if (parse text).isOk then some text else none
  | .invalidate => none

/-- The texts asked for with success since everything was last forgotten, in the
order of the calls. -/
def served (parse : String → Except ε α) (calls : List Call) : List String :=
  (calls.rtakeWhile (· ≠ .invalidate)).filterMap (Call.served? parse)

/-- The texts that a cache ought to hold behind some calls, the one asked for
longest ago first. -/
def kept (parse : String → Except ε α) (capacity : Nat) (calls : List Call) : List String :=
  latestTexts capacity (served parse calls)

theorem served_get (parse : String → Except ε α) (calls : List Call) (text : String) :
    served parse (calls ++ [.get text]) =
      served parse calls ++ (Call.served? parse (.get text)).toList := by
  rw [served, List.rtakeWhile_concat_pos _ _ _ (by simp), List.filterMap_append, ← served,
    List.filterMap_cons, List.filterMap_nil]
  cases Call.served? parse (.get text) <;> rfl

theorem kept_of_ok {result : α} (hParse : parse text = .ok result) (capacity : Nat)
    (calls : List Call) : kept parse capacity (calls ++ [.get text]) =
      ((kept parse capacity calls).filter (· ≠ text) ++ [text]).rtake capacity := by
  have hServed : Call.served? parse (.get text) = some text := by
    rw [Call.served?, hParse]
    rfl
  rw [kept, served_get, hServed, Option.toList_some, latestTexts_concat, ← kept]

theorem kept_of_error {e : ε} (hParse : parse text = .error e) (capacity : Nat)
    (calls : List Call) :
    kept parse capacity (calls ++ [.get text]) = kept parse capacity calls := by
  have hServed : Call.served? parse (.get text) = none := by
    rw [Call.served?, hParse]
    rfl
  rw [kept, served_get, hServed, Option.toList_none, List.append_nil, ← kept]

theorem kept_invalidate (parse : String → Except ε α) (capacity : Nat) (calls : List Call) :
    kept parse capacity (calls ++ [.invalidate]) = [] := by
  rw [kept, served, List.rtakeWhile_concat_neg _ _ _ (by simp), List.filterMap_nil, latestTexts_nil]

/-- Whether a call asks for a text. -/
def Call.isGet : Call → Bool
  | .get _ => true
  | .invalidate => false

theorem countP_get (calls : List Call) (text : String) :
    (calls ++ [Call.get text]).countP Call.isGet = calls.countP Call.isGet + 1 := by
  rw [List.countP_append]
  rfl

/-- Every result that is kept is the one that parsing its text gives. -/
def Truthful (parse : String → Except ε α) (cache : ParseCache α) : Prop :=
  ∀ entry ∈ cache.entries, parse entry.1 = .ok entry.2

/-- A cache whose results are true gives what parsing gives, and its results stay
true. -/
theorem Truthful.get (h : Truthful parse cache) (text : String) :
    (cache.get parse text).1 = parse text ∧ Truthful parse (cache.get parse text).2 := by
  rw [ParseCache.get]
  split
  · exact ⟨rfl, h⟩
  · cases hFound : Assoc.get? cache.entries text with
    | some result =>
        have hParse := h _ (Assoc.mem_of_get? hFound)
        refine ⟨hParse.symm, List.forall_mem_append.mpr ⟨fun entry hMem => ?_,
          List.forall_mem_singleton.mpr hParse⟩⟩
        exact h entry (List.mem_of_mem_filter hMem)
    | none =>
        cases hParse : parse text with
        | error e => exact ⟨rfl, h⟩
        | ok result =>
            refine ⟨rfl, fun entry hMem => ?_⟩
            rcases List.mem_append.mp (List.mem_of_mem_drop hMem) with hOld | hNew
            · exact h entry (List.mem_of_mem_filter hOld)
            · rw [List.mem_singleton.mp hNew]
              exact hParse

/-- A cache as it ought to be behind some calls. -/
structure Mirrors (parse : String → Except ε α) (capacity : Nat) (calls : List Call)
    (cache : ParseCache α) : Prop where
  room : cache.capacity = capacity
  texts : cache.entries.map Prod.fst = kept parse capacity calls
  truthful : Truthful parse cache
  counts : cache.hits + cache.misses = calls.countP Call.isGet

/-! One call. -/

theorem keys_without (entries : Assoc String α) (text : String) :
    (without entries text).map Prod.fst = (entries.map Prod.fst).filter (· ≠ text) := by
  rw [without, List.filter_map]
  rfl

theorem keys_insert (capacity : Nat) (entries : Assoc String α) (text : String) (result : α) :
    (insert capacity entries text result).map Prod.fst =
      ((entries.map Prod.fst).filter (· ≠ text) ++ [text]).rtake capacity := by
  rw [insert, List.map_drop, List.map_append, keys_without, List.rtake, List.length_append,
    List.length_append, ← keys_without, List.length_map]
  rfl

namespace Mirrors

variable {capacity : Nat} {calls : List Call}

/-- Without room nothing is held. -/
theorem entries_eq_nil (h : Mirrors parse capacity calls cache) (hNone : cache.capacity = 0) :
    cache.entries = [] := by
  have hLength := congrArg List.length h.texts
  rw [List.length_map, kept, length_latestTexts, ← h.room, hNone, Nat.zero_min] at hLength
  exact List.eq_nil_of_length_eq_zero hLength

/-- A text that is held is answered without parsing it, whatever parsing would
give. -/
theorem get_kept (h : Mirrors parse capacity calls cache) (hText : text ∈ kept parse capacity calls) :
    ∃ result, parse text = .ok result ∧ ∀ other : String → Except ε α,
      cache.get other text = (.ok result,
        { cache with
          entries := without cache.entries text ++ [(text, result)], hits := cache.hits + 1 }) := by
  rw [← h.texts] at hText
  have hRoom : cache.capacity ≠ 0 := by
    intro hNone
    rw [h.entries_eq_nil hNone] at hText
    cases hText
  obtain ⟨result, hFound⟩ := Option.ne_none_iff_exists'.mp
    (mt Assoc.get?_eq_none_iff.mp (not_not.mpr hText))
  refine ⟨result, h.truthful _ (Assoc.mem_of_get? hFound), fun other => ?_⟩
  rw [get, if_neg hRoom, hFound]

/-- Any other text is parsed, and held if that succeeds. -/
theorem get_missed (h : Mirrors parse capacity calls cache)
    (hText : text ∉ kept parse capacity calls) (other : String → Except ε α) :
    cache.get other text = (other text,
      { cache with
        entries := match other text with
          | .ok result => insert cache.capacity cache.entries text result
          | .error _ => cache.entries
        misses := cache.misses + 1 }) := by
  rw [← h.texts] at hText
  rw [get]
  split
  · next hNone =>
    rw [h.entries_eq_nil hNone, hNone]
    cases other text <;> rfl
  · rw [Assoc.get?_eq_none_iff.mpr hText]
    cases other text <;> rfl

/-- The place of a text that is held is enough for it. -/
theorem length_filter_concat_le (h : Mirrors parse capacity calls cache)
    (hText : text ∈ kept parse capacity calls) :
    ((cache.entries.map Prod.fst).filter (· ≠ text) ++ [text]).length ≤ capacity := by
  have hLess : ((kept parse capacity calls).filter (· ≠ text)).length <
      (kept parse capacity calls).length :=
    List.length_filter_lt_length_iff_exists.mpr ⟨text, hText, by simp⟩
  have hRoom : (kept parse capacity calls).length ≤ capacity := by
    rw [kept, length_latestTexts]
    exact Nat.min_le_left _ _
  rw [h.texts, List.length_append, List.length_singleton]
  omega

/-- A text that is held becomes the latest one. -/
theorem behind_hit (h : Mirrors parse capacity calls cache) (hText : text ∈ kept parse capacity calls) :
    Mirrors parse capacity (calls ++ [.get text]) (cache.get parse text).2 := by
  obtain ⟨result, hParse, hGet⟩ := h.get_kept hText
  have hCounts := h.counts
  have hTruthful := (h.truthful.get text).2
  rw [hGet] at hTruthful ⊢
  refine ⟨h.room, ?_, hTruthful, ?_⟩
  · show (without cache.entries text ++ [(text, result)]).map Prod.fst = _
    rw [kept_of_ok hParse, ← h.texts, rtake_of_length_le (h.length_filter_concat_le hText),
      List.map_append, keys_without]
    rfl
  · rw [countP_get]
    show cache.hits + 1 + cache.misses = _
    omega

/-- Any other text becomes the latest one too, unless it cannot be parsed. -/
theorem behind_miss (h : Mirrors parse capacity calls cache) (hText : text ∉ kept parse capacity calls) :
    Mirrors parse capacity (calls ++ [.get text]) (cache.get parse text).2 := by
  have hCounts := h.counts
  have hTruthful := (h.truthful.get text).2
  rw [h.get_missed hText] at hTruthful ⊢
  refine ⟨h.room, ?_, hTruthful, by rw [countP_get]; dsimp only; omega⟩
  dsimp only
  cases hParse : parse text with
  | error e =>
      rw [kept_of_error hParse]
      exact h.texts
  | ok result => rw [kept_of_ok hParse, ← h.texts, keys_insert, h.room]

theorem behind_invalidate (h : Mirrors parse capacity calls cache) :
    Mirrors parse capacity (calls ++ [.invalidate]) cache.invalidate := by
  refine ⟨h.room, (kept_invalidate parse capacity calls).symm, List.forall_mem_nil _, ?_⟩
  rw [List.countP_append]
  exact h.counts

/-- By induction on the calls, the latest one last. -/
theorem run (parse : String → Except ε α) (capacity : Nat) (calls : List Call) :
    Mirrors parse capacity calls (after parse capacity calls) := by
  induction calls using List.reverseRecOn with
  | nil => exact ⟨rfl, (latestTexts_nil capacity).symm, List.forall_mem_nil _, rfl⟩
  | append_singleton calls call ih =>
      rw [after, List.foldl_append, ← after]
      cases call with
      | get text =>
          by_cases hText : text ∈ kept parse capacity calls
          · exact ih.behind_hit hText
          · exact ih.behind_miss hText
      | invalidate => exact ih.behind_invalidate

end Mirrors

/-- How a cache that holds some texts answers a call for a text. A call for one of
them is a hit: parsing is not looked at. Any other call is a miss, which gives
what parsing gives, and one that fails changes nothing else. -/
structure Answers (parse : String → Except ε α) (held : List String) (cache : ParseCache α)
    (text : String) : Prop where
  result : (cache.get parse text).1 = parse text
  hit : text ∈ held → (cache.get parse text).2.hits = cache.hits + 1 ∧
    (cache.get parse text).2.misses = cache.misses ∧
    ∀ other : String → Except ε α, cache.get other text = cache.get parse text
  miss : text ∉ held → (cache.get parse text).2.hits = cache.hits ∧
    (cache.get parse text).2.misses = cache.misses + 1 ∧
    ∀ other : String → Except ε α, (cache.get other text).1 = other text
  failure : ∀ e, parse text = .error e →
    (cache.get parse text).2 = { cache with misses := cache.misses + 1 }

/-- Behind any calls, a cache holds the different texts that were asked for most
recently since it was last emptied, as many as it has room for, and answers
accordingly. -/
theorem holds_latest (parse : String → Except ε α) (capacity : Nat) (calls : List Call) :
    (after parse capacity calls).entries.map Prod.fst = kept parse capacity calls ∧
    (after parse capacity calls).size = min capacity (served parse calls).dedup.length ∧
    (after parse capacity calls).hits + (after parse capacity calls).misses =
      calls.countP Call.isGet ∧
    ∀ text, Answers parse (kept parse capacity calls) (after parse capacity calls) text := by
  have h := Mirrors.run parse capacity calls
  refine ⟨h.texts, ?_, h.counts, fun text => ?_⟩
  · rw [size, ← List.length_map Prod.fst, h.texts, kept, length_latestTexts]
  · have hResult := (h.truthful.get text).1
    by_cases hText : text ∈ kept parse capacity calls
    · obtain ⟨result, hParse, hGet⟩ := h.get_kept hText
      refine ⟨hResult, fun _ => ⟨?_, ?_, fun other => ?_⟩, fun hNone => absurd hText hNone,
        fun e hError => ?_⟩
      · rw [hGet]
      · rw [hGet]
      · rw [hGet, hGet]
      · rw [hParse] at hError
        cases hError
    · refine ⟨hResult, fun hSome => absurd hSome hText, fun _ => ⟨?_, ?_, fun other => ?_⟩,
        fun e hError => ?_⟩
      · rw [h.get_missed hText]
      · rw [h.get_missed hText]
      · rw [h.get_missed hText]
      · rw [h.get_missed hText, hError]

/-- With room for two texts, a text that is asked for again outlasts one that is
not, and a text that cannot be parsed takes no room. -/
example : kept (fun text => if text = "x" then Except.error () else .ok text.length) 2
    [.get "z", .invalidate, .get "a", .get "b", .get "a", .get "x", .get "c"] = ["a", "c"] := by
  decide

end ParseCache

end NoteTemplate
