import NoteTemplate.PostProcess
import NoteTemplate.Proofs.Cache.Entries
import NoteTemplate.Proofs.Render.Parametric

/-! Answers of a page that are kept. Each is what the page in that tab at that
address gives to the question, and a failing answer is never kept, so what is put
in the place of a placeholder does not depend on the answers that are kept. -/
namespace NoteTemplate

namespace ExpiringCache

variable {τ κ α ε : Type} {answer : κ → Except ε α} {cache : ExpiringCache τ κ α}

/-- Every entry that is kept is the answer to its key. -/
def Truthful (answer : κ → Except ε α) (cache : ExpiringCache τ κ α) : Prop :=
  ∀ key deadline entry, (key, deadline, entry) ∈ cache.entries → answer key = .ok entry

theorem truthful_of_empty (h : cache.entries = []) : Truthful answer cache := by
  intro key deadline entry hMem
  rw [h] at hMem
  cases hMem

variable [LE τ] [DecidableLE τ] [DecidableEq κ]

/-- What a truthful cache gives is the answer, and looking does not spoil it. -/
theorem Truthful.get? (h : Truthful answer cache) (now : τ) (key : κ) :
    (∀ entry, (cache.get? now key).1 = some entry → answer key = .ok entry) ∧
      Truthful answer (cache.get? now key).2 := by
  rw [ExpiringCache.get?]
  cases hFound : Assoc.get? cache.entries key with
  | none => exact ⟨by rintro _ ⟨⟩, h⟩
  | some found =>
      obtain ⟨expires, entry⟩ := found
      dsimp only
      split
      · refine ⟨by rintro _ ⟨⟩, fun other deadline stored hMem => ?_⟩
        exact h other deadline stored (List.mem_of_mem_filter hMem)
      · refine ⟨?_, h⟩
        rintro _ ⟨⟩
        exact h key expires entry (Assoc.mem_of_get? hFound)

/-- Putting what was answered keeps a cache truthful. -/
theorem Truthful.put [Add τ] [OfNat τ 0] (h : Truthful answer cache) (now : τ) {key : κ} {entry : α}
    (hAnswer : answer key = .ok entry) : Truthful answer (cache.put now key entry) := by
  rw [ExpiringCache.put]
  split
  · exact h
  · intro other deadline stored hMem
    rcases Assoc.mem_of_mem_set hMem with ⟨rfl, hNew⟩ | hOld
    · cases hNew
      exact hAnswer
    · exact h other deadline stored (List.mem_of_mem_filter hOld)

end ExpiringCache

variable {τ : Type} {page : PageKey → Except String Value}

/-! Questions to the page. -/

/-- Surroundings that ask a page in a tab at an address, if they ask a page at all. -/
def Surroundings.Shows (surroundings : Surroundings) (page : PageKey → Except String Value)
    (tab : Option Int) (url : String) : Prop :=
  ∀ answer, surroundings.selectors = some answer → ∀ query, answer query = page ⟨tab, url, query⟩

/-- A session in which every kept answer is that of the page. -/
def Session.Truthful (page : PageKey → Except String Value) (s : Session τ) : Prop :=
  ∀ cache, s.cache = some cache → cache.Truthful page

/-- Two sessions that put the same questions in words and keep answers of the same
page. -/
structure Session.Alike (page : PageKey → Except String Value) (s t : Session τ) : Prop where
  prompts : s.prompts = t.prompts
  left : s.Truthful page
  right : t.Truthful page

/-- What a page is seen to hold; a failing answer is nothing. -/
def seen (page : PageKey → Except String Value) (surroundings : Surroundings) (key : PageKey) : Value :=
  match surroundings.selectors, page key with
  | some _, .ok v => v
  | _, _ => .null

namespace PostProcessor

variable [LE τ] [DecidableLE τ] [Add τ] [OfNat τ 0] {surroundings : Surroundings} {tab : Option Int}
  {url : String} {s : Session τ} {p : PostProcessor}

/-- An answer that is kept is that of the page. -/
theorem ask_truthful (h : s.Truthful page) {key : PageKey}
    {answer : SelectorQuery → Except String Value} (hAnswer : answer key.query = page key)
    (hSelectors : surroundings.selectors = some answer) : ∃ behind,
      ask key answer s = (seen page surroundings key, behind) ∧ behind.prompts = s.prompts ∧
        behind.Truthful page := by
  simp only [ask, seen, hSelectors, hAnswer]
  cases hPage : page key with
  | error message => exact ⟨_, rfl, rfl, h⟩
  | ok v =>
      refine ⟨_, rfl, rfl, fun cache hCache => ?_⟩
      obtain ⟨kept, hKept, rfl⟩ := Option.map_eq_some_iff.mp hCache
      exact (h kept hKept).put s.now hPage

/-- What is found on a page does not depend on the answers that are kept. -/
theorem select_truthful (h : s.Truthful page) (hShows : surroundings.Shows page tab url)
    (query : SelectorQuery) : ∃ behind,
      select surroundings ⟨tab, url, query⟩ s = (seen page surroundings ⟨tab, url, query⟩, behind) ∧
        behind.prompts = s.prompts ∧ behind.Truthful page := by
  cases hSelectors : surroundings.selectors with
  | none => exact ⟨s, by simp only [select, seen, hSelectors], rfl, h⟩
  | some answer =>
      have hAnswer : answer query = page ⟨tab, url, query⟩ := hShows answer hSelectors query
      simp only [select, hSelectors]
      cases hCache : s.cache with
      | none => exact ask_truthful h hAnswer hSelectors
      | some cache =>
          obtain ⟨hFound, hLeft⟩ := (h cache hCache).get? s.now ⟨tab, url, query⟩
          dsimp only
          generalize cache.get? s.now ⟨tab, url, query⟩ = looked at hFound hLeft
          obtain ⟨found, left⟩ := looked
          have hKept : Session.Truthful page { s with cache := some left } := by
            rintro _ ⟨⟩
            exact hLeft
          cases found with
          | none => exact ask_truthful hKept hAnswer hSelectors
          | some v =>
              refine ⟨{ s with cache := some left }, ?_, rfl, hKept⟩
              rw [seen, hSelectors, hFound v rfl]

theorem select_uniform (hShows : surroundings.Shows page tab url) (query : SelectorQuery) :
    Uniform (Session.Alike page) (select (τ := τ) surroundings ⟨tab, url, query⟩) := by
  intro s t h
  obtain ⟨s', hSelect, hPrompts, hTruthful⟩ := select_truthful h.left hShows query
  obtain ⟨t', hOther, hSame, hTrue⟩ := select_truthful h.right hShows query
  rw [hSelect, hOther]
  exact .intro _ ⟨hPrompts.trans (h.prompts.trans hSame.symm), hTruthful, hTrue⟩

/-- A relation of sessions that is kept by questions in words, and in which questions
to the page are answered alike. -/
structure Couples (p : PostProcessor) (R : Session τ → Session τ → Prop) : Prop where
  asked : ∀ {s t : Session τ} (question : String), R s t →
    R { s with prompts := s.prompts ++ [question] } { t with prompts := t.prompts ++ [question] }
  selected : ∀ query, Uniform R (select p.surroundings ⟨p.tab, p.url, query⟩)

theorem couples_alike (hShows : p.surroundings.Shows page p.tab p.url) :
    Couples p (Session.Alike (τ := τ) page) where
  asked question h := ⟨by rw [h.prompts], h.left, h.right⟩
  selected query := select_uniform hShows query

section
variable {R : Session τ → Session τ → Prop} (hCouples : Couples p R)
include hCouples

/-- Resolving a question in words does not depend on what the caches hold. -/
theorem prompt_uniform (head : String) : Uniform R (prompt p head) := by
  intro s t h
  simp only [prompt]
  split
  · next question answer _ _ =>
    have hAsked := hCouples.asked question h
    cases answer question p.vars <;> exact .intro _ hAsked
  · exact .intro _ h

theorem answer_uniform (head : String) : Uniform R (answer p head) := by
  intro s t h
  simp only [answer]
  split
  · cases SelectorQuery.ofName head with
    | error f => exact .intro _ h
    | ok query =>
        have hAgree := hCouples.selected query s t h
        dsimp only
        generalize select p.surroundings ⟨p.tab, p.url, query⟩ s = first,
          select p.surroundings ⟨p.tab, p.url, query⟩ t = second at hAgree
        cases hAgree with
        | intro v hBehind => exact .intro _ hBehind
  · split
    · exact .intro _ h
    · split
      · have hAgree := prompt_uniform hCouples head s t h
        generalize prompt p head s = first, prompt p head t = second at hAgree
        cases hAgree with
        | intro d hBehind => exact .intro _ hBehind
      · exact .intro _ h

theorem replace_uniform (body : List Char) : Uniform R (replace p body) := by
  intro s t h
  simp only [replace]
  split
  · exact .intro _ h
  · generalize (Placeholder.request (Text.strip (String.ofList body))).head = head
    have hAgree := answer_uniform hCouples head s t h
    generalize answer p head s = first, answer p head t = second at hAgree
    cases hAgree with
    | intro outcome hBehind => rcases outcome with f | _ | d <;> exact .intro _ hBehind

/-- By induction on the pieces of a text: a second look does not depend on what the
caches hold. -/
theorem processPieces_uniform (pieces : List Placeholder.Piece) :
    Uniform R (processPieces p · pieces) := by
  induction pieces with
  | nil => exact fun s t h => .intro _ h
  | cons piece rest ih =>
      intro s t h
      have hAgree : Agree R (processPiece p s piece) (processPiece p t piece) := by
        cases piece with
        | char c => exact .intro _ h
        | placeholder body => exact replace_uniform hCouples body s t h
      simp only [processPieces]
      generalize processPiece p s piece = first, processPiece p t piece = second at hAgree
      cases hAgree with
      | @intro outcome s t hBehind =>
          cases outcome with
          | error f => exact .intro _ hBehind
          | ok text =>
              have hRest := ih s t hBehind
              dsimp only at hRest ⊢
              generalize processPieces p s rest = first, processPieces p t rest = second at hRest
              cases hRest with
              | intro outcome hLast => cases outcome <;> exact .intro _ hLast

theorem process_uniform (text : String) : Uniform R (process p text) :=
  processPieces_uniform hCouples _

end

end PostProcessor

end NoteTemplate
