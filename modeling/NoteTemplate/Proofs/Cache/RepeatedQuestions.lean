import Mathlib.Algebra.Order.Group.Defs
import Mathlib.Algebra.Order.Group.Int
import NoteTemplate.Filter.Builtin
import NoteTemplate.Proofs.Cache.PageAnswers

/-! Texts that are looked through one after another, with answers of the page kept in
between and while no time passes. What is put into the texts is the same as if nothing
were kept. The page is not asked again what it has answered before, and it is asked
everything else. -/
namespace NoteTemplate

/-- The questions of a log that were not answered earlier in it, behind some others. A
question that failed is put again. -/
def unrepeated (page : PageKey → Except String Value) : List PageKey → List PageKey → List PageKey
  | _, [] => []
  | before, key :: rest =>
    if key ∈ before ∧ (page key).isOk then unrepeated page (before ++ [key]) rest
    else key :: unrepeated page (before ++ [key]) rest

/-- Whether a question counts as repeated depends on the questions in front of it only.
-/
theorem unrepeated_append (page : PageKey → Except String Value) (before log more : List PageKey) :
    unrepeated page before (log ++ more) =
      unrepeated page before log ++ unrepeated page (before ++ log) more := by
  induction log generalizing before with
  | nil => rw [List.nil_append, unrepeated, List.nil_append, List.append_nil]
  | cons key log ih =>
      have hLog : before ++ key :: log = before ++ [key] ++ log := by simp
      rw [List.cons_append, unrepeated, unrepeated, ih, hLog]
      split
      · rfl
      · rw [List.cons_append]

theorem unrepeated_singleton (page : PageKey → Except String Value) (before : List PageKey)
    (key : PageKey) :
    unrepeated page before [key] = if key ∈ before ∧ (page key).isOk then [] else [key] := by
  rw [unrepeated, unrepeated]

namespace ExpiringCache

variable {τ κ α ε : Type} [LE τ] [DecidableLE τ] [Add τ] [OfNat τ 0] [DecidableEq κ]

/-- A cache that keeps exactly the answers to the keys of a log, all of them since one
moment. -/
structure Remembers (answer : κ → Except ε α) (ttl now : τ) (log : List κ)
    (cache : ExpiringCache τ κ α) : Prop where
  lifetime : cache.ttl = ttl
  deadlines : ∀ entry ∈ cache.entries, entry.2.1 = now + ttl
  found : ∀ key, (Assoc.get? cache.entries key).map Prod.snd =
    if key ∈ log then (answer key).toOption else none

variable {answer : κ → Except ε α} {ttl now : τ} {log : List κ} {cache : ExpiringCache τ κ α}

omit [LE τ] [DecidableLE τ] [OfNat τ 0] in
theorem remembers_empty (answer : κ → Except ε α) (ttl now : τ) :
    Remembers answer ttl now [] ({ ttl } : ExpiringCache τ κ α) :=
  ⟨rfl, List.forall_mem_nil _, fun _ => rfl⟩

namespace Remembers

variable (h : Remembers answer ttl now log cache)
include h

omit [OfNat τ 0] in
/-- While no time passes, what is kept is found. -/
theorem get?_eq (hLives : ¬ now + ttl ≤ now) (key : κ) :
    cache.get? now key = (if key ∈ log then (answer key).toOption else none, cache) := by
  rw [← h.found, get?]
  cases hFound : Assoc.get? cache.entries key with
  | none => rfl
  | some entry =>
      obtain ⟨deadline, kept⟩ := entry
      have hDeadline : deadline = now + ttl := h.deadlines _ (Assoc.mem_of_get? hFound)
      simp [hDeadline, hLives]

omit [LE τ] [DecidableLE τ] [OfNat τ 0] in
/-- A failing answer is not kept. -/
theorem failed {key : κ} {message : ε} (hAnswer : answer key = .error message) :
    Remembers answer ttl now (log ++ [key]) cache := by
  refine ⟨h.lifetime, h.deadlines, fun other => ?_⟩
  rw [h.found]
  by_cases hSame : other = key
  · rw [hSame, hAnswer]
    simp [Except.toOption]
  · simp [hSame]

omit [LE τ] [DecidableLE τ] [OfNat τ 0] in
/-- An answer that is kept already is not kept twice. -/
theorem again {key : κ} (hKnown : key ∈ log) : Remembers answer ttl now (log ++ [key]) cache := by
  refine ⟨h.lifetime, h.deadlines, fun other => ?_⟩
  rw [h.found]
  by_cases hSame : other = key
  · simp [hSame, hKnown]
  · simp [hSame]

/-- A new answer is kept beside the others. -/
theorem put (hPositive : ¬ ttl ≤ 0) (hLives : ¬ now + ttl ≤ now) {key : κ} {entry : α}
    (hAnswer : answer key = .ok entry) :
    Remembers answer ttl now (log ++ [key]) (cache.put now key entry) := by
  have hAlive : alive cache.entries now = cache.entries := by
    refine List.filter_eq_self.mpr fun kept hMem => ?_
    rw [h.deadlines kept hMem]
    simpa using hLives
  have hPut : cache.put now key entry =
      { cache with entries := Assoc.set cache.entries key (now + ttl, entry) } := by
    rw [ExpiringCache.put, h.lifetime, if_neg hPositive, hAlive]
  rw [hPut]
  refine ⟨h.lifetime, fun kept hMem => ?_, fun other => ?_⟩
  · rcases Assoc.mem_of_mem_set hMem with ⟨_, hNew⟩ | hOld
    · rw [hNew]
    · exact h.deadlines kept hOld
  · rw [Assoc.get?_set]
    by_cases hSame : other = key
    · simp [hSame, hAnswer, Except.toOption]
    · simp [hSame, h.found]

end Remembers

end ExpiringCache

namespace PostProcessor

/-- A text to be looked through, with the variables, the address and the tab of its page. -/
structure Task where
  text : String
  vars : Variables := []
  url : String := ""
  tab : Option Int := none

/-- A question to the page of a task. -/
def Task.key (task : Task) (query : SelectorQuery) : PageKey := ⟨task.tab, task.url, query⟩

/-- What looks through the text of a task. It asks the page in the tab at the address. -/
def Task.processor (base : PostProcessor) (page : PageKey → Except String Value) (task : Task) :
    PostProcessor :=
  { base with
    surroundings := { base.surroundings with selectors := some fun query => page (task.key query) }
    vars := task.vars, url := task.url, tab := task.tab }

/-- What comes of tasks, the questions that the page is asked in each, and the session
behind them. -/
structure Report (τ : Type) where
  outputs : List (Except Fault String)
  log : List PageKey
  behind : Session τ

variable {τ : Type} [LE τ] [DecidableLE τ] [Add τ] [OfNat τ 0]

/-- Tasks are done one after another in one session. -/
def report (base : PostProcessor) (page : PageKey → Except String Value) :
    List Task → Session τ → Report τ
  | [], s => ⟨[], [], s⟩
  | task :: rest, s =>
    let (output, behind) := (task.processor base page).process task.text s
    let asked := behind.queries.drop s.queries.length
    let later := report base page rest behind
    ⟨output :: later.outputs, asked.map task.key ++ later.log, later.behind⟩

/-- A report of everything that is asked behind some session. -/
def Report.Complete (r : Report τ) (s : Session τ) : Prop :=
  r.behind.queries = s.queries ++ r.log.map PageKey.query

variable {page : PageKey → Except String Value} {ttl now : τ} {before : List PageKey}

/-- Two sessions, the second of which keeps exactly the answers to the questions of a log. -/
structure Keeping (page : PageKey → Except String Value) (ttl now : τ) (log : List PageKey)
    (s t : Session τ) : Prop where
  plain : s.cache = none
  still : t.now = now
  cached : ∃ cache, t.cache = some cache ∧ cache.Remembers page ttl now log

/-- Two sessions in one task. Behind what they asked before, the first one has asked some
questions, and the second one those of them that were not answered before. -/
def Sparing (page : PageKey → Except String Value) (ttl now : τ) (before : List PageKey)
    (task : Task) (first second : List SelectorQuery) (s t : Session τ) : Prop :=
  ∃ asked kept, s.queries = first ++ asked ∧ t.queries = second ++ kept ∧
    kept.map task.key = unrepeated page before (asked.map task.key) ∧
    Keeping page ttl now (before ++ asked.map task.key) s t

omit [LE τ] [DecidableLE τ] [OfNat τ 0] in
/-- One more question of the first session. The second one puts it too, unless it was
answered before. -/
theorem sparing_behind {task : Task} {first second asked kept more : List SelectorQuery}
    {query : SelectorQuery} {s t s' t' : Session τ} (hAsked : s.queries = first ++ asked)
    (hKept : t.queries = second ++ kept)
    (hSpared : kept.map task.key = unrepeated page before (asked.map task.key))
    (hQuery : s'.queries = s.queries ++ [query]) (hMore : t'.queries = t.queries ++ more)
    (hLast : more.map task.key =
      unrepeated page (before ++ asked.map task.key) [task.key query])
    (hBehind : Keeping page ttl now (before ++ asked.map task.key ++ [task.key query]) s' t') :
    Sparing page ttl now before task first second s' t' := by
  refine ⟨asked ++ [query], kept ++ more, ?_, ?_, ?_, ?_⟩
  · rw [hQuery, hAsked, List.append_assoc]
  · rw [hMore, hKept, List.append_assoc]
  · rw [List.map_append, List.map_append, List.map_singleton, unrepeated_append, hSpared, hLast]
  · rw [List.map_append, List.map_singleton, ← List.append_assoc]
    exact hBehind

section
variable (hPositive : ¬ ttl ≤ 0) (hLives : ¬ now + ttl ≤ now) (base : PostProcessor)
include hPositive hLives

/-- A question to the page is answered alike. Only one that was answered before is spared. -/
theorem select_sparing (task : Task) (first second : List SelectorQuery) (query : SelectorQuery) :
    let p := task.processor base page
    Uniform (Sparing page ttl now before task first second)
      (select p.surroundings ⟨p.tab, p.url, query⟩) := by
  rintro p s t ⟨asked, kept, hAsked, hKept, hSpared, hPlain, hStill, cache, hCached, hRemembers⟩
  have hSelectors : p.surroundings.selectors = some fun query => page (task.key query) := rfl
  have hKey : (⟨p.tab, p.url, query⟩ : PageKey) = task.key query := rfl
  have hQuery : (task.key query).query = query := rfl
  simp only [select, hSelectors, hKey, hPlain, hCached, hStill, hRemembers.get?_eq hLives]
  cases hPage : page (task.key query) with
  | error message =>
      have hNone : (if task.key query ∈ before ++ asked.map task.key then
          (Except.error message : Except String Value).toOption else none) = none := ite_self none
      have hAgain : [query].map task.key =
          unrepeated page (before ++ asked.map task.key) [task.key query] := by
        simp [unrepeated_singleton, hPage, Except.isOk, Except.toBool]
      simp only [hNone, ask, hQuery, hPage]
      exact .intro _ (sparing_behind hAsked hKept hSpared rfl rfl hAgain
        ⟨hPlain, rfl, cache, rfl, hRemembers.failed hPage⟩)
  | ok v =>
      have hOk : (page (task.key query)).isOk = true := by
        rw [hPage]
        rfl
      by_cases hKnown : task.key query ∈ before ++ asked.map task.key
      · have hSpare : [].map task.key =
            unrepeated page (before ++ asked.map task.key) [task.key query] := by
          rw [unrepeated_singleton, if_pos ⟨hKnown, hOk⟩, List.map_nil]
        simp only [if_pos hKnown, Except.toOption, ask, hQuery, hPage, hPlain, Option.map_none]
        exact .intro _ (sparing_behind hAsked hKept hSpared rfl (List.append_nil _).symm hSpare
          ⟨rfl, rfl, cache, rfl, hRemembers.again hKnown⟩)
      · have hNew : [query].map task.key =
            unrepeated page (before ++ asked.map task.key) [task.key query] := by
          rw [unrepeated_singleton, if_neg fun h => hKnown h.1, List.map_singleton]
        simp only [if_neg hKnown, ask, hQuery, hPage, hPlain, Option.map_none, Option.map_some]
        exact .intro _ (sparing_behind hAsked hKept hSpared rfl rfl hNew
          ⟨rfl, rfl, _, rfl, hRemembers.put hPositive hLives hPage⟩)

/-- A task is done alike, and its questions to the page are spared alike. -/
theorem process_sparing (task : Task) (first second : List SelectorQuery) :
    Uniform (Sparing page ttl now before task first second)
      (process (task.processor base page) task.text) := by
  have hCouples : Couples (task.processor base page)
      (Sparing page ttl now before task first second) := by
    refine ⟨fun question h => ?_, select_sparing hPositive hLives base task first second⟩
    obtain ⟨asked, kept, hAsked, hKept, hSpared, hPlain, hStill, hCached⟩ := h
    exact ⟨asked, kept, hAsked, hKept, hSpared, hPlain, hStill, hCached⟩
  exact process_uniform hCouples task.text

omit [LE τ] [DecidableLE τ] [Add τ] [OfNat τ 0] hPositive hLives in
theorem map_query_key (task : Task) (asked : List SelectorQuery) :
    (asked.map task.key).map PageKey.query = asked := by
  rw [List.map_map]
  exact List.map_id _

/-- By induction on the tasks, for any log of questions before them. -/
theorem report_keeping (tasks : List Task) {s t : Session τ} (h : Keeping page ttl now before s t) :
    let plain := report base page tasks s
    let cached := report base page tasks t
    cached.outputs = plain.outputs ∧ cached.log = unrepeated page before plain.log ∧
      plain.Complete s ∧ cached.Complete t := by
  simp only [Report.Complete]
  induction tasks generalizing before s t with
  | nil => exact ⟨rfl, rfl, (List.append_nil _).symm, (List.append_nil _).symm⟩
  | cons task rest ih =>
      have hStart : Sparing page ttl now before task s.queries t.queries s t :=
        ⟨[], [], by simp, by simp, rfl, by simpa using h⟩
      have hAgree := process_sparing hPositive hLives base task s.queries t.queries s t hStart
      simp only [report]
      generalize process (task.processor base page) task.text s = left,
        process (task.processor base page) task.text t = right at hAgree
      cases hAgree with
      | @intro output s' t' hBehind =>
          obtain ⟨asked, kept, hAsked, hKept, hSpared, hKeeping⟩ := hBehind
          obtain ⟨hOutputs, hLog, hPlain, hCached⟩ := ih hKeeping
          have hLeft : s'.queries.drop s.queries.length = asked := by rw [hAsked, List.drop_left]
          have hRight : t'.queries.drop t.queries.length = kept := by rw [hKept, List.drop_left]
          dsimp only
          rw [hLeft, hRight, hOutputs, hPlain, hCached, hAsked, hKept]
          refine ⟨rfl, ?_, ?_, ?_⟩
          · rw [hLog, hSpared, unrepeated_append]
          · rw [List.map_append, map_query_key, List.append_assoc]
          · rw [List.map_append, map_query_key, List.append_assoc]

end

/-- Texts are looked through one after another while the clock stands still. With answers
kept for some time, the texts that come out are the same as without. Of the questions
that are put to the page without, exactly those are missing that were answered before
in the same tab at the same address, if only by nothing; a question that failed is put
again. The page may differ from tab to tab and from address to address. -/
theorem report_cached {τ : Type} [AddCommGroup τ] [LinearOrder τ] [IsOrderedAddMonoid τ]
    (base : PostProcessor) (page : PageKey → Except String Value) {ttl : τ} (hTtl : 0 < ttl) (now : τ)
    (tasks : List Task) :
    let plain := report base page tasks { now }
    let cached := report base page tasks { now, cache := some { ttl } }
    cached.outputs = plain.outputs ∧ cached.log = unrepeated page [] plain.log ∧
      plain.behind.queries = plain.log.map PageKey.query ∧
      cached.behind.queries = cached.log.map PageKey.query := by
  have hLives : ¬ now + ttl ≤ now := not_le.mpr (lt_add_of_pos_right now hTtl)
  have hStart : Keeping page ttl now [] { now } { now, cache := some { ttl } } :=
    ⟨rfl, rfl, _, rfl, ExpiringCache.remembers_empty page ttl now⟩
  exact report_keeping (not_le.mpr hTtl) hLives base tasks hStart

/-- A page that shows its address, has no links and no pictures. -/
def barePage (key : PageKey) : Except String Value :=
  if key.query.selector = "img" then .error "gone"
  else .ok (if key.query.selector = "a" then .null else .str key.url)

/-- Two texts for one tab, and one for another. -/
def bareTasks : List Task :=
  let once := "\x7b\x7bselector:img\x7d\x7d\x7b\x7bselector:a?href\x7d\x7d"
  let title := "\x7b\x7bselector: h1|upper\x7d\x7d"
  [⟨once ++ title, [], "u", some 1⟩, ⟨once ++ title, [], "u", some 1⟩, ⟨title, [], "u", some 2⟩]

/-- A question to the page in one of the tabs. -/
def bareKey (tab : Int) (selector : String) (attr : Option String := none) : PageKey :=
  ⟨some tab, "u", ⟨selector, attr, false⟩⟩

theorem report_cached_bare :
    let base : PostProcessor := { registry := Filter.standard }
    let plain := report base barePage bareTasks { now := (5 : Int) }
    let cached := report base barePage bareTasks { now := (5 : Int), cache := some { ttl := 30 } }
    (0 : Int) < 30 ∧ cached.outputs = [.ok "U", .ok "U", .ok "U"] ∧
      plain.log = [bareKey 1 "img", bareKey 1 "a" "href", bareKey 1 "h1",
        bareKey 1 "img", bareKey 1 "a" "href", bareKey 1 "h1", bareKey 2 "h1"] ∧
      cached.log = [bareKey 1 "img", bareKey 1 "a" "href", bareKey 1 "h1",
        bareKey 1 "img", bareKey 2 "h1"] := by
  intro base plain cached
  have hTtl : (0 : Int) < 30 := by decide
  have hPlain : plain.outputs = [.ok "U", .ok "U", .ok "U"] ∧
      plain.log = [bareKey 1 "img", bareKey 1 "a" "href", bareKey 1 "h1",
        bareKey 1 "img", bareKey 1 "a" "href", bareKey 1 "h1", bareKey 2 "h1"] := by
    decide +kernel
  obtain ⟨hOutputs, hLog⟩ := hPlain
  obtain ⟨hSame, hSpared, -, -⟩ := report_cached base barePage hTtl 5 bareTasks
  refine ⟨hTtl, hSame.trans hOutputs, hLog, hSpared.trans ?_⟩
  show unrepeated barePage [] plain.log = _
  rw [hLog]
  decide +kernel

end PostProcessor

end NoteTemplate
