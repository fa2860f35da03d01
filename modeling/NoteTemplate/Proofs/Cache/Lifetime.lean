import Mathlib.Algebra.Order.BigOperators.Group.List
import Mathlib.Data.NNRat.Defs
import Mathlib.Data.Set.Card
import Mathlib.Tactic.Linarith
import NoteTemplate.Cache.Expiring
import NoteTemplate.Proofs.Cache.Entries

/-! A cache whose entries live for a limited time is a map with a clock: under
a key it has the entry that was put there last, for as long as the time to live
lasts. When dead entries are dropped is not seen from outside. -/
namespace NoteTemplate.ExpiringCache

variable {κ α : Type}

/-- What is done to a cache, and time that passes. -/
inductive Event (κ α : Type) where
  | put (key : κ) (entry : α)
  | getD (key : κ) (default : α)
  | contains (key : κ)
  | erase (key : κ)
  | clear
  | pass (duration : NNRat)

/-- The time that passes in an event. -/
def Event.duration : Event κ α → ℚ
  | .pass duration => duration
  | _ => 0

/-- The time behind some events. -/
def clock (start : ℚ) (events : List (Event κ α)) : ℚ := start + (events.map Event.duration).sum

/-- An event that puts another entry in the place of one, or takes it away. -/
def Event.Replaces (key : κ) : Event κ α → Prop
  | .put other _ => other = key
  | .erase other => other = key
  | .clear => True
  | _ => False

/-- The latest entry that was put under a key, and when. Since then nothing has
replaced it. -/
def LatestPut (start : ℚ) (events : List (Event κ α)) (key : κ) (entry : α) (time : ℚ) : Prop :=
  ∃ before later, events = before ++ .put key entry :: later ∧
    (∀ event ∈ later, ¬ event.Replaces key) ∧ time = clock start before

/-- An entry under a key whose time has not run out. -/
def Lives (ttl start : ℚ) (events : List (Event κ α)) (key : κ) (entry : α) : Prop :=
  ∃ time, LatestPut start events key entry time ∧ clock start events < time + ttl

theorem clock_append (start : ℚ) (events later : List (Event κ α)) :
    clock start (events ++ later) = clock start events + (later.map Event.duration).sum := by
  rw [clock, clock, List.map_append, List.sum_append, add_assoc]

theorem clock_concat (start : ℚ) (events : List (Event κ α)) (event : Event κ α) :
    clock start (events ++ [event]) = clock start events + event.duration := by
  rw [clock_append, List.map_singleton, List.sum_singleton]

theorem Event.duration_nonneg (event : Event κ α) : 0 ≤ event.duration := by
  cases event with
  | pass duration => exact duration.coe_nonneg
  | _ => exact le_refl 0

/-- The clock never goes back. -/
theorem clock_le (start : ℚ) (events later : List (Event κ α)) :
    clock start events ≤ clock start (events ++ later) := by
  have hLater : 0 ≤ (later.map Event.duration).sum := by
    refine List.sum_nonneg fun duration hMem => ?_
    obtain ⟨event, -, rfl⟩ := List.mem_map.mp hMem
    exact event.duration_nonneg
  rw [clock_append]
  linarith

/-- The latest entry under a key is the one that was put just now, or the one from
before if that was not replaced. -/
theorem latestPut_concat {start time : ℚ} {events : List (Event κ α)} {event : Event κ α} {key : κ}
    {entry : α} : LatestPut start (events ++ [event]) key entry time ↔
      event = .put key entry ∧ time = clock start events ∨
        ¬ event.Replaces key ∧ LatestPut start events key entry time := by
  constructor
  · rintro ⟨before, later, hEvents, hLater, hTime⟩
    induction later using List.reverseRecOn with
    | nil =>
        obtain ⟨rfl, hLast⟩ := List.append_inj' hEvents rfl
        exact .inl ⟨(List.cons.inj hLast).1, hTime⟩
    | append_singleton later last =>
        rw [← List.cons_append, ← List.append_assoc] at hEvents
        obtain ⟨rfl, hLast⟩ := List.append_inj' hEvents rfl
        obtain ⟨hBetween, hOld⟩ := List.forall_mem_append.mp hLater
        rw [(List.cons.inj hLast).1]
        exact .inr ⟨hOld last (List.mem_singleton_self last), before, later, rfl, hBetween, hTime⟩
  · rintro (⟨rfl, rfl⟩ | ⟨hOld, before, later, rfl, hLater, rfl⟩)
    · exact ⟨events, [], rfl, List.forall_mem_nil _, rfl⟩
    · exact ⟨before, later ++ [event], by simp,
        List.forall_mem_append.mpr ⟨hLater, List.forall_mem_singleton.mpr hOld⟩, rfl⟩

theorem LatestPut.time_le {start time : ℚ} {events : List (Event κ α)} {key : κ} {entry : α}
    (h : LatestPut start events key entry time) : time ≤ clock start events := by
  obtain ⟨before, later, rfl, -, rfl⟩ := h
  exact clock_le start before _

variable [DecidableEq κ]

/-- A cache and the present time. -/
structure Timed (κ α : Type) where
  cache : ExpiringCache ℚ κ α
  now : ℚ

/-- The cache and the time behind an event. -/
def Timed.behind (t : Timed κ α) : Event κ α → Timed κ α
  | .put key entry => { t with cache := t.cache.put t.now key entry }
  | .getD key default => { t with cache := (t.cache.getD t.now key default).2 }
  | .contains key => { t with cache := (t.cache.contains t.now key).2 }
  | .erase key => { t with cache := t.cache.erase key }
  | .clear => { t with cache := t.cache.clear }
  | .pass duration => { t with now := t.now + duration }

/-- A new cache behind some events. -/
def after (ttl start : ℚ) (events : List (Event κ α)) : Timed κ α :=
  events.foldl Timed.behind ⟨{ ttl }, start⟩

/-- A cache as it ought to be behind some events. It may still have entries that
are dead. -/
structure Mirrors (ttl start : ℚ) (events : List (Event κ α)) (cache : ExpiringCache ℚ κ α) : Prop where
  lifetime : cache.ttl = ttl
  keys : (cache.entries.map Prod.fst).Nodup
  sound : ∀ key deadline entry, (key, deadline, entry) ∈ cache.entries →
    ∃ time, LatestPut start events key entry time ∧ deadline = time + ttl
  complete : ∀ key entry time, LatestPut start events key entry time →
    clock start events < time + ttl → (key, time + ttl, entry) ∈ cache.entries
  empty : ttl ≤ 0 → cache.entries = []

variable {cache : ExpiringCache ℚ κ α} {ttl start now : ℚ} {events : List (Event κ α)}

/-- What is found under a key is the entry whose time has not run out. -/
theorem get?_eq_some_iff (hKeys : (cache.entries.map Prod.fst).Nodup) {key : κ} {entry : α} :
    (cache.get? now key).1 = some entry ↔
      ∃ deadline, (key, deadline, entry) ∈ cache.entries ∧ now < deadline := by
  rw [get?]
  cases hFound : Assoc.get? cache.entries key with
  | none =>
      constructor
      · rintro ⟨⟩
      · rintro ⟨deadline, hMem, -⟩
        rw [Assoc.get?_of_mem hKeys hMem] at hFound
        cases hFound
  | some found =>
      obtain ⟨expires, stored⟩ := found
      dsimp only
      split
      · next hDead =>
        constructor
        · rintro ⟨⟩
        · rintro ⟨deadline, hMem, hLives⟩
          rw [Assoc.get?_of_mem hKeys hMem] at hFound
          cases hFound
          exact absurd hDead (not_le.mpr hLives)
      · next hLives =>
        constructor
        · rintro ⟨⟩
          exact ⟨expires, Assoc.mem_of_get? hFound, not_le.mp hLives⟩
        · rintro ⟨deadline, hMem, -⟩
          rw [Assoc.get?_of_mem hKeys hMem] at hFound
          cases hFound
          rfl

/-- Looking for a key drops nothing but what is dead. -/
theorem get?_behind (hKeys : (cache.entries.map Prod.fst).Nodup) (now : ℚ) (key : κ) :
    ∃ keep : κ × ℚ × α → Bool,
      (cache.get? now key).2 = { cache with entries := cache.entries.filter keep } ∧
      ∀ field ∈ cache.entries, now < field.2.1 → keep field = true := by
  have hSame : cache = { cache with entries := cache.entries.filter fun _ => true } := by
    rw [List.filter_true]
  rw [get?]
  cases hFound : Assoc.get? cache.entries key with
  | none => exact ⟨fun _ => true, hSame, fun _ _ _ => rfl⟩
  | some found =>
      obtain ⟨expires, stored⟩ := found
      dsimp only
      split
      · next hDead =>
        refine ⟨fun field => field.1 ≠ key, rfl, fun ⟨other, deadline, entry⟩ hMem hLives => ?_⟩
        refine decide_eq_true ?_
        rintro rfl
        rw [Assoc.get?_of_mem hKeys hMem] at hFound
        cases hFound
        exact absurd hDead (not_le.mpr hLives)
      · exact ⟨fun _ => true, hSame, fun _ _ _ => rfl⟩

namespace Mirrors

variable {event : Event κ α}

omit [DecidableEq κ] in
/-- Behind an event that puts nothing, some of the entries are left: none that was
replaced, and all others that live. -/
theorem filter (h : Mirrors ttl start events cache) (keep : κ × ℚ × α → Bool)
    (hPut : ∀ key entry, event ≠ .put key entry)
    (hDrop : ∀ field ∈ cache.entries, keep field = true → ¬ event.Replaces field.1)
    (hKeep : ∀ field ∈ cache.entries, clock start events < field.2.1 →
      ¬ event.Replaces field.1 → keep field = true) :
    Mirrors ttl start (events ++ [event]) { cache with entries := cache.entries.filter keep } := by
  refine ⟨h.lifetime, Assoc.nodup_keys_filter h.keys keep, ?_, ?_, ?_⟩
  · intro key deadline entry hMem
    obtain ⟨hOld, hKept⟩ := List.mem_filter.mp hMem
    obtain ⟨time, hLatest, rfl⟩ := h.sound key deadline entry hOld
    exact ⟨time, latestPut_concat.mpr (.inr ⟨hDrop _ hOld hKept, hLatest⟩), rfl⟩
  · intro key entry time hLatest hTime
    rcases latestPut_concat.mp hLatest with ⟨hNew, -⟩ | ⟨hOther, hOld⟩
    · exact absurd hNew (hPut key entry)
    · have hBefore := lt_of_le_of_lt (clock_le start events [event]) hTime
      have hMem := h.complete key entry time hOld hBefore
      exact List.mem_filter.mpr ⟨hMem, hKeep _ hMem hBefore hOther⟩
  · intro hNone
    rw [h.empty hNone]
    rfl

theorem get? (h : Mirrors ttl start events cache) (key : κ)
    (hPut : ∀ key entry, event ≠ .put key entry) (hNone : ∀ key, ¬ event.Replaces key) :
    Mirrors ttl start (events ++ [event]) (cache.get? (clock start events) key).2 := by
  obtain ⟨keep, hBehind, hKeep⟩ := get?_behind h.keys (clock start events) key
  rw [hBehind]
  exact h.filter keep hPut (fun _ _ _ => hNone _) fun field hMem hLives _ => hKeep field hMem hLives

theorem erase (h : Mirrors ttl start events cache) (key : κ) :
    Mirrors ttl start (events ++ [.erase key]) (cache.erase key) := by
  refine h.filter (fun field => field.1 ≠ key) (by simp) ?_ ?_
  · intro field _ hKept hKey
    exact of_decide_eq_true hKept hKey.symm
  · intro field _ _ hOther
    exact decide_eq_true fun hKey => hOther hKey.symm

omit [DecidableEq κ] in
theorem clear (h : Mirrors ttl start events cache) :
    Mirrors ttl start (events ++ [.clear]) cache.clear := by
  have hClear : cache.clear = { cache with entries := cache.entries.filter fun _ => false } := by
    rw [List.filter_false]
    rfl
  rw [hClear]
  exact h.filter _ (by simp) (fun _ _ hKept => by cases hKept) fun _ _ _ hOther => absurd trivial hOther

omit [DecidableEq κ] in
theorem pass (h : Mirrors ttl start events cache) (duration : NNRat) :
    Mirrors ttl start (events ++ [.pass duration]) cache := by
  have hAll : Mirrors ttl start (events ++ [.pass duration])
      { cache with entries := cache.entries.filter fun _ => true } :=
    h.filter _ (by simp) (fun _ _ _ => id) fun _ _ _ _ => rfl
  rwa [List.filter_true] at hAll

/-- Putting an entry sets its deadline, and drops what is dead anyway. -/
theorem put (h : Mirrors ttl start events cache) (key : κ) (entry : α) :
    Mirrors ttl start (events ++ [.put key entry]) (cache.put (clock start events) key entry) := by
  have hTime : clock start (events ++ [.put key entry]) = clock start events :=
    (clock_concat start events _).trans (add_zero _)
  rw [ExpiringCache.put, h.lifetime]
  split
  · next hNone =>
    -- No entry lives in a cache without a time to live.
    have hEntries := h.empty hNone
    refine ⟨h.lifetime, h.keys, ?_, ?_, fun _ => hEntries⟩
    · rw [hEntries]
      exact fun _ _ _ => fun hMem => absurd hMem List.not_mem_nil
    · intro other stored time hLatest hLives
      have hBefore := hLatest.time_le
      linarith
  · next hSome =>
    have hAlive := Assoc.nodup_keys_filter h.keys fun field => ¬ field.2.1 ≤ clock start events
    refine ⟨rfl, Assoc.nodup_keys_set hAlive key _, ?_, ?_, fun hNone => absurd hNone hSome⟩
    · intro other deadline stored hMem
      rcases (Assoc.mem_set_iff hAlive).mp hMem with ⟨rfl, hNew⟩ | ⟨hOther, hOld⟩
      · cases hNew
        exact ⟨clock start events, latestPut_concat.mpr (.inl ⟨rfl, rfl⟩), rfl⟩
      · obtain ⟨time, hLatest, rfl⟩ := h.sound other deadline stored (List.mem_of_mem_filter hOld)
        exact ⟨time, latestPut_concat.mpr (.inr ⟨fun hKey => hOther hKey.symm, hLatest⟩), rfl⟩
    · intro other stored time hLatest hLives
      rw [hTime] at hLives
      refine (Assoc.mem_set_iff hAlive).mpr ?_
      rcases latestPut_concat.mp hLatest with ⟨hNew, rfl⟩ | ⟨hOther, hOld⟩
      · cases hNew
        exact .inl ⟨rfl, rfl⟩
      · have hMem := h.complete other stored time hOld hLives
        exact .inr ⟨fun hKey => hOther hKey.symm,
          List.mem_filter.mpr ⟨hMem, decide_eq_true (not_le.mpr hLives)⟩⟩

/-- By induction on the events, the latest one last. -/
theorem run (ttl start : ℚ) (events : List (Event κ α)) :
    Mirrors ttl start events (after ttl start events).cache ∧
      (after ttl start events).now = clock start events := by
  induction events using List.reverseRecOn with
  | nil =>
      refine ⟨⟨rfl, List.nodup_nil, ?_, ?_, fun _ => rfl⟩, (add_zero start).symm⟩
      · exact fun _ _ _ hMem => absurd hMem List.not_mem_nil
      · rintro key entry time ⟨before, later, hEvents, -⟩
        simp at hEvents
  | append_singleton events event ih =>
      obtain ⟨hCache, hNow⟩ := ih
      rw [after, List.foldl_append, ← after, List.foldl_cons, List.foldl_nil]
      have hTime (hStill : event.duration = 0) :
          (after ttl start events).now = clock start (events ++ [event]) := by
        rw [hNow, clock_concat, hStill, add_zero]
      cases event with
      | put key entry => exact ⟨by rw [Timed.behind, hNow]; exact hCache.put key entry, hTime rfl⟩
      | getD key default =>
          exact ⟨by rw [Timed.behind, hNow]; exact hCache.get? key (by simp) fun _ => id, hTime rfl⟩
      | contains key =>
          exact ⟨by rw [Timed.behind, hNow]; exact hCache.get? key (by simp) fun _ => id, hTime rfl⟩
      | erase key => exact ⟨hCache.erase key, hTime rfl⟩
      | clear => exact ⟨hCache.clear, hTime rfl⟩
      | pass duration =>
          refine ⟨hCache.pass duration, ?_⟩
          rw [clock_concat, ← hNow]
          rfl

/-- An entry is found just when it lives. -/
theorem found_iff (h : Mirrors ttl start events cache) {key : κ} {entry : α} :
    (cache.get? (clock start events) key).1 = some entry ↔ Lives ttl start events key entry := by
  rw [get?_eq_some_iff h.keys]
  constructor
  · rintro ⟨deadline, hMem, hLives⟩
    obtain ⟨time, hLatest, rfl⟩ := h.sound key deadline entry hMem
    exact ⟨time, hLatest, hLives⟩
  · rintro ⟨time, hLatest, hLives⟩
    exact ⟨time + ttl, h.complete key entry time hLatest hLives, hLives⟩

/-- The size counts exactly the keys that live. -/
theorem encard_eq_size (h : Mirrors ttl start events cache) :
    {key | ∃ entry, Lives ttl start events key entry}.encard = cache.size (clock start events) := by
  have hNodup := Assoc.nodup_keys_filter h.keys fun field => ¬ field.2.1 ≤ clock start events
  have hKeys : {key | ∃ entry, Lives ttl start events key entry} =
      (((alive cache.entries (clock start events)).map Prod.fst).toFinset : Set κ) := by
    ext key
    simp only [Set.mem_ofPred_eq, List.coe_toFinset, List.mem_map, alive, List.mem_filter,
      decide_eq_true_eq, not_le]
    constructor
    · rintro ⟨entry, time, hLatest, hLives⟩
      exact ⟨_, ⟨h.complete key entry time hLatest hLives, hLives⟩, rfl⟩
    · rintro ⟨⟨_, deadline, entry⟩, ⟨hMem, hLives⟩, rfl⟩
      obtain ⟨time, hLatest, rfl⟩ := h.sound _ deadline entry hMem
      exact ⟨entry, time, hLatest, hLives⟩
  rw [hKeys, Set.encard_coe_eq_coe_finsetCard, size, alive, List.toFinset_card_of_nodup hNodup,
    List.length_map]

end Mirrors

/-- How a cache answers when some entries live: it gives the living entry under a
key, or else the given default, tells whether there is one, and counts them. -/
structure Answers (lives : κ → α → Prop) (cache : ExpiringCache ℚ κ α) (now : ℚ) : Prop where
  found : ∀ key entry, (cache.get? now key).1 = some entry ↔ lives key entry
  living : ∀ key entry default, lives key entry → (cache.getD now key default).1 = entry
  dead : ∀ key default, (∀ entry, ¬ lives key entry) → (cache.getD now key default).1 = default
  contains : ∀ key, (cache.contains now key).1 = true ↔ ∃ entry, lives key entry
  size : {key | ∃ entry, lives key entry}.encard = cache.size now

/-- Behind any events, a cache answers for the entries that were put last under
their keys, not erased since, and whose time to live is not over. Without a time
to live it is empty. -/
theorem answers_living (ttl start : ℚ) (events : List (Event κ α)) :
    Answers (Lives ttl start events) (after ttl start events).cache (after ttl start events).now ∧
    (after ttl start events).now = clock start events ∧
    (ttl ≤ 0 → (after ttl start events).cache.entries = []) := by
  obtain ⟨h, hNow⟩ := Mirrors.run ttl start events
  rw [hNow]
  refine ⟨⟨fun key entry => h.found_iff, ?_, ?_, ?_, h.encard_eq_size⟩, rfl, h.empty⟩
  · intro key entry default hLives
    rw [getD_fst, h.found_iff.mpr hLives]
    rfl
  · intro key default hDead
    have hNone : ((after ttl start events).cache.get? (clock start events) key).1 = none :=
      Option.eq_none_iff_forall_ne_some.mpr fun entry hFound => hDead entry (h.found_iff.mp hFound)
    rw [getD_fst, hNone]
    rfl
  · intro key
    rw [contains_fst, Option.isSome_iff_exists]
    exact exists_congr fun entry => h.found_iff

/-- An entry is dead from the moment on at which its time is over. -/
example : (after 30 0
    ([.put "a" 1, .pass 10, .put "b" 2, .put "a" 3, .pass 29, .put "c" 4, .contains "b", .pass 1] :
      List (Event String Nat))).cache.size 40 = 1 := by
  decide +kernel

end NoteTemplate.ExpiringCache
