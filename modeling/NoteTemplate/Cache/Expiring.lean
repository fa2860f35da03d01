import NoteTemplate.Assoc

/-!
A cache whose entries live for a limited time. Times may be of any ordered kind with addition; every
operation is told the present time.
-/

namespace NoteTemplate

/-- Entries with the time from which they are dead. -/
structure ExpiringCache (τ κ α : Type) where
  ttl : τ
  entries : Assoc κ (τ × α) := []

namespace ExpiringCache

variable {τ κ α : Type} [LE τ] [DecidableLE τ] [Add τ] [OfNat τ 0] [DecidableEq κ]

/-- The entries without one key. -/
def without (entries : Assoc κ (τ × α)) (key : κ) : Assoc κ (τ × α) :=
  entries.filter fun entry => entry.1 ≠ key

/-- The entries that live at a time. -/
def alive (entries : Assoc κ (τ × α)) (now : τ) : Assoc κ (τ × α) :=
  entries.filter fun entry => ¬ entry.2.1 ≤ now

/-- The living entry under a key. A dead one is dropped. -/
def get? (cache : ExpiringCache τ κ α) (now : τ) (key : κ) :
    Option α × ExpiringCache τ κ α :=
  match Assoc.get? cache.entries key with
  | none => (none, cache)
  | some (expires, entry) =>
    if expires ≤ now then (none, { cache with entries := without cache.entries key })
    else (some entry, cache)

/-- The living entry under a key, or else the given one. -/
def getD (cache : ExpiringCache τ κ α) (now : τ) (key : κ) (default : α) :
    α × ExpiringCache τ κ α :=
  let (found, cache) := cache.get? now key
  (found.getD default, cache)

/-- Whether there is a living entry under a key. -/
def contains (cache : ExpiringCache τ κ α) (now : τ) (key : κ) : Bool × ExpiringCache τ κ α :=
  let (found, cache) := cache.get? now key
  (found.isSome, cache)

omit [Add τ] [OfNat τ 0] in
theorem getD_fst (cache : ExpiringCache τ κ α) (now : τ) (key : κ) (default : α) :
    (cache.getD now key default).1 = (cache.get? now key).1.getD default := rfl

omit [Add τ] [OfNat τ 0] in
theorem contains_fst (cache : ExpiringCache τ κ α) (now : τ) (key : κ) :
    (cache.contains now key).1 = (cache.get? now key).1.isSome := rfl

/-- Store an entry; dead ones are dropped. Without a time to live nothing is stored. -/
def put (cache : ExpiringCache τ κ α) (now : τ) (key : κ) (entry : α) : ExpiringCache τ κ α :=
  if cache.ttl ≤ 0 then cache
  else { cache with entries := Assoc.set (alive cache.entries now) key (now + cache.ttl, entry) }

/-- Forget the entry under a key. -/
def erase (cache : ExpiringCache τ κ α) (key : κ) : ExpiringCache τ κ α :=
  { cache with entries := without cache.entries key }

/-- Forget all entries. -/
def clear (cache : ExpiringCache τ κ α) : ExpiringCache τ κ α := { cache with entries := [] }

/-- The number of living entries. -/
def size (cache : ExpiringCache τ κ α) (now : τ) : Nat := (alive cache.entries now).length

end ExpiringCache

end NoteTemplate
