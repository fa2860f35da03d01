import NoteTemplate.Assoc

/-!
A cache of parsed texts. It keeps the results of the texts asked for most recently.
-/

namespace NoteTemplate

/-- Results by text, the least recently asked for first. No capacity means that nothing is kept. -/
structure ParseCache (α : Type) where
  capacity : Nat
  entries : Assoc String α := []
  hits : Nat := 0
  misses : Nat := 0
deriving Inhabited

namespace ParseCache

variable {α ε : Type}

/-- The entries without one text. -/
def without (entries : Assoc String α) (text : String) : Assoc String α :=
  entries.filter fun entry => entry.1 ≠ text

/-- The entries with a new one, the oldest dropped when they are too many. -/
def insert (capacity : Nat) (entries : Assoc String α) (text : String) (result : α) :
    Assoc String α :=
  let longer := without entries text ++ [(text, result)]
  longer.drop (longer.length - capacity)

/-- The result for a text, kept or parsed anew. A text that cannot be parsed is a miss and leaves
the entries as they are. -/
def get (cache : ParseCache α) (parse : String → Except ε α) (text : String) :
    Except ε α × ParseCache α :=
  let missed := { cache with misses := cache.misses + 1 }
  if cache.capacity = 0 then (parse text, missed)
  else
    match Assoc.get? cache.entries text with
    | some result =>
      (.ok result,
        { cache with
          entries := without cache.entries text ++ [(text, result)]
          hits := cache.hits + 1 })
    | none =>
      match parse text with
      | .ok result =>
        (.ok result, { missed with entries := insert cache.capacity cache.entries text result })
      | .error e => (.error e, missed)

/-- Forget all results. The counts go on. -/
def invalidate (cache : ParseCache α) : ParseCache α := { cache with entries := [] }

/-- The number of results that are kept. -/
def size (cache : ParseCache α) : Nat := cache.entries.length

end ParseCache

end NoteTemplate
