/-!
Entries under keys in the order of insertion: replacing an entry keeps its place.
-/

namespace NoteTemplate

/-- Entries under keys, in the order of insertion. -/
abbrev Assoc (κ α : Type) := List (κ × α)

namespace Assoc

variable {κ α : Type} [DecidableEq κ]

def get? (entries : Assoc κ α) (key : κ) : Option α :=
  (entries.find? fun field => field.1 == key).map (·.2)

/-- Replace the entry under a key in its place, or add a new one at the end. -/
def set (entries : Assoc κ α) (key : κ) (entry : α) : Assoc κ α :=
  match entries with
  | [] => [(key, entry)]
  | field :: rest =>
    if field.1 = key then (key, entry) :: rest else field :: Assoc.set rest key entry

/-- The entries of a list of pairs: a repeated key keeps its first place and its last entry. -/
def ofPairs (pairs : List (κ × α)) : Assoc κ α :=
  pairs.foldl (fun entries (key, entry) => Assoc.set entries key entry) []

@[simp] theorem get?_nil (key : κ) : Assoc.get? ([] : Assoc κ α) key = none := rfl

/-- Reading a key after an entry was stored. -/
theorem get?_set (entries : Assoc κ α) (key other : κ) (entry : α) :
    Assoc.get? (Assoc.set entries key entry) other =
      if other = key then some entry else Assoc.get? entries other := by
  induction entries with
  | nil =>
    by_cases h : other = key
    · simp [Assoc.set, Assoc.get?, h]
    · simp [Assoc.set, Assoc.get?, h, Ne.symm h]
  | cons field rest ih =>
    by_cases hkey : field.1 = key
    · by_cases h : other = key
      · simp [Assoc.set, Assoc.get?, hkey, h]
      · simp [Assoc.set, Assoc.get?, hkey, h, Ne.symm h]
    · by_cases hother : field.1 = other
      · have : other ≠ key := fun h => hkey (hother.trans h)
        simp [Assoc.set, Assoc.get?, hother, this]
      · have hskip : (field.1 == other) = false := by simpa using hother
        simpa [Assoc.set, Assoc.get?, hkey, List.find?_cons, hskip] using ih

end Assoc

end NoteTemplate
