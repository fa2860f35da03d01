import NoteTemplate.Fault
import NoteTemplate.Text.Search
import NoteTemplate.Text.Word

/-!
Texts with slots such as `${author.name}`, which paths into a value fill.
-/

namespace NoteTemplate

open NoteTemplate.Text

/-- A piece of a text with slots: a character that stands for itself, or a slot with its path. -/
inductive Piece where
  | char (c : Char)
  | slot (path : List Char)
deriving Repr, DecidableEq

namespace Piece

def isPathChar (c : Char) : Bool := isWord c || c == '.' || c == '[' || c == ']'

/-- The path of a slot, behind its opening mark, and the text behind the slot. -/
def readSlot? (cs : List Char) : Option (List Char × List Char) :=
  let path := cs.takeWhile isPathChar
  match cs.dropWhile isPathChar with
  | c :: after => if c = '\x7d' && path ≠ [] then some (path, after) else none
  | [] => none

/-- The text behind a slot is shorter. -/
theorem length_of_readSlot? {cs path after : List Char} (h : readSlot? cs = some (path, after)) :
    after.length < cs.length := by
  unfold readSlot? at h
  have := (List.dropWhile_suffix isPathChar (l := cs)).length_le
  split at h
  · next c rest hrest =>
    dsimp only at h
    split at h
    · simp only [Option.some.injEq, Prod.mk.injEq] at h
      rw [hrest, h.2, List.length_cons] at this
      omega
    · simp at h
  · simp at h

/-- The pieces of a text. A mark that opens no slot stands for itself. -/
def ofChars : List Char → List Piece
  | [] => []
  | c :: d :: rest =>
    if c = '$' && d = '\x7b' then
      match h : readSlot? rest with
      | some (path, after) =>
        have := length_of_readSlot? h
        slot path :: ofChars after
      | none => char c :: ofChars (d :: rest)
    else char c :: ofChars (d :: rest)
  | [c] => [char c]
termination_by cs => cs.length
decreasing_by
  all_goals simp only [List.length_cons]
  all_goals omega

def fill (lookup : List Char → Except Fault (List Char)) : List Piece → Except Fault (List Char)
  | [] => .ok []
  | char c :: rest => return c :: (← fill lookup rest)
  | slot path :: rest => return (← lookup path) ++ (← fill lookup rest)

end Piece

end NoteTemplate
