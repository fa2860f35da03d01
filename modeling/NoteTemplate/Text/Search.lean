/-!
Looking for one text inside another: prefixes, first occurrences, replacement and splitting.
-/

namespace NoteTemplate.Text

/-- What is left of a text after a leading part, if it begins with that part. -/
def dropPrefix? : List Char → List Char → Option (List Char)
  | [], cs => some cs
  | _ :: _, [] => none
  | p :: ps, c :: cs => if p = c then dropPrefix? ps cs else none

def startsWith (part cs : List Char) : Bool := part.isPrefixOf cs

def endsWith (part cs : List Char) : Bool := part.isSuffixOf cs

/-- The text before and after the first occurrence of a part. -/
def cutAt? (part : List Char) : List Char → Option (List Char × List Char)
  | [] => if part.isEmpty then some ([], []) else none
  | c :: rest =>
    match dropPrefix? part (c :: rest) with
    | some after => some ([], after)
    | none => (cutAt? part rest).map fun (before, after) => (c :: before, after)

def occursIn (part cs : List Char) : Bool := (cutAt? part cs).isSome

/-- What follows a leading part is no longer than the text. -/
theorem length_of_dropPrefix? {part cs after : List Char}
    (h : dropPrefix? part cs = some after) : cs.length = part.length + after.length := by
  induction part generalizing cs with
  | nil => simp_all [dropPrefix?]
  | cons p ps ih =>
    cases cs with
    | nil => simp [dropPrefix?] at h
    | cons c rest =>
      simp only [dropPrefix?] at h
      split at h
      · simp only [List.length_cons, ih h]
        omega
      · simp at h

/-- Cutting at a part loses exactly that part. -/
theorem length_of_cutAt? {part cs before after : List Char}
    (h : cutAt? part cs = some (before, after)) :
    cs.length = before.length + part.length + after.length := by
  induction cs generalizing before with
  | nil =>
    cases part with
    | nil => simp_all [cutAt?]
    | cons p ps => simp [cutAt?] at h
  | cons c rest ih =>
    simp only [cutAt?] at h
    split at h
    · next found hfound =>
      simp only [Option.some.injEq, Prod.mk.injEq] at h
      obtain ⟨rfl, rfl⟩ := h
      have := length_of_dropPrefix? hfound
      simp only [List.length_cons, List.length_nil] at *
      omega
    · simp only [Option.map_eq_some_iff, Prod.exists, Prod.mk.injEq] at h
      obtain ⟨inner, outer, hcut, rfl, rfl⟩ := h
      have := ih hcut
      simp only [List.length_cons]
      omega

/-- The pieces of a text between the occurrences of a separator, taken from the left. An empty
separator cuts nothing. -/
def splitAt (sep cs : List Char) : List (List Char) :=
  match h : cutAt? sep cs with
  | none => [cs]
  | some (before, after) =>
    if hs : sep = [] then [cs]
    else
      have : after.length < cs.length := by
        have := length_of_cutAt? h
        have := List.length_pos_iff.mpr hs
        omega
      before :: splitAt sep after
termination_by cs.length

/-- Every occurrence of a part, taken from the left, gives way to a replacement. -/
def replaceAll (part replacement cs : List Char) : List Char :=
  List.intercalate replacement (splitAt part cs)

/-- The pieces of a text between the characters equal to a separator. -/
def splitOnChar (sep : Char) : List Char → List (List Char)
  | [] => [[]]
  | c :: rest =>
    if c = sep then [] :: splitOnChar sep rest
    else match splitOnChar sep rest with
      | [] => [[c]]
      | piece :: pieces => (c :: piece) :: pieces

/-- The text before and after the first occurrence of a character. -/
def cutAtChar? (sep : Char) : List Char → Option (List Char × List Char)
  | [] => none
  | c :: rest =>
    if c = sep then some ([], rest)
    else (cutAtChar? sep rest).map fun (before, after) => (c :: before, after)

def joinWith (sep : String) (parts : List String) : String := String.intercalate sep parts

end NoteTemplate.Text
