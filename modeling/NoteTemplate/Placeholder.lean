import NoteTemplate.Filter.Param

/-!
Placeholders in a rendered text: an expression in double braces whose value is still to be found.
Braces inside quotes do not end a placeholder.
-/

namespace NoteTemplate.Placeholder

/-- The rest of a string behind its opening quote, with the closing quote; none if it is open. -/
def quotedRun? (quote : Char) : List Char → Option (List Char × List Char)
  | [] => none
  | c :: rest =>
    if c = quote then some ([c], rest)
    else if c = '\\' then
      match rest with
      | e :: rest => (quotedRun? quote rest).map fun (run, after) => (c :: e :: run, after)
      | [] => none
    else (quotedRun? quote rest).map fun (run, after) => (c :: run, after)

/-- A string loses at least its closing quote. -/
theorem length_of_quotedRun? {quote : Char} {cs run after : List Char}
    (h : quotedRun? quote cs = some (run, after)) : after.length < cs.length := by
  fun_induction quotedRun? quote cs generalizing run with
  | case1 => simp at h
  | case2 rest =>
    simp only [Option.some.injEq, Prod.mk.injEq] at h
    simp [← h.2]
  | case3 _ e rest ih =>
    simp only [Option.map_eq_some_iff, Prod.exists, Prod.mk.injEq] at h
    obtain ⟨inner, outer, hrun, _, rfl⟩ := h
    have := ih hrun
    simp only [List.length_cons]
    omega
  | case4 => simp at h
  | case5 c rest _ _ ih =>
    simp only [Option.map_eq_some_iff, Prod.exists, Prod.mk.injEq] at h
    obtain ⟨inner, outer, hrun, _, rfl⟩ := h
    have := ih hrun
    simp only [List.length_cons]
    omega

/-- The inside of a placeholder behind its opening braces, and the text behind its closing ones. -/
def body? (cs : List Char) : Option (List Char × List Char) :=
  match cs with
  | [] => none
  | c :: rest =>
    if c = '\x7d' then
      match rest with
      | d :: after =>
        if d = '\x7d' then some ([], after)
        else (body? (d :: after)).map fun (body, behind) => (c :: body, behind)
      | [] => none
    else if Token.isQuote c then
      match h : quotedRun? c rest with
      | some (run, after) =>
        have : after.length < rest.length := length_of_quotedRun? h
        (body? after).map fun (body, behind) => (c :: run ++ body, behind)
      | none => none
    else (body? rest).map fun (body, behind) => (c :: body, behind)
termination_by cs.length

/-- What follows a placeholder is shorter than the text behind its opening braces. -/
theorem length_of_body? {cs body behind : List Char} (h : body? cs = some (body, behind)) :
    behind.length < cs.length := by
  fun_induction body? cs generalizing body with
  | case1 => simp at h
  | case2 after =>
    simp only [Option.some.injEq, Prod.mk.injEq] at h
    simp only [← h.2, List.length_cons]
    omega
  | case3 d after _ ih =>
    simp only [Option.map_eq_some_iff, Prod.exists, Prod.mk.injEq] at h
    obtain ⟨inner, outer, hbody, _, rfl⟩ := h
    have := ih hbody
    simp only [List.length_cons] at *
    omega
  | case4 => simp at h
  | case5 c rest _ _ run after hrun hlt ih =>
    simp only [Option.map_eq_some_iff, Prod.exists, Prod.mk.injEq] at h
    obtain ⟨inner, outer, hbody, _, rfl⟩ := h
    have := ih hbody
    simp only [List.length_cons]
    omega
  | case6 => simp at h
  | case7 c rest _ _ ih =>
    simp only [Option.map_eq_some_iff, Prod.exists, Prod.mk.injEq] at h
    obtain ⟨inner, outer, hbody, _, rfl⟩ := h
    have := ih hbody
    simp only [List.length_cons]
    omega

/-- A placeholder at the front of a text: its inside and the text behind it. -/
def atFront? : List Char → Option (List Char × List Char)
  | '\x7b' :: '\x7b' :: rest => body? rest
  | _ => none

/-- What follows a placeholder is shorter than the text. -/
theorem length_of_atFront? {cs body behind : List Char}
    (h : atFront? cs = some (body, behind)) : behind.length < cs.length := by
  unfold atFront? at h
  split at h
  · have := length_of_body? h
    simp only [List.length_cons]
    omega
  · simp at h

/-- A piece of a rendered text. -/
inductive Piece where
  /-- A character of plain text. -/
  | char (c : Char)
  /-- A placeholder with the given inside. -/
  | placeholder (body : List Char)
deriving Repr, DecidableEq

/-- The pieces of a text. Placeholders are looked for from the left and do not overlap. -/
def pieces (cs : List Char) : List Piece :=
  match cs with
  | [] => []
  | c :: rest =>
    match h : atFront? (c :: rest) with
    | some (body, behind) =>
      have : behind.length < rest.length + 1 := length_of_atFront? h
      .placeholder body :: pieces behind
    | none => .char c :: pieces rest
termination_by cs.length

def Piece.chars : Piece → List Char
  | char c => [c]
  | placeholder body => '\x7b' :: '\x7b' :: (body ++ ['\x7d', '\x7d'])

/-- What a placeholder asks for: the expression before its filters, and the chain of filters. -/
structure Request where
  head : String
  chain : String
deriving Repr, DecidableEq

/-- The request in the inside of a placeholder. -/
def request (body : String) : Request :=
  match Param.split '|' body with
  | [] => ⟨"", ""⟩
  | head :: filters => ⟨head, String.intercalate "|" filters⟩

end NoteTemplate.Placeholder
