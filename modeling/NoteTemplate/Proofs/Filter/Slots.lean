import NoteTemplate.Filter.Mapping
import NoteTemplate.Filter.Substitution
import NoteTemplate.Proofs.Json.ReadBack
import NoteTemplate.Proofs.Paths.Keys

/-! A slot in a pattern and a slot in the text of an arrow. The two readers rewrite and
look up the path between the braces in their own ways, but over keys that are formed
like identifiers both go from key to key and find the same value. The arrow writes the
text of this value. The pattern does so unless the value counts as empty. -/
namespace NoteTemplate

open Text

/-- Characters of identifiers. -/
def isKeyChar (c : Char) : Bool := isAsciiLetter c || isAsciiDigit c || c == '_'

/-- A key that is formed like an identifier. -/
def isIdentifier (key : String) : Bool :=
  match key.toList with
  | [] => false
  | c :: rest => (isAsciiLetter c || c == '_') && rest.all isKeyChar

/-- An identifier of the pattern language is one of the template language. -/
theorem isNameText_of_isIdentifier {key : String} (h : isIdentifier key = true) :
    Expr.isNameText key.toList = true := by
  rw [isIdentifier] at h
  cases hKey : key.toList with
  | nil =>
      rw [hKey] at h
      cases h
  | cons c rest =>
      rw [hKey, Bool.and_eq_true, List.all_eq_true] at h
      have hRest : ∀ d ∈ rest, Token.isNameChar d = true := fun d hMem => by
        rw [Token.isNameChar, ← isKeyChar, h.2 d hMem]
        rfl
      rw [Expr.isNameText, Token.isNameStart, h.1, List.all_eq_true.mpr hRest]
      rfl

/-- Identifiers consist of characters that may stand in a key. -/
theorem isKeyChar_of_isIdentifier {key : String} (h : isIdentifier key = true) :
    ∀ c ∈ key.toList, isKeyChar c = true := by
  rw [isIdentifier] at h
  cases hKey : key.toList with
  | nil => nofun
  | cons c rest =>
      rw [hKey, Bool.and_eq_true, List.all_eq_true] at h
      refine List.forall_mem_cons.mpr ⟨?_, h.2⟩
      rw [isKeyChar, Bool.or_right_comm, h.1, Bool.true_or]

/-- Characters of keys with points between them. -/
def isDottedChar (c : Char) : Bool := isKeyChar c || c == '.'

/-- A dotted path consists of characters of keys and points. -/
theorem isDottedChar_joinWith {keys : List String} (h : ∀ key ∈ keys, isIdentifier key = true) :
    ∀ c ∈ (joinWith "." keys).toList, isDottedChar c = true := by
  have hKey {key : String} (h : isIdentifier key = true) : ∀ c ∈ key.toList, isDottedChar c = true :=
    fun c hMem => by rw [isDottedChar, isKeyChar_of_isIdentifier h c hMem, Bool.true_or]
  induction keys with
  | nil => nofun
  | cons first rest ih =>
      rw [List.forall_mem_cons] at h
      cases rest with
      | nil =>
          rw [joinWith, String.intercalate_singleton]
          exact hKey h.1
      | cons second rest =>
          rw [toList_joinWith_cons_cons]
          exact List.forall_mem_append.mpr
            ⟨hKey h.1, List.forall_mem_cons.mpr ⟨by decide, ih h.2⟩⟩

/-- The characters of keys are ASCII, and none of them is a point or a blank. -/
theorem isKeyChar_toNat {c : Char} (h : isKeyChar c = true) : 47 < c.toNat ∧ c.toNat < 0x80 := by
  simp only [isKeyChar, isAsciiLetter, isAsciiDigit, Bool.or_eq_true, Bool.and_eq_true,
    decide_eq_true_eq, beq_iff_eq] at h
  obtain ((⟨hLow, hHigh⟩ | ⟨hLow, hHigh⟩) | ⟨hLow, hHigh⟩) | rfl := h
  · have hFirst : 97 ≤ c.toNat := hLow
    have hLast : c.toNat ≤ 122 := hHigh
    omega
  · have hFirst : 65 ≤ c.toNat := hLow
    have hLast : c.toNat ≤ 90 := hHigh
    omega
  · have hFirst : 48 ≤ c.toNat := hLow
    have hLast : c.toNat ≤ 57 := hHigh
    omega
  · decide

/-- A dotted path may stand in a slot. -/
theorem isPathChar_of_isDottedChar {c : Char} (h : isDottedChar c = true) :
    Piece.isPathChar c = true := by
  rw [isDottedChar, Bool.or_eq_true] at h
  rcases h with hKey | hPoint
  · have hWord : isWord c = true := by
      rw [isWord, if_pos (isKeyChar_toNat hKey).2]
      exact hKey
    rw [Piece.isPathChar, hWord]
    rfl
  · rw [beq_iff_eq] at hPoint
    rw [hPoint]
    decide

/-- No blank stands in a dotted path. -/
theorem isBlank_of_isDottedChar {c : Char} (h : isDottedChar c = true) : isBlank c = false := by
  rw [isDottedChar, Bool.or_eq_true] at h
  rcases h with hKey | hPoint
  · have hRange := isKeyChar_toNat hKey
    exact isBlank_of_toNat (by omega) hRange.2
  · rw [beq_iff_eq] at hPoint
    rw [hPoint]
    decide

/-- No mark of a path stands in a key. -/
theorem notMem_of_isIdentifier {key : String} (h : isIdentifier key = true) {mark : Char}
    (hMark : isKeyChar mark = false) : mark ∉ key.toList := by
  intro hMem
  rw [isKeyChar_of_isIdentifier h mark hMem] at hMark
  cases hMark

theorem splitOnChar_joinWith_keys {keys : List String} (hSome : keys ≠ [])
    (hKeys : ∀ key ∈ keys, isIdentifier key = true) :
    splitOnChar '.' (joinWith "." keys).toList = keys.map String.toList :=
  splitOnChar_joinWith hSome fun key hKey => notMem_of_isIdentifier (hKeys key hKey) (by decide)

/-- A path of at least one key is not empty. -/
theorem joinWith_ne_empty {keys : List String} (hSome : keys ≠ [])
    (hKeys : ∀ key ∈ keys, isIdentifier key = true) : joinWith "." keys ≠ "" := by
  intro hEmpty
  have hEmptyKey : [] ∈ keys.map String.toList := by
    rw [← splitOnChar_joinWith_keys hSome hKeys, hEmpty]
    exact List.mem_singleton_self _
  obtain ⟨key, hKey, hNil⟩ := List.mem_map.mp hEmptyKey
  have hIdentifier := hKeys key hKey
  rw [isIdentifier, hNil] at hIdentifier
  cases hIdentifier

namespace Value

/-- Keys with points between them are followed one at a time. -/
theorem walk_joinWith (v : Value) {keys : List String} (hSome : keys ≠ [])
    (hKeys : ∀ key ∈ keys, isIdentifier key = true) :
    v.walk (joinWith "." keys) = v.follow (keys.map .key) := by
  have hStep : ∀ key ∈ keys, (Step.ofChars ∘ String.toList) key = .key key := fun key hKey =>
    ofChars_of_noBracket (notMem_of_isIdentifier (hKeys key hKey) (by decide))
  rw [walk, if_neg (joinWith_ne_empty hSome hKeys), stepsOf, splitOnChar_joinWith_keys hSome hKeys,
    List.map_map, List.map_congr_left hStep]

/-- A field of a value that survives as JSON survives as well. -/
theorem Faithful.field {fields : List (String × Value)} (h : Faithful (.obj fields)) (key : String) :
    Faithful (field fields key) := by
  have hEntry (key : String) {v : Value} (hGet : Assoc.get? fields key = some v) : Faithful v := by
    obtain ⟨field, hFind, rfl⟩ := Option.map_eq_some_iff.mp hGet
    exact h.of_mem_obj (List.mem_of_find?_eq_some hFind)
  have hPlain : Faithful ((Assoc.get? fields key).getD .null) := by
    cases hGet : Assoc.get? fields key with
    | none => exact .null
    | some v => exact hEntry key hGet
  rw [Value.field]
  split
  · exact hPlain
  · exact hPlain
  · next v _ hGet => exact hEntry _ hGet

/-- What a path can find in a faithful value: a part of it, or a length. -/
def Findable (v : Value) : Prop := v.Faithful ∨ ∃ n : Int, v = .int n

/-- One key leads somewhere from whatever was found before it. -/
theorem Findable.select {v : Value} (h : v.Findable) {key : String} (hKey : isIdentifier key = true) :
    ∃ found, v.select key = .ok found ∧ found.Findable := by
  by_cases hObj : ∃ fields, v = .obj fields
  · obtain ⟨fields, rfl⟩ := hObj
    exact ⟨_, rfl, .inl ((h.resolve_right nofun).field key)⟩
  · have hNoObj : ∀ fields, v ≠ .obj fields := fun fields hSame => hObj ⟨fields, hSame⟩
    obtain hNull | ⟨-, n, hLength⟩ := select_of_not_obj hNoObj (isNameText_of_isIdentifier hKey)
    · exact ⟨.null, hNull, .inl .null⟩
    · exact ⟨.int n, hLength, .inr ⟨n, rfl⟩⟩

/-- The induction is on the keys; what is found behind each of them is findable again. -/
theorem Findable.follow {v : Value} (h : v.Findable) {keys : List String}
    (hKeys : ∀ key ∈ keys, isIdentifier key = true) :
    ∃ found, v.follow (keys.map .key) = .ok found ∧ found.Findable := by
  induction keys generalizing v with
  | nil => exact ⟨v, rfl, h⟩
  | cons key rest ih =>
      rw [List.forall_mem_cons] at hKeys
      obtain ⟨next, hSelect, hNext⟩ := h.select hKeys.1
      rw [List.map_cons, follow_key, hSelect]
      exact ih hNext hKeys.2

end Value

namespace Piece

theorem readSlot?_close {path : List Char} (hSome : path ≠ [])
    (hPath : ∀ c ∈ path, isPathChar c = true) : readSlot? (path ++ ['\x7d']) = some (path, []) := by
  have hClose : ¬ isPathChar '\x7d' = true := by decide
  rw [readSlot?, List.takeWhile_append_of_pos hPath, List.dropWhile_append_of_pos hPath,
    List.takeWhile_cons_of_neg hClose, List.dropWhile_cons_of_neg hClose, List.append_nil]
  simp [hSome]

/-- A text that is one slot. -/
theorem ofChars_slot {path : List Char} (hSome : path ≠ [])
    (hPath : ∀ c ∈ path, isPathChar c = true) :
    ofChars ('$' :: '\x7b' :: (path ++ ['\x7d'])) = [.slot path] := by
  rw [ofChars, if_pos (by decide)]
  split
  · next found after hRead =>
    rw [readSlot?_close hSome hPath] at hRead
    obtain ⟨rfl, rfl⟩ := Prod.mk.inj (Option.some.inj hRead)
    simp only [ofChars]
  · next hRead =>
    rw [readSlot?_close hSome hPath] at hRead
    cases hRead

end Piece

namespace Filter

theorem dottedPath_of_noBracket {cs : List Char} (h : '[' ∉ cs) : dottedPath cs = cs := by
  induction cs with
  | nil => rw [dottedPath]
  | cons c rest ih =>
      rw [List.mem_cons, not_or] at h
      rw [dottedPath, if_neg (Ne.symm h.1), ih h.2]

theorem unwrap?_append (left right c d : Char) (inner : List Char) :
    unwrap? left right (c :: (inner ++ [d])) =
      if c = left && d = right then some inner else none := by
  simp [unwrap?]

theorem unescapeChars_of_notMem {cs : List Char} (h : '\\' ∉ cs) : Param.unescapeChars cs = cs := by
  induction cs with
  | nil => rfl
  | cons c rest ih =>
      rw [List.mem_cons, not_or] at h
      rw [Param.unescapeChars.eq_def]
      simp only [if_neg (Ne.symm h.1), ih h.2]

theorem readArrow?_item {body : List Char} (hBody : body ≠ []) :
    readArrow? ('x' :: ' ' :: '=' :: '>' :: body) =
      some ⟨['x'], readShape (body.length + 1) body⟩ := by
  cases body with
  | nil => exact absurd rfl hBody
  | cons c rest => rfl

/-- A text in quotes, without blanks in it, behind a blank. -/
theorem readShape_quoted (fuel : Nat) {inner : List Char} (hInner : ∀ c ∈ inner, isBlank c = false) :
    readShape (fuel + 1) (' ' :: '"' :: (inner ++ ['"'])) =
      .text (Piece.ofChars (Param.unescapeChars inner)) := by
  have hTrim : trim (' ' :: '"' :: (inner ++ ['"'])) = '"' :: (inner ++ ['"']) := by
    show trim ('"' :: (inner ++ ['"'])) = _
    refine Value.trimBy_of_forall ?_
    rw [List.forall_mem_cons, List.forall_mem_append]
    exact ⟨rfl, hInner, List.forall_mem_singleton.mpr rfl⟩
  simp [readShape, hTrim, unwrap?_append]

/-- The pattern that is one slot with a path of keys. -/
def slotPattern (keys : List String) : String := "$\x7b" ++ joinWith "." keys ++ "\x7d"

/-- The arrow whose text is one slot with a path of keys from the item. -/
def slotArrow (keys : List String) : String := "x => \"$\x7bx." ++ joinWith "." keys ++ "\x7d\""

section
variable {keys : List String} (hKeys : ∀ key ∈ keys, isIdentifier key = true)
include hKeys

/-- The mapping to one slot is read as such. -/
theorem readArrow?_slotArrow :
    readArrow? (slotArrow keys).toList =
      some ⟨['x'], .text [.slot ('x' :: '.' :: (joinWith "." keys).toList)]⟩ := by
  have hDotted := isDottedChar_joinWith hKeys
  set path := (joinWith "." keys).toList with hPath
  set inner := '$' :: '\x7b' :: ('x' :: '.' :: path ++ ['\x7d']) with hInner
  have hText : (slotArrow keys).toList =
      'x' :: ' ' :: '=' :: '>' :: ' ' :: '"' :: (inner ++ ['"']) := by
    simp [slotArrow, hInner, hPath]
  have hBlank : ∀ c ∈ inner, isBlank c = false := by
    simp only [hInner, List.cons_append, List.forall_mem_cons, List.forall_mem_append]
    exact ⟨rfl, rfl, rfl, rfl, fun c hMem => isBlank_of_isDottedChar (hDotted c hMem), rfl, nofun⟩
  have hNoEscape : '\\' ∉ inner := by
    have hPathChars : '\\' ∉ path := fun hMem => absurd (hDotted _ hMem) (by decide)
    simp [hInner, hPathChars]
  have hSlot : Piece.ofChars inner = [.slot ('x' :: '.' :: path)] := by
    refine Piece.ofChars_slot (List.cons_ne_nil _ _) ?_
    simp only [List.forall_mem_cons]
    exact ⟨by decide, by decide, fun c hMem => isPathChar_of_isDottedChar (hDotted c hMem)⟩
  rw [hText, readArrow?_item (List.cons_ne_nil _ _), readShape_quoted _ hBlank,
    unescapeChars_of_notMem hNoEscape, hSlot]

/-- In a mapping the item is found under its name, and then goes along the path. -/
theorem lookupPath_item {item found : Value}
    (hWalk : item.walk (joinWith "." keys) = .ok found) :
    lookupPath ['x'] item ('x' :: '.' :: (joinWith "." keys).toList) = .ok found := by
  have hTrim : trim ('x' :: '.' :: (joinWith "." keys).toList) =
      'x' :: '.' :: (joinWith "." keys).toList := by
    refine Value.trimBy_of_forall ?_
    rw [List.forall_mem_cons, List.forall_mem_cons]
    exact ⟨rfl, rfl, fun c hMem => isBlank_of_isDottedChar (isDottedChar_joinWith hKeys c hMem)⟩
  rw [lookupPath, hTrim]
  simpa [dropPrefix?] using hWalk

/-- The one item of an array is mapped to the text of what the path finds in it. -/
theorem mapItems?_slot {s : String} {item found : Value}
    (hRead : Value.ofJson? s = some (.arr [item])) {arrow : Option String}
    (hArrow : Param.single arrow = slotArrow keys)
    (hWalk : item.walk (joinWith "." keys) = .ok found) :
    mapItems? s arrow = some (Value.arr [.str found.text]).toJson := by
  have hApply : Shape.apply ['x'] item (.text [.slot ('x' :: '.' :: (joinWith "." keys).toList)]) =
      .ok (.str found.text) := by
    simp [Shape.apply, Piece.fill, lookupPath_item hKeys hWalk, bind, Except.bind, pure,
      Except.pure]
  simp only [mapItems?, hArrow, readArrow?_slotArrow hKeys, hRead]
  simp [hApply, pure, Except.pure, bind, Except.bind]

/-- The pattern is filled with the text of what the path finds, if there is anything in it. -/
theorem fillPattern?_slot (hSome : keys ≠ []) {s : String} {data found : Value}
    (hRead : Value.ofJson? s = some data) {pattern : Option String}
    (hPattern : Param.single pattern = slotPattern keys)
    (hWalk : data.walk (joinWith "." keys) = .ok found) :
    fillPattern? s pattern = some (if Schema.isFilled found then found.text else "") := by
  have hDotted := isDottedChar_joinWith hKeys
  have hText : (slotPattern keys).toList =
      '$' :: '\x7b' :: ((joinWith "." keys).toList ++ ['\x7d']) := by
    simp [slotPattern]
  have hPieces : Piece.ofChars (slotPattern keys).toList = [.slot (joinWith "." keys).toList] := by
    rw [hText]
    exact Piece.ofChars_slot (fun hNil => joinWith_ne_empty hSome hKeys (String.toList_eq_nil_iff.mp hNil))
      fun c hMem => isPathChar_of_isDottedChar (hDotted c hMem)
  have hNoBracket : '[' ∉ (joinWith "." keys).toList := fun hMem =>
    absurd (hDotted _ hMem) (by decide)
  have hField : fieldText data (joinWith "." keys).toList =
      .ok (if Schema.isFilled found then found.text.toList else []) := by
    rw [fieldText, dottedPath_of_noBracket hNoBracket, String.ofList_toList, hWalk]
    rfl
  cases pattern with
  | none =>
      have hLength := congrArg List.length hText
      rw [← hPattern] at hLength
      cases hLength
  | some param =>
      simp only [fillPattern?, hPattern, hPieces, hRead, Option.getD_some, Piece.fill, hField, bind,
        Except.bind, pure, Except.pure, List.append_nil]
      split <;> simp

end

/-- The values that count as empty, though they have a text. -/
def Hollow (v : Value) : Prop := v = .bool false ∨ v = .int 0 ∨ v = .arr [] ∨ v = .obj []

theorem shown_of_hollow {v : Value} (h : Hollow v) : Schema.isFilled v = false ∧ v.text ≠ "" := by
  rcases h with rfl | rfl | rfl | rfl <;> exact ⟨rfl, by decide +kernel⟩

/-- What else counts as empty has no text. -/
theorem shown_of_not_hollow {v : Value} (hFindable : v.Findable) (h : ¬Hollow v) :
    (if Schema.isFilled v then v.text else "") = v.text := by
  simp only [Hollow, not_or] at h
  cases v with
  | null => rfl
  | bool b =>
      cases b with
      | false => exact absurd rfl h.1
      | true => rfl
  | int n =>
      have hSome : n ≠ 0 := fun hZero => h.2.1 (by rw [hZero])
      simp [Schema.isFilled, Value.truthy, hSome]
  | float x => rcases hFindable with hFaithful | ⟨n, hInt⟩ <;> contradiction
  | str s =>
      by_cases hEmpty : s = ""
      · rw [hEmpty]
        rfl
      · simp [Schema.isFilled, Value.truthy, hEmpty]
  | arr items =>
      cases items with
      | nil => exact absurd rfl h.2.2.1
      | cons item rest => rfl
  | obj fields =>
      cases fields with
      | nil => exact absurd rfl h.2.2.2
      | cons field rest => rfl

/-- A pattern and an arrow with the same path of keys give the same text, that of the
value which the path finds, except that the pattern loses what counts as empty. Both
find something whatever the object is. -/
theorem slots_agree_iff {fields : List (String × Value)} (hFields : (Value.obj fields).Faithful)
    {keys : List String} (hSome : keys ≠ []) (hKeys : ∀ key ∈ keys, isIdentifier key = true)
    {pattern arrow : Option String} (hPattern : Param.single pattern = slotPattern keys)
    (hArrow : Param.single arrow = slotArrow keys) :
    ∃ found, (Value.obj fields).walk (joinWith "." keys) = .ok found ∧
      mapItems? (Value.arr [.obj fields]).toJson arrow =
        some (Value.arr [.str found.text]).toJson ∧
      (fillPattern? (Value.obj fields).toJson pattern = some found.text ↔ ¬Hollow found) ∧
      (Hollow found → fillPattern? (Value.obj fields).toJson pattern = some "") := by
  have hItem : (Value.arr [.obj fields]).Faithful := .arr (List.forall_mem_singleton.mpr hFields)
  have hObject : (Value.obj fields).Findable := .inl hFields
  obtain ⟨found, hFollow, hFindable⟩ := hObject.follow hKeys
  rw [← Value.walk_joinWith _ hSome hKeys] at hFollow
  have hFill := fillPattern?_slot hKeys hSome hFields.ofJson?_toJson hPattern hFollow
  have hLost (hHollow : Hollow found) :
      fillPattern? (Value.obj fields).toJson pattern = some "" := by
    rw [hFill, (shown_of_hollow hHollow).1]
    rfl
  refine ⟨found, hFollow, mapItems?_slot hKeys hItem.ofJson?_toJson hArrow hFollow, ⟨?_, ?_⟩, hLost⟩
  · intro hSame hHollow
    rw [hLost hHollow, Option.some.injEq] at hSame
    exact (shown_of_hollow hHollow).2 hSame.symm
  · intro hShown
    rw [hFill, shown_of_not_hollow hFindable hShown]

/-- A path through two objects to an array. -/
theorem slots_agree_iff_nested :
    let fields : List (String × Value) := [("a", .obj [("b", .arr [.int 1, .null])]), ("b", .int 0)]
    (Value.obj fields).Faithful ∧ (∀ key ∈ ["a", "b"], isIdentifier key = true) ∧
      Param.single (some "$\x7ba.b\x7d") = slotPattern ["a", "b"] ∧
      Param.single (some "x => \"$\x7bx.a.b\x7d\"") = slotArrow ["a", "b"] ∧
      mapItems? (Value.arr [.obj fields]).toJson (some "x => \"$\x7bx.a.b\x7d\"") =
        some "[\"[1,null]\"]" ∧
      fillPattern? (Value.obj fields).toJson (some "$\x7ba.b\x7d") = some "[1,null]" := by
  intro fields
  have hInner : (Value.obj [("b", .arr [.int 1, .null])]).Faithful := by
    refine .obj (by decide) (List.forall_mem_singleton.mpr (.arr ?_))
    exact List.forall_mem_cons.mpr ⟨.int (by decide +kernel), List.forall_mem_singleton.mpr .null⟩
  have hFields : (Value.obj fields).Faithful := by
    refine .obj (by decide) (List.forall_mem_cons.mpr ⟨hInner, ?_⟩)
    exact List.forall_mem_singleton.mpr (.int (by decide +kernel))
  have hKeys : ∀ key ∈ ["a", "b"], isIdentifier key = true := by decide +kernel
  have hPattern : Param.single (some "$\x7ba.b\x7d") = slotPattern ["a", "b"] := by decide +kernel
  have hArrow : Param.single (some "x => \"$\x7bx.a.b\x7d\"") = slotArrow ["a", "b"] := by
    decide +kernel
  obtain ⟨found, hWalk, hMap, hFill, -⟩ :=
    slots_agree_iff hFields (List.cons_ne_nil _ _) hKeys hPattern hArrow
  have hFound : found = .arr [.int 1, .null] := by
    rw [Value.walk_joinWith _ (List.cons_ne_nil _ _) hKeys] at hWalk
    exact (Except.ok.inj hWalk).symm
  rw [hFound] at hMap hFill
  refine ⟨hFields, hKeys, hPattern, hArrow, hMap.trans ?_, (hFill.mpr ?_).trans ?_⟩
  · decide +kernel
  · simp [Hollow]
  · decide +kernel

/-- A zero is a text behind the arrow, and nothing in the pattern. -/
theorem slots_differ_zero :
    let fields : List (String × Value) := [("a", .int 0)]
    fillPattern? (Value.obj fields).toJson (some "$\x7ba\x7d") = some "" ∧
      mapItems? (Value.arr [.obj fields]).toJson (some "x => \"$\x7bx.a\x7d\"") =
        some (Value.arr [.str "0"]).toJson := by
  intro fields
  have hFields : (Value.obj fields).Faithful :=
    .obj (by decide) (List.forall_mem_singleton.mpr (.int (by decide +kernel)))
  have hItem : (Value.arr [.obj fields]).Faithful := .arr (List.forall_mem_singleton.mpr hFields)
  have hKeys : ∀ key ∈ ["a"], isIdentifier key = true := by decide +kernel
  have hWalk : (Value.obj fields).walk (joinWith "." ["a"]) = .ok (.int 0) := by
    rw [Value.walk_joinWith _ (List.cons_ne_nil _ _) hKeys]
    rfl
  have hPattern : Param.single (some "$\x7ba\x7d") = slotPattern ["a"] := by decide +kernel
  have hArrow : Param.single (some "x => \"$\x7bx.a\x7d\"") = slotArrow ["a"] := by decide +kernel
  have hFill := fillPattern?_slot hKeys (List.cons_ne_nil _ _) hFields.ofJson?_toJson hPattern hWalk
  have hMap := mapItems?_slot hKeys hItem.ofJson?_toJson hArrow hWalk
  have hText : (Value.int 0).text = "0" := by decide +kernel
  rw [hText] at hMap
  exact ⟨hFill, hMap⟩

end Filter

end NoteTemplate
