import NoteTemplate.Proofs.Compose.Nodes
import NoteTemplate.Proofs.Compose.Template
import NoteTemplate.Value.Path

/-! Forms: texts with names in braces between them, to be filled in. A form is
read as its texts and its names in turn. Its texts may hold anything in which no
construct begins, single braces and closing delimiters included. -/
namespace NoteTemplate

open Text Token Tokens NoteTemplate.Expr

/-- A text with names to fill in. -/
inductive Form where
  | last (text : String)
  | field (text name : String) (rest : Form)

namespace Form

/-- A form as it is written in a template. -/
def source : Form → String
  | last text => text
  | field text name rest => text ++ (Value.wrapped name ++ source rest)

/-- A form with a text in the place of each name, if all of them have one. -/
def fill (value : String → Except Fault String) : Form → Except Fault String
  | last text => .ok text
  | field text name rest => do
    let first ← value name
    let later ← fill value rest
    return text ++ (first ++ later)

/-- The names of a form. -/
def names : Form → List String
  | last _ => []
  | field _ name rest => name :: names rest

/-- Text in which no construct begins. -/
def Unopened (text : String) : Prop := ¬ openVariable <:+: text.toList ∧ ¬ openTag <:+: text.toList

/-- A name that may stand between braces. A word of the language is none, in
whatever case, and a dash at its end would belong to the closing delimiter. -/
structure FieldName (name : String) : Prop where
  chars : Expr.isNameText name.toList = true
  noWord : keyword? (toLower name) = none
  noDash : name.toList.getLast? ≠ some '-'

/-- No construct begins in the texts of a form, and none begins in one text and
ends in the next one. -/
inductive Sound : Form → Prop where
  | last {text : String} (hText : Unopened text) : Sound (.last text)
  | field {text name : String} {rest : Form} (hText : Unopened text)
      (hEnd : text.toList.getLast? ≠ some '\x7b') (hName : FieldName name) (hRest : Sound rest) :
      Sound (.field text name rest)

/-! The tokens of a form. -/

/-- The kinds and the values of the tokens of a text. -/
def textShapes (text : String) : List Shape := if text = "" then [] else [(.text, text)]

/-- The kinds and the values of the tokens of a form. -/
def shapes : Form → List Shape
  | last text => textShapes text ++ [(.endOfText, "")]
  | field text name rest => textShapes text ++
      (.variableStart, "\x7b\x7b") :: (.identifier, name) :: (.variableEnd, "\x7d\x7d") :: shapes rest

/-- A token that asks for no blanks to be cut. -/
def Uncut (t : Token) : Prop := t.trimLeft = false ∧ t.trimRight = false

/-- In front of a rest, a text is scanned as tokens of given shapes, from plain
text to plain text. -/
def ScansText (cs rest : List Char) (found : List Shape) : Prop :=
  ∀ position, ∃ tokens behind, tokens.map shape = found ∧ (∀ t ∈ tokens, Uncut t) ∧
    scanFrom .text position (cs ++ rest) = (scanFrom .text behind rest).map (tokens ++ ·)

/-- A text is scanned piece by piece. -/
theorem ScansText.append {first second rest : List Char} {shapes more : List Shape}
    (hFirst : ScansText first (second ++ rest) shapes) (hSecond : ScansText second rest more) :
    ScansText (first ++ second) rest (shapes ++ more) := by
  intro position
  obtain ⟨tokens, middle, hTokens, hUncut, hScan⟩ := hFirst position
  obtain ⟨later, behind, hLater, hUncutLater, hScanLater⟩ := hSecond middle
  refine ⟨tokens ++ later, behind, by rw [List.map_append, hTokens, hLater],
    List.forall_mem_append.mpr ⟨hUncut, hUncutLater⟩, ?_⟩
  rw [List.append_assoc, hScan, hScanLater]
  cases scanFrom .text behind rest with
  | error f => rfl
  | ok found => simp [Except.map]

/-- A text without delimiters is plain as a whole. -/
theorem plainText_eq_self {cs : List Char} (hVariable : ¬ openVariable <:+: cs)
    (hTag : ¬ openTag <:+: cs) : plainText cs = cs := by
  induction cs with
  | nil => rfl
  | cons c rest ih =>
      rw [List.infix_cons_iff, not_or] at hVariable hTag
      have hOpens : opensHere (c :: rest) = false := by
        rw [opensHere, startsWith, startsWith, Bool.or_eq_false_iff, Bool.eq_false_iff,
          Bool.eq_false_iff, Ne, Ne, List.isPrefixOf_iff_prefix, List.isPrefixOf_iff_prefix]
        exact ⟨hVariable.1, hTag.1⟩
      rw [plainText, hOpens, ih hVariable.2 hTag.2]
      rfl

/-- A text that goes on up to a construct or to the end is at most one token. -/
theorem scansText_text {text : String} {rest : List Char}
    (h : plainText (text.toList ++ rest) = text.toList) :
    ScansText text.toList rest (textShapes text) := by
  intro position
  cases hText : text.toList with
  | nil =>
      refine ⟨[], position, ?_, by simp, ?_⟩
      · rw [textShapes, if_pos (String.toList_eq_nil_iff.mp hText)]
        rfl
      · rw [List.nil_append]
        cases scanFrom .text position rest <;> rfl
  | cons c cs =>
      rw [hText, List.cons_append, plainText] at h
      split at h
      · cases h
      · next hPlain =>
        have hSome : text ≠ "" := by
          rintro rfl
          cases hText
        have hSelf : String.ofList (c :: cs) = text := by rw [← hText, String.ofList_toList]
        have hLexeme : lexeme .text c (cs ++ rest) =
            .ok ⟨.text, text, (c :: cs).length, .text, false, false, Nat.succ_pos _⟩ := by
          rw [lexeme, if_pos rfl, if_neg hPlain]
          simp only [List.cons.inj h |>.2, hSelf]
        refine ⟨[⟨.text, text, position, false, false⟩], position.advance (c :: cs), ?_,
          by simp [Uncut], ?_⟩
        · rw [textShapes, if_neg hSome]
          rfl
        · rw [List.cons_append, scanFrom_lexeme rfl hLexeme]
          dsimp only
          rw [← List.cons_append, List.take_left, List.drop_left]
          rfl

/-- A dash inside of a name is followed by a character of the name. -/
theorem nameTail_closing {cs : List Char} (hChars : ∀ d ∈ cs, isNameChar d = true)
    (hDash : cs.getLast? ≠ some '-') (rest : List Char) :
    nameTail (cs ++ '\x7d' :: '\x7d' :: rest) = cs := by
  induction cs with
  | nil => rfl
  | cons c cs ih =>
      have hBehind : c = '-' → startsWith ['\x7d'] (cs ++ '\x7d' :: '\x7d' :: rest) = false ∧
          startsWith ['%'] (cs ++ '\x7d' :: '\x7d' :: rest) = false := by
        rintro rfl
        cases cs with
        | nil => exact absurd rfl hDash
        | cons d later =>
            have hNe := ne_of_class (hChars d (by simp))
            simp [startsWith_cons_cons, (hNe '\x7d' (by decide)).symm, (hNe '%' (by decide)).symm]
      have hLater : cs.getLast? ≠ some '-' := by
        cases cs with
        | nil => simp
        | cons d later => rwa [List.getLast?_cons_cons] at hDash
      have hTail := ih (fun d hd => hChars d (List.mem_cons_of_mem _ hd)) hLater
      rw [List.cons_append, nameTail, hChars c List.mem_cons_self, hTail]
      by_cases hMinus : c = '-'
      · simp [hBehind hMinus]
      · simp [hMinus]

/-- A name in front of a closing delimiter. -/
theorem scanFrom_fieldName {name : String} (h : FieldName name) (position : Position)
    (rest : List Char) :
    scanFrom .variable position (name.toList ++ '\x7d' :: '\x7d' :: rest) =
      (scanFrom .variable (position.advance name.toList) ('\x7d' :: '\x7d' :: rest)).map
        (⟨.identifier, name, position, false, false⟩ :: ·) := by
  obtain ⟨c, cs, hName, hStart, hChars⟩ := exists_of_isNameText h.chars
  have hLast : cs.getLast? ≠ some '-' := by
    have hDash := h.noDash
    cases cs with
    | nil => simp
    | cons d later => rwa [hName, List.getLast?_cons_cons] at hDash
  have hSelf : String.ofList (c :: cs) = name := by rw [← hName, String.ofList_toList]
  have hFound : let found := nameLexeme .variable c (cs ++ '\x7d' :: '\x7d' :: rest)
      found.kind = .identifier ∧ found.value = name ∧ found.size = (c :: cs).length ∧
        found.mode = .variable ∧ found.trimLeft = false ∧ found.trimRight = false := by
    simp [nameLexeme, nameTail_closing hChars hLast, hSelf, h.noWord, startsWith_cons_cons]
  obtain ⟨hKind, hValue, hSize, hMode, hLeft, hRight⟩ := hFound
  rw [hName, List.cons_append, scanFrom_token (not_isGap_of_isNameStart hStart)
    (innerLexeme_of_isNameStart hStart _), hKind, hValue, hSize, hMode, hLeft, hRight,
    ← List.cons_append, List.take_left, List.drop_left]

/-- A name in braces is three tokens. -/
theorem scansText_name {name : String} (h : FieldName name) (rest : List Char) :
    ScansText (Value.wrapped name).toList rest
      [(.variableStart, "\x7b\x7b"), (.identifier, name), (.variableEnd, "\x7d\x7d")] := by
  intro position
  have hDash : startsWith ['-'] (name.toList ++ '\x7d' :: '\x7d' :: rest) = false := by
    obtain ⟨c, cs, hName, hStart, -⟩ := exists_of_isNameText h.chars
    rw [hName, List.cons_append, startsWith_cons_cons,
      beq_eq_false_iff_ne.mpr (ne_of_class hStart '-' rfl).symm, Bool.false_and]
  have hWhole : (Value.wrapped name).toList ++ rest =
      '\x7b' :: '\x7b' :: (name.toList ++ '\x7d' :: '\x7d' :: rest) := by
    simp [Value.wrapped]
  let inside := position.advance ['\x7b', '\x7b']
  let closing := inside.advance name.toList
  refine ⟨[⟨.variableStart, "\x7b\x7b", position, false, false⟩,
    ⟨.identifier, name, inside, false, false⟩,
    ⟨.variableEnd, "\x7d\x7d", closing, false, false⟩], closing.advance ['\x7d', '\x7d'], rfl,
    by simp [Uncut], ?_⟩
  rw [hWhole, scanFrom_opening hDash, scanFrom_fieldName h, scanFrom_closing]
  cases scanFrom .text (closing.advance ['\x7d', '\x7d']) rest <;> rfl

/-- By induction on the form: it is scanned as its texts and its names in turn. -/
theorem Sound.scan {form : Form} (h : form.Sound) (position : Position) :
    ∃ tokens, scanFrom .text position form.source.toList = .ok tokens ∧
      tokens.map shape = form.shapes ∧ ∀ t ∈ tokens, Uncut t := by
  induction h generalizing position with
  | @last text hText =>
      have hPlain : plainText (text.toList ++ []) = text.toList := by
        rw [List.append_nil, plainText_eq_self hText.1 hText.2]
      obtain ⟨tokens, behind, hTokens, hUncut, hScan⟩ := scansText_text hPlain position
      have hEnd : scanFrom .text behind [] = .ok [endAt behind] := scanFrom_end rfl behind
      rw [List.append_nil, hEnd] at hScan
      refine ⟨tokens ++ [endAt behind], hScan, ?_, ?_⟩
      · rw [List.map_append, hTokens]
        rfl
      · exact List.forall_mem_append.mpr ⟨hUncut, by simp [endAt, Uncut]⟩
  | @field text name rest hText hEnd hName hRest ih =>
      have hPlain : plainText (text.toList ++ ((Value.wrapped name).toList ++ rest.source.toList)) =
          text.toList := by
        rw [plainText_append hEnd, plainText_eq_self hText.1 hText.2]
        simp [Value.wrapped, opensHere, openVariable, startsWith]
      obtain ⟨tokens, behind, hTokens, hUncut, hScan⟩ :=
        (scansText_text hPlain).append (scansText_name hName rest.source.toList) position
      obtain ⟨later, hScanLater, hLater, hUncutLater⟩ := ih behind
      refine ⟨tokens ++ later, ?_, ?_, List.forall_mem_append.mpr ⟨hUncut, hUncutLater⟩⟩
      · rw [source, String.toList_append, String.toList_append, ← List.append_assoc, hScan, hScanLater]
        rfl
      · rw [List.map_append, hTokens, hLater, shapes, List.append_assoc]
        rfl

/-! Reading the tokens of a form. -/

/-- Parts that say what a text says. -/
inductive SaysText : String → List Node → Prop where
  | nothing : SaysText "" []
  | text (text : String) (place : Place) : SaysText text [.text text place]

/-- Parts that say what a form says: its texts and its names in turn. -/
inductive Says : Form → List Node → Prop where
  | last {text : String} {nodes : List Node} (hText : SaysText text nodes) : Says (.last text) nodes
  | field {text name : String} {rest : Form} {nodes later : List Node} {place start : Place}
      (hText : SaysText text nodes) (hRest : Says rest later) :
      Says (.field text name rest)
        (nodes ++ .print (.identifier name place) ⟨false, false⟩ start :: later)

/-- Wherever a rest of the tokens stands, it is read as given parts, without a
mistake and up to the end. -/
def ReadsAs (source : Node.Source) (tokens : List Token) (nodes : List Node) : Prop :=
  tokens ≠ [] ∧ ∀ i fuel, source.tokens.drop i = tokens → tokens.length < fuel →
    Node.readNodes source (source.tokens.length - 1) fuel i =
      .ok ⟨nodes, [], source.tokens.length - 1⟩

theorem readsAs_end (source : Node.Source) (t : Token) : ReadsAs source [t] [] := by
  refine ⟨by simp, fun i fuel hDrop hFuel => ?_⟩
  have hLength := congrArg List.length hDrop
  rw [List.length_drop, List.length_singleton] at hLength
  have hStop : source.tokens.length - 1 = i := by omega
  rw [hStop]
  exact Within.readNodes_done (Nat.lt_irrefl i)

/-- One part in front of others. -/
theorem ReadsAs.cons {source : Node.Source} {t : Token} {tokens : List Token} {node : Node}
    {nodes : List Node} (front : List Token) (h : ReadsAs source tokens nodes)
    (hMore : t.kind ≠ .endOfText)
    (hNode : ∀ i fuel, source.tokens.drop i = t :: (front ++ tokens) →
      Node.readNode source (fuel + 1) i =
        .ok ⟨some node, [], source.positionOf tokens⟩) :
    ReadsAs source (t :: (front ++ tokens)) (node :: nodes) := by
  obtain ⟨hSome, hRead⟩ := h
  refine ⟨by simp, fun i fuel hDrop hFuel => ?_⟩
  obtain ⟨fuel, rfl⟩ : ∃ later, fuel = later + 2 :=
    ⟨fuel - 2, by rw [List.length_cons] at hFuel; omega⟩
  have hLength := congrArg List.length hDrop
  have hPos := List.length_pos_iff.mpr hSome
  rw [List.length_drop, List.length_cons, List.length_append] at hLength
  have hNotEnd : at? (source.tokensFrom i) .endOfText = false :=
    at?_eq_false (by rw [Node.Source.tokensFrom, hDrop]; exact hMore)
  have hPosition : source.positionOf tokens = i + (front.length + 1) := by
    rw [Node.Source.positionOf]
    omega
  have hBehind : source.tokens.drop (source.positionOf tokens) = tokens := by
    rw [hPosition, ← List.drop_drop, hDrop, List.drop_succ_cons, List.drop_left]
  have hLater := hRead (source.positionOf tokens) (fuel + 1) hBehind (by
    rw [List.length_cons, List.length_append] at hFuel
    omega)
  rw [Within.readNodes_more (by omega) hNotEnd, hNode i fuel hDrop]
  simp only [bind, Except.bind, hLater]
  rfl

/-- A text is read as a part of its own, unless it is empty. The line behind a tag
would lose its blanks; there is no tag. -/
theorem ReadsAs.text {source : Node.Source} (hNoTag : ∀ t ∈ source.tokens, t.kind ≠ .tagEnd)
    {text : String} {tokens : List Token} {more : List Shape}
    (hTokens : tokens.map shape = textShapes text ++ more) :
    ∃ later front, later.map shape = more ∧ later ⊆ tokens ∧ SaysText text front ∧
      ∀ nodes, ReadsAs source later nodes → ReadsAs source tokens (front ++ nodes) := by
  by_cases hEmpty : text = ""
  · subst hEmpty
    exact ⟨tokens, [], hTokens, List.Subset.refl _, .nothing, fun _ hRead => hRead⟩
  · rw [textShapes, if_neg hEmpty] at hTokens
    obtain ⟨t, later, rfl, hKind, rfl, hLater⟩ := exists_cons_of_map_shape hTokens
    refine ⟨later, [.text t.value t.place], hLater, List.subset_cons_self t later, .text _ _,
      fun nodes hRead => ?_⟩
    refine hRead.cons [] (by rw [hKind]; decide) fun i fuel hDrop => ?_
    have hOfText (previous : Option Token) (hPrevious : ∀ before ∈ previous, before.kind ≠ .tagEnd) :
        Node.ofText previous t = some (.text t.value t.place) := by
      have hSome : t.value.toList ≠ [] := fun hNil => hEmpty (String.toList_eq_nil_iff.mp hNil)
      cases previous with
      | none => simp [Node.ofText, hSome]
      | some before => simp [Node.ofText, hPrevious before rfl, hSome]
    have hPrevious : ∀ before ∈ (if i = 0 then none else source.tokens[i - 1]?),
        before.kind ≠ .tagEnd := by
      intro before hMem
      split at hMem
      · cases hMem
      · exact hNoTag before (List.mem_of_getElem? hMem)
    have hCurrent : current (source.tokensFrom i) = t := by
      rw [Node.Source.tokensFrom, hDrop]
      rfl
    rw [Node.readNode]
    simp only [hCurrent, hKind, hOfText _ hPrevious]
    rw [Node.Source.tokensFrom, hDrop, advance_cons hKind (by decide)]
    rfl

/-- An expression between braces is read as an expression to print. -/
theorem ReadsAs.print {source : Node.Source} {opening closing : Token} {inside tokens : List Token}
    {nodes : List Node} (h : ReadsAs source tokens nodes) {e : Expr} (hReads : Reads .fallback e)
    (hFits : e.depth ≤ source.room) (hOpening : opening.kind = .variableStart)
    (hInside : inside.map shape = e.shapes)
    (hClosing : closing.kind = .variableEnd) (hLeft : opening.trimLeft = false)
    (hRight : closing.trimRight = false) :
    ∃ found, found.unplaced = e.unplaced ∧
      ReadsAs source (opening :: (inside ++ closing :: tokens))
        (.print found ⟨false, false⟩ opening.place :: nodes) := by
  obtain ⟨found, hSame, hRead⟩ :=
    Template.readVariable_of_reads hReads hOpening hInside hClosing tokens
  have hFound := (hRead source.room).1 hFits
  have hTokens : opening :: (inside ++ closing :: tokens) =
      opening :: ((inside ++ [closing]) ++ tokens) := by simp
  refine ⟨found, hSame, ?_⟩
  rw [hTokens]
  refine h.cons (inside ++ [closing]) (by rw [hOpening]; decide) fun i fuel hDrop => ?_
  have hFrom : source.tokensFrom i = opening :: (inside ++ closing :: tokens) := by
    rw [Node.Source.tokensFrom, hDrop, hTokens]
  have hCurrent : current (opening :: (inside ++ closing :: tokens)) = opening := rfl
  rw [Node.readNode]
  simp only [hFrom, hCurrent, hOpening, hFound, hLeft, hRight]

/-- A name between braces is read as the identifier to print. -/
theorem ReadsAs.name {source : Node.Source} {opening word closing : Token} {tokens : List Token}
    {nodes : List Node} (h : ReadsAs source tokens nodes) (hOpening : opening.kind = .variableStart)
    (hWord : word.kind = .identifier) (hClosing : closing.kind = .variableEnd)
    (hLeft : opening.trimLeft = false) (hRight : closing.trimRight = false) :
    ∃ place, ReadsAs source (opening :: word :: closing :: tokens)
      (.print (.identifier word.value place) ⟨false, false⟩ opening.place :: nodes) := by
  have hReads : Reads .fallback (.identifier word.value word.place) :=
    reads_loosest (reads_primary (reads_identifier word.value word.place)) (by simp [firstKind])
  have hShape : [word].map shape = (Expr.identifier word.value word.place).shapes := by
    rw [List.map_singleton, shape, hWord]
    rfl
  obtain ⟨found, hSame, hRead⟩ :=
    h.print hReads (Nat.zero_le _) hOpening hShape hClosing hLeft hRight
  obtain ⟨place, rfl⟩ : ∃ place, found = .identifier word.value place := by
    cases found <;> simp [unplaced] at hSame
    exact ⟨_, by rw [hSame]⟩
  exact ⟨place, hRead⟩

/-- By induction on the form: its tokens are read as its texts and its names. -/
theorem exists_readsAs (source : Node.Source) (form : Form)
    (hNoTag : ∀ t ∈ source.tokens, t.kind ≠ .tagEnd) {tokens : List Token}
    (hTokens : tokens.map shape = form.shapes) (hUncut : ∀ t ∈ tokens, Uncut t) :
    ∃ nodes, Says form nodes ∧ ReadsAs source tokens nodes := by
  induction form generalizing tokens with
  | last text =>
      obtain ⟨later, front, hLater, -, hSays, hRead⟩ := ReadsAs.text hNoTag hTokens
      obtain ⟨t, rest, rfl, -, -, hRest⟩ := exists_cons_of_map_shape hLater
      obtain rfl := List.map_eq_nil_iff.mp hRest
      refine ⟨front, .last hSays, ?_⟩
      simpa using hRead [] (readsAs_end source t)
  | field text name rest ih =>
      obtain ⟨later, front, hLater, hSubset, hSays, hRead⟩ := ReadsAs.text hNoTag hTokens
      obtain ⟨opening, _, rfl, hOpening, -, hInside⟩ := exists_cons_of_map_shape hLater
      obtain ⟨word, _, rfl, hWord, rfl, hBehind⟩ := exists_cons_of_map_shape hInside
      obtain ⟨closing, behind, rfl, hClosing, -, hRest⟩ := exists_cons_of_map_shape hBehind
      obtain ⟨nodes, hSaysRest, hReadRest⟩ :=
        ih hRest fun t ht => hUncut t (hSubset (by simp [ht]))
      obtain ⟨place, hReadName⟩ := hReadRest.name hOpening hWord hClosing
        (hUncut opening (hSubset (by simp))).1 (hUncut closing (hSubset (by simp))).2
      exact ⟨_, .field hSays hSaysRest, hRead _ hReadName⟩

/-- No tag is in a form. -/
theorem kind_of_mem_shapes {form : Form} {kind : Kind} {value : String}
    (h : (kind, value) ∈ form.shapes) : kind ≠ .tagStart ∧ kind ≠ .tagEnd := by
  have hText {text : String} (hMem : (kind, value) ∈ textShapes text) : kind = .text := by
    rw [textShapes] at hMem
    split at hMem
    · cases hMem
    · exact congrArg Prod.fst (List.mem_singleton.mp hMem)
  have hKind : kind = .text ∨ kind = .endOfText ∨ kind = .variableStart ∨ kind = .identifier ∨
      kind = .variableEnd := by
    induction form with
    | last text =>
        rcases List.mem_append.mp h with hFront | hEnd
        · exact .inl (hText hFront)
        · cases List.mem_singleton.mp hEnd
          exact .inr (.inl rfl)
    | field text name rest ih =>
        rcases List.mem_append.mp h with hFront | hField
        · exact .inl (hText hFront)
        · simp only [List.mem_cons, Prod.mk.injEq] at hField
          rcases hField with hOpening | hName | hClosing | hRest
          · exact .inr (.inr (.inl hOpening.1))
          · exact .inr (.inr (.inr (.inl hName.1)))
          · exact .inr (.inr (.inr (.inr hClosing.1)))
          · exact ih hRest
  rcases hKind with rfl | rfl | rfl | rfl | rfl <;> decide

/-- A form is a template without mistakes, however little room there is. Its parts
are its texts and its names. -/
theorem Sound.parse {form : Form} (h : form.Sound) (room : Nat) :
    ∃ nodes, Says form nodes ∧ Template.parse room form.source = .ok ⟨nodes, []⟩ := by
  obtain ⟨tokens, hScan, hTokens, hUncut⟩ := h.scan Position.start
  have hKinds : ∀ t ∈ tokens, t.kind ≠ .tagStart ∧ t.kind ≠ .tagEnd := fun t ht =>
    kind_of_mem_shapes (hTokens ▸ List.mem_map_of_mem ht : shape t ∈ form.shapes)
  have hBlocks := Template.blocks_eq_empty fun t ht => (hKinds t ht).1
  obtain ⟨nodes, hSays, -, hRead⟩ := exists_readsAs ⟨tokens, {}, room⟩ form
    (fun t ht => (hKinds t ht).2) hTokens hUncut
  have hAll : Node.ofTokens room tokens {} = .ok ⟨nodes, [], tokens.length - 1⟩ :=
    hRead 0 _ rfl (by omega)
  refine ⟨nodes, hSays, ?_⟩
  rw [Template.parse_of_scan (show Token.scan form.source = .ok tokens from hScan), hBlocks]
  rw [show BlockMap.balanced {} = true from rfl, if_pos rfl, Template.ofTokens, hAll]
  rfl

end Form

end NoteTemplate
