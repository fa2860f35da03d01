import Mathlib.Data.List.TakeWhile
import NoteTemplate.Proofs.Cache.Entries
import NoteTemplate.Proofs.Provenance.Nodes
import NoteTemplate.Proofs.Provenance.Words
import NoteTemplate.Proofs.Render.Parametric

/-! Variables that a template does not mention. A name is looked up under a few
keys only, and structured data among its own variables; two renderings with
variables that agree there go the same way, since what they assign on it they
assign alike. -/
namespace NoteTemplate

open Text

/-- The keys under which a name is looked up: the name without the blanks around
it, its part in front of the first point, and of that the part in front of the
first bracket, each also in braces. -/
def Variables.keysOf (name : String) : List String :=
  let whole := strip name
  let first := String.ofList (whole.toList.takeWhile (· ≠ '.'))
  let base := Validate.baseName whole
  [whole, first, base, Value.wrapped whole, Value.wrapped first, Value.wrapped base]

/-- Whether structured data of the page is kept under a key. -/
def Schema.isKey : Key → Bool
  | .text name => startsWith wrappedMark.toList name.toList
  | .other _ => false

/-- The variables with the structured data of the page. -/
def Schema.data (vars : Variables) : Variables := vars.filter fun entry => isKey entry.1

/-- Variables all of whose keys are texts. -/
def Variables.TextKeyed (vars : Variables) : Prop := ∀ entry ∈ vars, ∃ name, entry.1 = .text name

/-- Variables that some names cannot tell apart: they hold the same under the keys
of the names, and if a name asks for structured data, then the same data in the
same order. -/
structure Variables.SameFor (names : List String) (vars other : Variables) : Prop where
  keyed : vars.TextKeyed
  otherKeyed : other.TextKeyed
  mentioned : ∀ name ∈ names, ∀ key ∈ keysOf name,
    Assoc.get? vars (.text key) = Assoc.get? other (.text key)
  data : (∃ name ∈ names, Schema.isName name = true) → Schema.data vars = Schema.data other

/-- The names in parts of a template, those in the arguments of filters included. -/
def Node.mentions (nodes : List Node) : List String :=
  (Validate.usesOfNodes [] nodes).map (·.name)

section Based

/-- A name that does not begin with a bracket, whatever blanks are in front. -/
def Based (name : String) : Prop :=
  ∀ c ∈ name.toList.find? (fun c => !isBlank c), c ≠ '['

theorem based_of_cons {name : String} {c : Char} (rest : List Char)
    (hName : name.toList = c :: rest) (hBlank : isBlank c = false) (hBracket : c ≠ '[') :
    Based name := by
  intro d hFound
  rw [hName, List.find?_cons_of_pos (by simp [hBlank]), Option.mem_some_iff] at hFound
  exact hFound ▸ hBracket

/-- Two texts that begin with no bracket begin with none together. -/
theorem Based.append {name more : String} (hName : Based name) (hMore : Based more) :
    Based (name ++ more) := by
  intro c hFound
  rw [String.toList_append, Option.mem_def, List.find?_append] at hFound
  cases hFirst : name.toList.find? (fun c => !isBlank c) with
  | none =>
      rw [hFirst, Option.none_or] at hFound
      exact hMore c hFound
  | some d =>
      rw [hFirst, Option.some_or] at hFound
      exact hName c (hFirst.trans hFound)

/-- Any number of texts that begin with no bracket begin with none together. -/
theorem based_join {parts : List String} (h : ∀ part ∈ parts, Based part) :
    Based (String.join parts) := by
  induction parts with
  | nil =>
      intro c hFound
      cases hFound
  | cons part rest ih =>
      obtain ⟨hPart, hRest⟩ := List.forall_mem_cons.mp h
      rw [String.join_cons]
      exact hPart.append (ih hRest)

theorem Readable.based {name : String} (h : Readable name) : Based name := by
  obtain ⟨c, rest, hName, hStart⟩ := h.begins
  exact based_of_cons rest hName (isBlank_of_isNameStart hStart) (Token.ne_of_class hStart '[' rfl)

/-- None of the tokens that words are made of is an opening bracket. -/
theorem based_of_isWordPart {t : Token} (hSound : Token.Sound t.kind t.value)
    (hPlain : Token.Plain t.kind t.value) (h : Tokens.isWordPart t.kind = true) :
    Based t.value := by
  rcases Tokens.isWordPart_cases h with hKind | hKind | hKind
  · exact (hSound.name hKind).1.based
  · obtain ⟨c, rest, hValue, hBlank, hBracket⟩ := hPlain.number hKind
    exact based_of_cons rest hValue hBlank hBracket
  · obtain ⟨c, hValue, hBracket, -⟩ := hPlain.unknown hKind
    intro d hFound
    rw [hValue, String.toList_ofList, Option.mem_def, List.find?_singleton] at hFound
    split at hFound
    · cases hFound
      exact hBracket
    · cases hFound

/-- No name of a template begins with a bracket. -/
theorem based_spelling {text : String} {tokens : List Token} (hScan : Token.scan text = .ok tokens) :
    Tokens.Spelling tokens Based Based where
  name t hMem hKind := (((Token.scan_scanned hScan).sound t hMem).name hKind).1.based
  prefixed t hMem hKind previous ts _ := by
    -- Whatever follows the colon, the name begins with its first token.
    obtain ⟨c, rest, hValue, hStart⟩ :=
      (((Token.scan_scanned hScan).sound t hMem).name hKind).1.begins
    obtain ⟨more, hName⟩ := Tokens.prefixedName_append (t.value ++ ":") previous ts
    rw [hName, String.append_assoc]
    refine based_of_cons (c := c) (rest ++ (":" ++ more).toList) ?_ (isBlank_of_isNameStart hStart)
      (Token.ne_of_class hStart '[' rfl)
    rw [String.toList_append, hValue, List.cons_append]
  word first words hTokens hParts := by
    refine based_join (List.forall_mem_map.mpr fun t hMem => ?_)
    exact based_of_isWordPart ((Token.scan_scanned hScan).sound t (hTokens hMem))
      (Token.scan_plain hScan t (hTokens hMem)) (hParts t hMem)

/-- The first character behind the blanks at the front. -/
theorem find?_of_head?_trim {cs : List Char} {c : Char} (h : (trim cs).head? = some c) :
    cs.find? (fun c => !isBlank c) = some c := by
  obtain ⟨more, hMore⟩ : trim cs <+: cs.dropWhile isBlank := trimEndBy_isPrefix isBlank _
  rw [List.find?_not_eq_head?_dropWhile, ← hMore, List.head?_append, h, Option.some_or]

theorem Based.head?_strip {name : String} (h : Based name) :
    (strip name).toList.head? ≠ some '[' := by
  intro hHead
  rw [strip, String.toList_ofList] at hHead
  exact h '[' (find?_of_head?_trim hHead) rfl

end Based

namespace Variables

/-- The first step of a path is a key in front of the first point, or it goes into
what is kept in front of the first bracket, unless that is the very first
character. -/
theorem first_step (path : String) (hBracket : path.toList.head? ≠ some '[') :
    ∃ first later, Value.stepsOf path = first :: later ∧
      (first = .key (String.ofList (path.toList.takeWhile (· ≠ '.'))) ∨
        ∃ inner, Validate.baseName path ≠ "" ∧ first = .index (Validate.baseName path) inner) := by
  obtain ⟨later, hSplit⟩ := splitOnChar_eq_cons '.' path.toList
  refine ⟨_, _, by rw [Value.stepsOf, hSplit, List.map_cons], ?_⟩
  rw [Value.Step.ofChars]
  split
  · next base rest hCut =>
    obtain ⟨hBase, hPart⟩ := cutAtChar?_eq_some hCut
    split
    · split
      · exact .inl rfl
      · refine .inr ⟨_, fun hEmpty => hBracket ?_, by rw [Validate.baseName, ← hBase]⟩
        have hNone : base = [] := by
          rw [Validate.baseName, ← hBase] at hEmpty
          simpa using hEmpty
        rw [hNone, List.nil_append] at hPart
        rw [← List.takeWhile_append_dropWhile (p := fun c => decide (c ≠ '.')) (l := path.toList),
          hPart]
        rfl
    · exact .inl rfl
  · exact .inl rfl

variable {names : List String} {vars other : Variables}

namespace SameFor

variable (h : SameFor names vars other) {name : String} (hName : name ∈ names)

include h hName

theorem get {key : String} (hKey : key ∈ keysOf name) : vars.get key = other.get key := by
  rw [Variables.get, Variables.get, h.mentioned name hName key hKey]

theorem field {key : String} (hKey : key ∈ keysOf name)
    (hWrapped : Value.wrapped key ∈ keysOf name) : vars.field key = other.field key := by
  rw [Variables.field, Variables.field, h.get hName hKey, h.get hName hWrapped]

/-- A path is walked alike in variables that agree on its base. -/
theorem walk (hBased : Based name) : vars.walk (strip name) = other.walk (strip name) := by
  obtain ⟨first, later, hSteps, hFirst⟩ := first_step (strip name) hBased.head?_strip
  have hStep : vars.step first = other.step first := by
    rcases hFirst with rfl | ⟨inner, hBase, rfl⟩
    · rw [Variables.step, Variables.step, h.field hName (by simp [keysOf]) (by simp [keysOf])]
    · rw [Variables.step, Variables.step, if_neg hBase, if_neg hBase,
        h.field hName (by simp [keysOf]) (by simp [keysOf])]
  rw [Variables.walk, Variables.walk, hSteps]
  simp only [hStep]

/-- A name stands for the same. -/
theorem resolve (hBased : Based name) : vars.resolve name = other.resolve name := by
  have hField : vars.field (strip name) = other.field (strip name) :=
    h.field hName (by simp [keysOf]) (by simp [keysOf])
  rw [Variables.resolve, Variables.resolve]
  simp only [hField, h.walk hName hBased]

end SameFor

end Variables

namespace Schema

variable {vars : Variables}

/-- Structured data are found by the same short key among the data alone. -/
theorem findShort?_data (hKeyed : vars.TextKeyed) (key : String) :
    findShort? key (data vars) = findShort? key vars := by
  induction vars with
  | nil => rfl
  | cons entry rest ih =>
      obtain ⟨⟨name, hName⟩, hRest⟩ := List.forall_mem_cons.mp hKeyed
      obtain ⟨entryKey, d⟩ := entry
      cases hName
      cases hMark : isKey (.text name) with
      | true =>
          have hData : data ((.text name, d) :: rest) = (.text name, d) :: data rest :=
            List.filter_cons_of_pos hMark
          rw [hData, findShort?, findShort?, ih hRest]
      | false =>
          have hData : data ((.text name, d) :: rest) = data rest :=
            List.filter_cons_of_neg (ne_true_of_eq_false hMark)
          have hShort : matchesShort key name = false := by
            rw [matchesShort, show startsWith wrappedMark.toList name.toList = false from hMark,
              Bool.false_and, Bool.false_and]
          rw [hData, findShort?, hShort, ih hRest]
          rfl

/-- What a short key finds is a key of the variables. -/
theorem isKey_of_findShort? {key found : String} (h : findShort? key vars = .ok (some found)) :
    isKey (.text found) = true := by
  induction vars with
  | nil => cases h
  | cons entry rest ih =>
      rcases entry with ⟨name | kind, d⟩ <;> rw [findShort?] at h
      · split at h
        · next hShort =>
          cases h
          rw [matchesShort, Bool.and_eq_true, Bool.and_eq_true] at hShort
          exact hShort.1.1
        · exact ih h
      · cases h

theorem isKey_exact (key : String) : isKey (.text (Value.wrapped (mark ++ key))) = true := by
  rw [isKey, startsWith, List.isPrefixOf_iff_prefix]
  exact ⟨key.toList ++ ['\x7d', '\x7d'], by simp [Value.wrapped, wrappedMark]⟩

theorem find?_data (hKeyed : vars.TextKeyed) (key : String) :
    find? key (data vars) = find? key vars := by
  have hExact : Variables.has (data vars) (Value.wrapped (mark ++ key)) =
      vars.has (Value.wrapped (mark ++ key)) := by
    rw [Variables.has, Variables.has, data, Assoc.get?_filter (isKey_exact key)]
  rw [find?, find?, hExact, findShort?_data hKeyed]

/-- What is found as structured data stands under a key of the variables. -/
theorem isKey_of_find? {key found : String} (h : find? key vars = .ok (some found)) :
    isKey (.text found) = true := by
  rw [find?] at h
  split at h
  · cases h
    exact isKey_exact key
  · split at h
    · cases h
    · exact isKey_of_findShort? h

theorem get_data {name : String} (hKey : isKey (.text name) = true) :
    Variables.get (data vars) name = vars.get name := by
  rw [Variables.get, Variables.get, data, Assoc.get?_filter hKey]

/-- Structured data is looked up among its own variables. -/
theorem lookup_data (hKeyed : vars.TextKeyed) (name : String) :
    lookup name (data vars) = lookup name vars := by
  rw [lookup, lookup]
  split
  · rfl
  · extract_lets cut
    clear_value cut
    cases cut with
    | none =>
        dsimp only
        rw [find?_data hKeyed]
        cases hFind : find? _ vars with
        | error f => rfl
        | ok found =>
            cases found with
            | none => rfl
            | some found => exact congrArg Except.ok (get_data (isKey_of_find? hFind))
    | some cut =>
        obtain ⟨base, which, path⟩ := cut
        dsimp only
        rw [find?_data hKeyed]
        cases hFind : find? _ vars with
        | error f => rfl
        | ok found =>
            cases found with
            | none => rfl
            | some found =>
                dsimp only [bind, Except.bind]
                rw [get_data (isKey_of_find? hFind)]

end Schema

namespace Variables

variable {names : List String} {vars other : Variables}

theorem TextKeyed.assign (h : vars.TextKeyed) (name : String) (d : Datum) :
    (vars.assign name d).TextKeyed := by
  rintro ⟨key, held⟩ hMem
  rcases Assoc.mem_of_mem_set hMem with ⟨rfl, -⟩ | hOld
  · exact ⟨name, rfl⟩
  · exact h _ hOld

namespace SameFor

theorem lookup (h : SameFor names vars other) {name : String} (hName : name ∈ names)
    (hSchema : Schema.isName name = true) : Schema.lookup name vars = Schema.lookup name other := by
  rw [← Schema.lookup_data h.keyed, ← Schema.lookup_data h.otherKeyed,
    h.data ⟨name, hName, hSchema⟩]

/-- What is assigned on both sides is assigned alike, whatever it is called. -/
theorem assign (h : SameFor names vars other) (target : String) (d : Datum) :
    SameFor names (vars.assign target d) (other.assign target d) where
  keyed := h.keyed.assign target d
  otherKeyed := h.otherKeyed.assign target d
  mentioned name hName key hKey := by
    rw [Variables.assign, Variables.assign, Assoc.get?_set, Assoc.get?_set,
      h.mentioned name hName key hKey]
  data hSome := by
    have hData := h.data hSome
    simp only [Schema.data] at hData ⊢
    rw [Variables.assign, Variables.assign, Assoc.filter_set, Assoc.filter_set, hData]

end SameFor

/-- One more variable, under a key of none of the names, makes no difference. -/
theorem sameFor_assign (hKeyed : vars.TextKeyed) {target : String}
    (hOutside : ∀ name ∈ names, target ∉ keysOf name)
    (hData : Schema.isKey (.text target) = false) (d : Datum) :
    SameFor names vars (vars.assign target d) where
  keyed := hKeyed
  otherKeyed := hKeyed.assign target d
  mentioned name hName key hKey := by
    have hOther : Key.text key ≠ .text target := by
      rintro ⟨⟩
      exact hOutside name hName hKey
    rw [Variables.assign, Assoc.get?_set, if_neg hOther]
  data _ := by
    rw [Schema.data, Schema.data, Variables.assign, Assoc.filter_set, hData]
    rfl

end Variables

namespace Render

/-- A resolver that goes by the name alone answers alike among any variables. -/
theorem respects_of_names {σ : Type} {context : Context σ} (V : Variables → Variables → Prop)
    (h : ∀ resolver, context.resolver = some resolver →
      ∀ name vars other, resolver name vars = resolver name other) : context.Respects V Eq := by
  rintro resolver hResolver name vars other - a _ rfl
  rw [h resolver hResolver name vars other]
  exact .intro _ rfl

/-- Variables that a template does not mention do not show in its rendering: with
variables that agree on what it mentions, and a resolver that gives the same answers
among them, a template that is read without mistakes has the same outcome, and asks
the resolver the same. -/
theorem render_eq_of_mentions {σ : Type} {room : Nat} {text : String} {t : Template}
    (hParse : Template.parse room text = .ok t) {context : Context σ}
    (hResolver : context.Respects (Variables.SameFor (Node.mentions t.nodes)) Eq)
    (trimOutput : Bool) {vars other : Variables}
    (hVars : vars.SameFor (Node.mentions t.nodes) other) (world : σ) :
    (render context trimOutput t.nodes vars world).1 =
        (render context trimOutput t.nodes other world).1 ∧
      (render context trimOutput t.nodes vars world).2.2 =
        (render context trimOutput t.nodes other world).2.2 := by
  have hBased : ∀ u ∈ Validate.usesOfNodes [] t.nodes, Based u.name :=
    (Validate.nodes_all_iff [] t.nodes).mp <|
      (Template.parse_spelled hParse (fun tokens => based_spelling) fun _ _ => trivial).imp
        (fun e => e.forall_occurrences fun _ => id) fun _ => id
  obtain ⟨outcome, first, second, hFirst, hSecond, -, hWorld⟩ :=
    render_lockstep (V := Variables.SameFor (Node.mentions t.nodes)) (fun name d h => h.assign name d)
      (fun u hUse => evalName_lockstep hResolver
        (fun hSchema _ _ h => h.lookup (List.mem_map_of_mem hUse) hSchema)
        fun _ _ h => h.resolve (List.mem_map_of_mem hUse) (hBased u hUse))
      trimOutput hVars (rfl : world = world)
  rw [hFirst, hSecond]
  exact ⟨rfl, hWorld⟩

/-- The author's name, and where the page says it is. -/
def bylineText : String := "\x7b\x7bauthor.name|upper\x7d\x7d\x7b\x7bschema:url\x7d\x7d"

/-- The tokens of the byline. -/
def bylineTokens : List Token :=
  [⟨.variableStart, "\x7b\x7b", ⟨0, 1, 1⟩, false, false⟩,
    ⟨.identifier, "author.name", ⟨2, 1, 3⟩, false, false⟩, ⟨.pipe, "|", ⟨13, 1, 14⟩, false, false⟩,
    ⟨.identifier, "upper", ⟨14, 1, 15⟩, false, false⟩,
    ⟨.variableEnd, "\x7d\x7d", ⟨19, 1, 20⟩, false, false⟩,
    ⟨.variableStart, "\x7b\x7b", ⟨21, 1, 22⟩, false, false⟩,
    ⟨.identifier, "schema", ⟨23, 1, 24⟩, false, false⟩, ⟨.colon, ":", ⟨29, 1, 30⟩, false, false⟩,
    ⟨.identifier, "url", ⟨30, 1, 31⟩, false, false⟩,
    ⟨.variableEnd, "\x7d\x7d", ⟨33, 1, 34⟩, false, false⟩,
    ⟨.endOfText, "", ⟨35, 1, 36⟩, false, false⟩]

/-- The byline as it is read. -/
def bylineNodes : List Node :=
  [.print (.filter (.identifier "author.name" ⟨1, 3⟩) "upper" [] [] false ⟨1, 15⟩) ⟨false, false⟩
      ⟨1, 1⟩,
    .print (.identifier "schema:url" ⟨1, 24⟩) ⟨false, false⟩ ⟨1, 22⟩]

/-- An author, and structured data with a type. -/
def bylineVars : Variables :=
  [(.text "author", .plain (.obj [("name", .str "ann")])),
    (.text "\x7b\x7bschema:@Article:url\x7d\x7d", .plain (.str "here"))]

/-- A resolver that knows each name by itself. -/
def echoing : Context Unit :=
  { resolver := some fun name _ => pure (.value (.str name)) }

/-- A variable called by the end of a path is not looked at. -/
theorem byline_eq_without_name :
    Template.parse Template.usualRoom bylineText = .ok ⟨bylineNodes, []⟩ ∧
      echoing.Respects (Variables.SameFor (Node.mentions bylineNodes)) Eq ∧
      bylineVars.SameFor (Node.mentions bylineNodes)
        (bylineVars.assign "name" (.plain (.str "bob"))) ∧
      (render echoing false bylineNodes bylineVars ()).1 =
        (render echoing false bylineNodes (bylineVars.assign "name" (.plain (.str "bob"))) ()).1 := by
  have hParse : Template.parse Template.usualRoom bylineText = .ok ⟨bylineNodes, []⟩ := by
    have hScan : Token.scan bylineText = .ok bylineTokens := by decide +kernel
    have hBlocks : (BlockMap.ofTokens bylineTokens).blocks = [] := by decide +kernel
    have hIssues : (BlockMap.ofTokens bylineTokens).issues = [] := by decide +kernel
    have hMap : BlockMap.ofTokens bylineTokens = ⟨[], []⟩ := by rw [← hBlocks, ← hIssues]
    rw [Template.parse_of_scan hScan, hMap]
    rfl
  have hKeyed : bylineVars.TextKeyed :=
    List.forall_mem_cons.mpr ⟨⟨_, rfl⟩, List.forall_mem_singleton.mpr ⟨_, rfl⟩⟩
  have hVars : bylineVars.SameFor (Node.mentions bylineNodes)
      (bylineVars.assign "name" (.plain (.str "bob"))) :=
    Variables.sameFor_assign hKeyed (by decide +kernel) (by decide +kernel) _
  have hResolver : echoing.Respects (Variables.SameFor (Node.mentions bylineNodes)) Eq := by
    refine respects_of_names _ ?_
    rintro _ ⟨⟩ name vars other
    rfl
  exact ⟨hParse, hResolver, hVars, (render_eq_of_mentions hParse hResolver false hVars ()).1⟩

end Render

end NoteTemplate
