import NoteTemplate.Proofs.Deferred.TwoPhases

/-! A question in words with filters behind it. Rendering writes it into the
text, in quotes and with its filters; the second look reads the same question
back, whatever characters it has, and applies the same filters to the answer. -/
namespace NoteTemplate

open Render Text

namespace Prompt

/-- The closing quote is the first one without a backslash. -/
theorem quotedBody?_backslashed (cs : List Char) :
    quotedBody? (backslashed cs ++ ['"']) = some (backslashed cs) := by
  induction cs with
  | nil => rfl
  | cons c rest ih =>
      by_cases hSpecial : needsBackslash c = true
      · rw [backslashed, if_pos hSpecial, List.cons_append, List.cons_append, quotedBody?.eq_def]
        simp [ih]
      · have hOther : c ≠ '\\' ∧ c ≠ '"' := by simpa [needsBackslash] using hSpecial
        rw [backslashed, if_neg hSpecial, List.cons_append, quotedBody?.eq_def]
        simp [ih, hOther]

/-- A backslash is written before quotes and backslashes only, never before a
line break, where it would be kept. -/
theorem unescape_backslashed (cs : List Char) : unescape (backslashed cs) = cs := by
  induction cs with
  | nil => rfl
  | cons c rest ih =>
      by_cases hSpecial : needsBackslash c = true
      · have hBreak : c ≠ '\n' := by
          rintro rfl
          cases hSpecial
        rw [backslashed, if_pos hSpecial, unescape.eq_def]
        simp [ih, hBreak]
      · have hOther : c ≠ '\\' := (show c ≠ '\\' ∧ c ≠ '"' by simpa [needsBackslash] using hSpecial).1
        rw [backslashed, if_neg hSpecial, unescape.eq_def]
        simp [ih, hOther]

/-- The question in a quoted text is the text. -/
theorem ofName?_quote (v : String) : ofName? (quote v) = some v := by
  have hTrim : trim (quote v).toList = (quote v).toList := (fragment_quote v).solid.trim_eq
  have hMark : dropPrefix? mark.toList (quote v).toList = none := by
    rw [Token.quote_toList]
    rfl
  have hQuestion : question? (quote v).toList = some v.toList := by
    rw [Token.quote_toList, question?, quotedBody?_backslashed]
    simp only [unescape_backslashed]
  rw [ofName?, hTrim]
  simp only [hMark, hQuestion, Option.map_some, String.ofList_toList]

theorem isName_quote (v : String) : isName (quote v) = true := by
  rw [isName, Token.quote_toList]
  rfl

end Prompt

theorem not_selector_quote (v : String) : SelectorQuery.isName (quote v) = false := by
  rw [SelectorQuery.isName, Token.quote_toList]
  rfl

theorem not_schema_quote (v : String) : Schema.isName (quote v) = false := by
  rw [Schema.isName, Token.quote_toList]
  rfl

theorem chainPart_quote (v : String) : ChainPart (quote v) :=
  ⟨fragment_quote v, Param.quote_ne_empty v⟩

/-- A constant that is a text, a whole number or a truth value. -/
def Literal.isAtom : Literal → Bool
  | .text _ => true
  | .int _ => true
  | .bool _ => true
  | _ => false

/-- Constants at their places as expressions. -/
def constants (args : List (Literal × Place)) : List Expr := args.map fun (l, place) => .literal l place

/-- A question in words with filters behind it, whose arguments are constants.
Each filter has the parameter text that the values of its constants make. -/
inductive QuestionChain (v : String) : Expr → List Link → Prop where
  | question (place : Place) : QuestionChain v (.literal (.text v) place) []
  | filter {value : Expr} {links : List Link} (name : String) (args : List (Literal × Place))
      (separators : List Separator) (parenthesized : Bool) (place : Place)
      (hValue : QuestionChain v value links) (hName : Expr.isNameText name.toList = true)
      (hAtoms : ∀ arg ∈ args, arg.1.isAtom = true) :
      QuestionChain v (.filter value name (constants args) separators parenthesized place)
        (links ++ [⟨name, paramOf separators parenthesized (args.map fun arg => arg.1.value)⟩])

/-- A constant is written in an expression as in a parameter text. -/
theorem print_of_isAtom {l : Literal} (h : l.isAtom = true) : l.print = l.value.paramText := by
  cases l with
  | null => cases h
  | float x => cases h
  | bool b => rfl
  | int n => rfl
  | text s => rfl

/-- Constants are printed as they are passed to a filter. -/
theorem printAll_constants {args : List (Literal × Place)}
    (h : ∀ arg ∈ args, arg.1.isAtom = true) : Expr.printAll (constants args) =
      (args.map fun arg => arg.1.value).map Value.paramText := by
  induction args with
  | nil => rfl
  | cons arg rest ih =>
      have hRest := ih fun later hMem => h later (List.mem_cons_of_mem arg hMem)
      rw [constants, List.map_cons, Expr.printAll, Expr.print, print_of_isAtom (h arg List.mem_cons_self)]
      exact congrArg _ hRest

/-- No constant is written as nothing; an empty text has its quotes. -/
theorem paramText_ne_empty {l : Literal} (h : l.isAtom = true) : l.value.paramText ≠ "" := by
  cases l with
  | null => cases h
  | float x => cases h
  | bool b => cases b <;> decide
  | int n =>
      intro hEmpty
      have hDigits := Value.intText_toList n
      rw [show Value.text (.int n) = "" from hEmpty] at hDigits
      split at hDigits
      · cases hDigits
      · exact absurd hDigits.symm Nat.toDigits_ne_nil
  | text s => exact (chainPart_quote s).some

/-- The parameter text of some constants is not empty, so a colon announces it. -/
theorem layoutArgs_ne_empty {arg : Literal × Place} {rest : List (Literal × Place)}
    (h : arg.1.isAtom = true) (separators : List Separator) (parenthesized : Bool) :
    layoutArgs separators parenthesized
      (((arg :: rest).map fun arg => arg.1.value).map Value.paramText) ≠ "" := by
  have hFirst := paramText_ne_empty h
  cases parenthesized with
  | true => simp [layoutArgs]
  | false => simp [layoutArgs, interleave, hFirst]

/-- The filters behind a question are written as they are read back. -/
theorem QuestionChain.print_eq {v : String} {e : Expr} {links : List Link}
    (h : QuestionChain v e links) : e.print = sourceOf (quote v) links := by
  induction h with
  | question place => rw [Expr.print, Literal.print, sourceOf, List.map_nil, String.intercalate_singleton]
  | @filter value links name args separators parenthesized place _ _ hAtoms ih =>
      rw [Expr.print, ih, sourceOf_append, Link.text]
      cases args with
      | nil => simp [constants, paramOf]
      | cons arg rest =>
          have hText : layoutArgs separators parenthesized
              (((arg :: rest).map fun arg => arg.1.value).map Value.paramText) ≠ "" :=
            layoutArgs_ne_empty (hAtoms arg List.mem_cons_self) separators parenthesized
          have hSome : (constants (arg :: rest)).isEmpty = false := rfl
          have hValues : ((arg :: rest).map fun arg => arg.1.value).isEmpty = false := rfl
          simp only [printAll_constants hAtoms, paramOf, hSome, hValues, hText, Bool.false_eq_true,
            if_false, String.append_assoc]

/-- A chain over a question is put off as it is written, or at fault if it cannot be. -/
theorem QuestionChain.promptSource?_eq {v : String} {e : Expr} {links : List Link}
    (h : QuestionChain v e links) : e.promptSource? = some e.written := by
  have hBase : ∃ place, e.base = .literal (.text v) place := by
    induction h with
    | question place => exact ⟨place, rfl⟩
    | filter _ _ _ _ _ _ _ _ ih =>
        rw [Expr.base]
        exact ih
  obtain ⟨place, hBase⟩ := hBase
  rw [Expr.promptSource?, hBase]

/-- Each filter of a chain over a question is found again as it was written. -/
theorem QuestionChain.sound {v : String} {e : Expr} {links : List Link} (h : QuestionChain v e links) :
    ∀ l ∈ links, l.Sound := by
  induction h with
  | question place => simp
  | @filter value links name args separators parenthesized place _ hName hAtoms ih =>
      have hScalar : ∀ w ∈ args.map fun arg => arg.1.value, w.isScalar = true := by
        intro w hMem
        obtain ⟨⟨l, place⟩, hArg, rfl⟩ := List.mem_map.mp hMem
        have hAtom : l.isAtom = true := hAtoms (l, place) hArg
        cases l with
        | null => cases hAtom
        | float x => cases hAtom
        | bool b => rfl
        | int n => rfl
        | text s => rfl
      exact List.forall_mem_append.mpr ⟨ih, List.forall_mem_singleton.mpr
        (sound_link separators parenthesized hName hScalar)⟩

variable {τ : Type} [LE τ] [DecidableLE τ] [Add τ] [OfNat τ 0] {p : PostProcessor}

/-- A quoted text is put to whoever answers questions in words, once. -/
theorem answer_quote {answer : String → Variables → Except String Datum}
    (hAnswer : p.surroundings.prompts = some answer) {v : String} {d : Datum}
    (hGiven : answer v p.vars = .ok d) (hSome : d.isNull = false) (s : Session τ) :
    p.answer (quote v) s = (.ok (some d), { s with prompts := s.prompts ++ [v] }) := by
  rw [PostProcessor.answer, not_selector_quote, not_schema_quote, Prompt.isName_quote,
    PostProcessor.prompt, Prompt.ofName?_quote, hAnswer]
  simp [hGiven, hSome]

/-- A question in words is asked in the words it has in the template, and once, if its
constants can be written. What is rendered for it is one placeholder; the second look
puts the question and prints what its filters make of the answer, each of them with the
parameter text of its constants. With a constant that cannot be written, rendering ends
with a fault, and the question is never put. -/
theorem question_survives {σ : Type} (context : Context σ) {v : String} {e : Expr}
    {links : List Link} (hChain : QuestionChain v e links) (trimOutput : Bool) (trim : Trim)
    (place : Place) (vars : Variables) (world : σ) (hEnabled : p.promptsEnabled = true)
    {answer : String → Variables → Except String Datum}
    (hAnswer : p.surroundings.prompts = some answer) {d : Datum}
    (hGiven : answer v p.vars = .ok d) (hSome : d.isNull = false) (s : Session τ) :
    (e.writable = true → ∃ placeholder,
      render context trimOutput [.print e trim place] vars world =
        (.ok ⟨placeholder, [], true⟩, vars, world) ∧
      p.process placeholder s = (Link.applyAll links p.registry p.url d >>= Datum.written,
        { s with prompts := s.prompts ++ [v] })) ∧
    (e.writable = false → render context trimOutput [.print e trim place] vars world =
      (.error .integerTooLong, vars, world)) := by
  refine ⟨fun hWritable => ⟨Datum.placeholder (sourceOf (quote v) links), ?_, ?_⟩, fun hLong => ?_⟩
  · have hPrinted : (printed context e).on { vars, world } =
        (ofFault (.ok (Datum.placeholder (sourceOf (quote v) links)))).on
          { vars, world, deferred := true } := by
      rw [printed, hChain.promptSource?_eq, Expr.written, if_pos hWritable, hChain.print_eq]
      rfl
    rw [render_alone hPrinted rfl rfl]
    show (Except.ok (Result.mk (finish trimOutput (Datum.placeholder _)) [] true), _) = _
    rw [finish_placeholder]
  · have hOpen : (Prompt.isName (quote v) && !p.promptsEnabled) = false := by simp [hEnabled]
    exact process_answered (chainPart_quote v) hChain.sound hOpen (answer_quote hAnswer hGiven hSome s)
  · have hPrinted : (printed context e).on { vars, world } =
        (ofFault (.error .integerTooLong)).on { vars, world } := by
      rw [printed, hChain.promptSource?_eq, Expr.written, if_neg (by simp [hLong])]
      rfl
    exact render_alone hPrinted rfl rfl trimOutput trim place

/-- A second look with an echo for an answer, and a few filters. -/
def echoingProcessor : PostProcessor :=
  { surroundings := { prompts := some fun question _ => .ok (.plain (.str question)) }
    registry := smallProcessor.registry }

/-- A question with quotes, the end of a placeholder, a bar, a backslash and a
line break in it. -/
def awkwardQuestion : String := "a \"\x7d\x7d\" | b\\\n"

/-- The first characters of the answer, in capitals. -/
def shortened : Expr :=
  .filter
    (.filter (.literal (.text awkwardQuestion) ⟨1, 3⟩) "slice"
      (constants [(.int 0, ⟨1, 30⟩), (.int 5, ⟨1, 32⟩)]) [.comma] false ⟨1, 24⟩)
    "upper" (constants []) [] false ⟨1, 34⟩

theorem question_survives_awkward : ∃ placeholder,
    render ({} : Context Unit) true [.print shortened ⟨false, false⟩ ⟨1, 1⟩] [] () =
      (.ok ⟨placeholder, [], true⟩, [], ()) ∧
    echoingProcessor.process placeholder ({ now := 0 } : Session Nat) =
      (.ok "A \"\x7d\x7d", { now := 0, prompts := [awkwardQuestion] }) := by
  have hAtoms : ∀ arg ∈ [(Literal.int 0, Place.mk 1 30), (.int 5, ⟨1, 32⟩)], arg.1.isAtom = true := by
    simp [Literal.isAtom]
  have hChain : QuestionChain awkwardQuestion shortened _ :=
    .filter "upper" [] [] false ⟨1, 34⟩
      (.filter "slice" _ [.comma] false ⟨1, 24⟩ (.question ⟨1, 3⟩) rfl hAtoms) rfl (by simp)
  have hWritable : shortened.writable = true := by decide +kernel
  obtain ⟨placeholder, hRendered, hProcessed⟩ := (question_survives ({} : Context Unit) hChain true
    ⟨false, false⟩ ⟨1, 1⟩ [] () (p := echoingProcessor) rfl rfl rfl rfl
    ({ now := 0 } : Session Nat)).1 hWritable
  refine ⟨placeholder, hRendered, hProcessed.trans (Prod.ext ?_ rfl)⟩
  decide +kernel

/-- A question with a constant of 4301 digits behind it. -/
def longTrimmed : Expr :=
  .filter (.literal (.text "v") ⟨1, 3⟩) "trim" (constants [(.int Decimal.digitLimit, ⟨1, 12⟩)])
    [] false ⟨1, 7⟩

/-- The question is not even written into the text. -/
theorem question_lost_before_long_constant :
    (∃ links, QuestionChain "v" longTrimmed links) ∧
      (render ({} : Context Unit) false [.print longTrimmed ⟨false, false⟩ ⟨1, 1⟩] [] ()).1 =
        .error .integerTooLong := by
  have hAtoms : ∀ arg ∈ [(Literal.int Decimal.digitLimit, Place.mk 1 12)], arg.1.isAtom = true :=
    List.forall_mem_singleton.mpr rfl
  exact ⟨⟨_, .filter "trim" _ [] false ⟨1, 7⟩ (.question ⟨1, 3⟩) rfl hAtoms⟩, by decide +kernel⟩

end NoteTemplate
