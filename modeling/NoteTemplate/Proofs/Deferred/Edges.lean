import Mathlib.Data.List.Forall2
import NoteTemplate.Proofs.Deferred.SecondLook
import NoteTemplate.Proofs.Text.Solid

/-! The ends of a compiled text. They are trimmed when the template is rendered, and
that is before the second look, so that an answer may bring a blank to an end of
the text, or uncover one. -/
namespace NoteTemplate

open Text Placeholder

namespace Placeholder

/-- A text in the place of a piece. A character of plain text has itself in its place. -/
def Fits (piece : Piece) (text : String) : Prop := ∀ c, piece = .char c → text = String.ofList [c]

/-- A blank comes to an end of a text, whose pieces are counted from that end with the
texts in their places: the text of a placeholder brings it there, or is empty and
uncovers it. -/
inductive BlankAt (edge : List Char → Option Char) : List Piece → List String → Prop where
  | brought {body : List Char} {text : String} {pieces : List Piece} {texts : List String} {c : Char}
      (hEdge : edge text.toList = some c) (hBlank : isBlank c = true) :
      BlankAt edge (.placeholder body :: pieces) (text :: texts)
  | uncovered {body : List Char} {pieces : List Piece} {texts : List String} {c : Char}
      (hBlank : isBlank c = true) : BlankAt edge (.placeholder body :: .char c :: pieces) ("" :: texts)
  | behind {body : List Char} {pieces : List Piece} {texts : List String}
      (hBehind : BlankAt edge pieces texts) :
      BlankAt edge (.placeholder body :: pieces) ("" :: texts)

section Edge

variable {edge : List Char → Option Char} {pieces : List Piece} {texts : List String}

/-- The text of a placeholder that is not empty is the end itself. -/
theorem blankAt_of_edge (hEmpty : edge "".toList = none) {text : String} {c : Char}
    (hEdge : edge text.toList = some c) (body : List Char) :
    BlankAt edge (.placeholder body :: pieces) (text :: texts) ↔ isBlank c = true := by
  constructor
  · intro h
    cases h with
    | brought hSame hBlank =>
        cases hEdge.symm.trans hSame
        exact hBlank
    | uncovered | behind => cases hEmpty.symm.trans hEdge
  · exact .brought hEdge

/-- Behind an empty text of a placeholder the end is that of the other pieces. -/
theorem blankAt_of_empty (hEmpty : edge "".toList = none) (body : List Char) :
    BlankAt edge (.placeholder body :: pieces) ("" :: texts) ↔
      (∃ c rest, pieces = .char c :: rest ∧ isBlank c = true) ∨ BlankAt edge pieces texts := by
  constructor
  · intro h
    cases h with
    | brought hSame => cases hEmpty.symm.trans hSame
    | uncovered hBlank => exact .inl ⟨_, _, rfl, hBlank⟩
    | behind hBehind => exact .inr hBehind
  · rintro (⟨c, rest, rfl, hBlank⟩ | hBehind)
    · exact .uncovered hBlank
    · exact .behind hBehind

/-- By induction on the pieces from an end of the text: the character at this end is a
blank exactly if the first piece is one or a blank comes there. -/
theorem blank_edge_iff (hNone : ∀ cs, edge cs = none ↔ cs = []) (hOne : ∀ c, edge [c] = some c)
    (h : List.Forall₂ Fits pieces texts) :
    (∃ c, texts.findSome? (fun text => edge text.toList) = some c ∧ isBlank c = true) ↔
      (∃ c rest, pieces = .char c :: rest ∧ isBlank c = true) ∨ BlankAt edge pieces texts := by
  have hEmpty : edge "".toList = none := (hNone _).mpr rfl
  induction h with
  | nil =>
      constructor
      · rintro ⟨c, ⟨⟩, -⟩
      · rintro (⟨c, rest, ⟨⟩, -⟩ | h)
        cases h
  | @cons piece text pieces texts hFits _ ih =>
      cases piece with
      | char c =>
          rw [List.findSome?_cons, hFits c rfl, String.toList_ofList, hOne]
          constructor
          · rintro ⟨d, ⟨⟩, hBlank⟩
            exact .inl ⟨c, pieces, rfl, hBlank⟩
          · rintro (⟨d, rest, ⟨⟩, hBlank⟩ | h)
            · exact ⟨c, rfl, hBlank⟩
            · cases h
      | placeholder body =>
          rw [List.findSome?_cons]
          cases hEdge : edge text.toList with
          | some c =>
              rw [blankAt_of_edge hEmpty hEdge]
              simp
          | none =>
              obtain rfl : text = "" := String.toList_eq_nil_iff.mp ((hNone _).mp hEdge)
              rw [blankAt_of_empty hEmpty]
              simpa using ih

/-- Where plain text ends with another character, a blank is at the end only if it
comes there. -/
theorem blankAt_iff (hNone : ∀ cs, edge cs = none ↔ cs = []) (hOne : ∀ c, edge [c] = some c)
    (h : List.Forall₂ Fits pieces texts)
    (hFirst : ∀ c rest, pieces = .char c :: rest → isBlank c = false) :
    (∃ c, texts.findSome? (fun text => edge text.toList) = some c ∧ isBlank c = true) ↔
      BlankAt edge pieces texts := by
  refine (blank_edge_iff hNone hOne h).trans (or_iff_right ?_)
  rintro ⟨c, rest, hPieces, hBlank⟩
  rw [hFirst c rest hPieces] at hBlank
  cases hBlank

/-- The text that pieces make up has no blank at its ends exactly if none comes there,
as long as plain text begins and ends with other characters. -/
theorem solid_join_iff (h : List.Forall₂ Fits pieces texts)
    (hFront : ∀ c rest, pieces = .char c :: rest → isBlank c = false)
    (hBack : ∀ c rest, pieces.reverse = .char c :: rest → isBlank c = false) :
    Solid (String.join texts) ↔
      ¬ BlankAt List.head? pieces texts ∧ ¬ BlankAt List.getLast? pieces.reverse texts.reverse := by
  have hBegins : (∃ c, (String.join texts).toList.head? = some c ∧ isBlank c = true) ↔
      BlankAt List.head? pieces texts := by
    rw [String.toList_join, List.head?_flatMap]
    exact blankAt_iff (fun _ => List.head?_eq_none_iff) (fun _ => rfl) h hFront
  have hEnds : (∃ c, (String.join texts).toList.getLast? = some c ∧ isBlank c = true) ↔
      BlankAt List.getLast? pieces.reverse texts.reverse := by
    rw [String.toList_join, List.getLast?_flatMap]
    exact blankAt_iff (fun _ => List.getLast?_eq_none_iff) (fun _ => rfl)
      (List.forall₂_reverse_iff.mpr h) hBack
  rw [← hBegins, ← hEnds]
  constructor
  · rintro ⟨hBegin, hEnd⟩
    exact ⟨fun ⟨c, hHead, hBlank⟩ => Bool.eq_false_iff.mp (hBegin c hHead) hBlank,
      fun ⟨c, hLast, hBlank⟩ => Bool.eq_false_iff.mp (hEnd c hLast) hBlank⟩
  · rintro ⟨hBegin, hEnd⟩
    exact ⟨fun c hHead => Bool.eq_false_iff.mpr fun hBlank => hBegin ⟨c, hHead, hBlank⟩,
      fun c hLast => Bool.eq_false_iff.mpr fun hBlank => hEnd ⟨c, hLast, hBlank⟩⟩

end Edge

/-- A text without a blank at its ends does not begin with one as plain text. -/
theorem front_of_solid {text : String} (h : Solid text) {c : Char} {rest : List Piece}
    (hPieces : pieces text.toList = .char c :: rest) : isBlank c = false := by
  refine h.begins c ?_
  rw [← flatMap_chars_pieces text.toList, hPieces, List.flatMap_cons, Piece.chars]
  rfl

theorem back_of_solid {text : String} (h : Solid text) {c : Char} {rest : List Piece}
    (hPieces : (pieces text.toList).reverse = .char c :: rest) : isBlank c = false := by
  refine h.ends c ?_
  rw [← flatMap_chars_pieces text.toList, List.reverse_eq_iff.mp hPieces]
  simp [Piece.chars]

end Placeholder

section Fillings

variable {τ : Type} [LE τ] [DecidableLE τ] [Add τ] [OfNat τ 0]

/-- The texts that the second look puts in the place of pieces. -/
def PostProcessor.fillings (p : PostProcessor) (s : Session τ) :
    List Placeholder.Piece → Except Fault (List String)
  | [] => .ok []
  | piece :: rest =>
    match p.processPiece s piece with
    | (.error f, _) => .error f
    | (.ok first, s) => (fillings p s rest).map (first :: ·)

/-- The second look puts these texts one behind another. -/
theorem PostProcessor.processPieces_eq (p : PostProcessor) (s : Session τ)
    (pieces : List Placeholder.Piece) :
    (p.processPieces s pieces).1 = (p.fillings s pieces).map String.join := by
  induction pieces generalizing s with
  | nil => rfl
  | cons piece rest ih =>
      rw [processPieces, fillings]
      rcases p.processPiece s piece with ⟨f | first, next⟩
      · rfl
      · dsimp only
        have hRest := ih next
        rcases hProcess : p.processPieces next rest with ⟨f | text, last⟩ <;>
          rw [hProcess] at hRest <;>
          cases hFillings : p.fillings next rest <;> rw [hFillings] at hRest <;> cases hRest
        · rfl
        · simp [Except.map, String.join_cons]

/-- What comes into the place of a piece fits it. -/
theorem PostProcessor.fits_of_fillings {p : PostProcessor} {s : Session τ}
    {pieces : List Placeholder.Piece} {texts : List String} (h : p.fillings s pieces = .ok texts) :
    List.Forall₂ Fits pieces texts := by
  induction pieces generalizing s texts with
  | nil =>
      cases h
      exact .nil
  | cons piece rest ih =>
      rw [fillings] at h
      rcases hPiece : p.processPiece s piece with ⟨f | first, next⟩ <;> rw [hPiece] at h
      · cases h
      · dsimp only at h
        cases hLater : p.fillings next rest with
        | error f =>
            rw [hLater] at h
            cases h
        | ok later =>
            rw [hLater] at h
            cases h
            refine .cons (fun c hChar => ?_) (ih hLater)
            rw [hChar, processPiece] at hPiece
            cases hPiece
            rfl

/-- The output of a rendering whose ends are trimmed. -/
theorem Render.solid_output {σ : Type} {context : Context σ} {nodes : List Node} {vars : Variables}
    {world : σ} {r : Result} (h : (render context true nodes vars world).1 = .ok r) :
    Solid r.output := by
  rw [render] at h
  rcases hRun : (renderNodes context "" nodes).run { vars, world } with
    ⟨(message | f) | output, behind⟩ <;> rw [hRun] at h <;> cases h
  · exact solid_empty
  · exact solid_strip output

namespace Engine

variable {engine : Engine τ} {surroundings : Surroundings} {text : String} {vars : Variables}
  {url : String} {tab : Option Int}

omit [LE τ] [DecidableLE τ] [Add τ] [OfNat τ 0] in
/-- A trimmed output has no blanks at its ends. -/
theorem solid_output (hTrim : engine.config.trimOutput = true) {σ : Type}
    {context : Render.Context σ} {world : σ} {r : Render.Result}
    (h : (engine.render context text vars world).1 = .ok r) : Solid r.output := by
  have hConfig : (engine.parse text).2.config = engine.config := rfl
  rw [render] at h
  rcases hParse : engine.parse text with ⟨f | template, next⟩ <;> rw [hParse] at h hConfig
  · cases h
  · dsimp only at h hConfig
    rw [hConfig, hTrim] at h
    split at h
    · exact Render.solid_output h
    · cases h
      exact solid_empty

/-- Compiling a template takes a second look, which puts texts in the place of the
pieces of the rendered text. -/
def Fills (engine : Engine τ) (surroundings : Surroundings) (text : String) (vars : Variables)
    (url : String) (tab : Option Int) (found : List Placeholder.Piece) (texts : List String) : Prop :=
  ∃ r later s behind,
    engine.render (engine.pageContext surroundings url tab) text vars engine.session =
      (.ok r, later, s, behind) ∧
    r.deferred = true ∧ pieces r.output.toList = found ∧
    (behind.postProcessor surroundings later (engine.pageContext surroundings url tab).url
      tab).fillings s found = .ok texts

/-- The text that a second look makes. -/
theorem compile_of_fills {found : List Placeholder.Piece} {texts : List String}
    (h : engine.Fills surroundings text vars url tab found texts) :
    (engine.compile surroundings text vars url tab).1.output = .ok (String.join texts) := by
  obtain ⟨r, later, s, behind, hRender, hUp, rfl, hTexts⟩ := h
  have hProcess := PostProcessor.processPieces_eq
    (behind.postProcessor surroundings later (engine.pageContext surroundings url tab).url tab) s
    (pieces r.output.toList)
  rw [hTexts] at hProcess
  rw [pageContext] at hRender hProcess
  rw [compile]
  dsimp only at hRender hProcess ⊢
  rw [hRender]
  dsimp only
  rw [if_pos hUp]
  exact hProcess

/-- A template is compiled to its rendered text if nothing was put off, and with a
second look otherwise. -/
theorem compile_cases {output : String}
    (h : (engine.compile surroundings text vars url tab).1.output = .ok output) :
    (∃ r, (engine.render (engine.pageContext surroundings url tab) text vars engine.session).1 =
        .ok r ∧ r.deferred = false ∧ output = r.output) ∨
      ∃ found texts, engine.Fills surroundings text vars url tab found texts := by
  rcases hRender : engine.render (engine.pageContext surroundings url tab) text vars engine.session
    with ⟨f | r, later, s, behind⟩
  · rw [pageContext] at hRender
    rw [compile] at h
    dsimp only at hRender h
    rw [hRender] at h
    cases h
  · cases hFlag : r.deferred with
    | false =>
        rw [compile_of_not_deferred (congrArg Prod.fst hRender) hFlag] at h
        cases h
        exact .inl ⟨r, rfl, hFlag, rfl⟩
    | true =>
        let p := behind.postProcessor surroundings later (engine.pageContext surroundings url tab).url
          tab
        have hProcess := p.processPieces_eq s (pieces r.output.toList)
        cases hTexts : p.fillings s (pieces r.output.toList) with
        | ok texts => exact .inr ⟨_, texts, r, later, s, behind, hRender, hFlag, rfl, hTexts⟩
        | error f =>
            rw [hTexts] at hProcess
            rw [pageContext] at hRender
            rw [compile] at h
            dsimp only at hRender h
            rw [hRender] at h
            dsimp only at h
            rw [if_pos hFlag] at h
            cases h.symm.trans hProcess

/-- With trimming on, a compiled text is trimmed if nothing was put off. Behind a second
look it is so exactly if no blank comes to an end of it in the place of a placeholder:
no text there has a blank at that end, and an empty one uncovers none. -/
theorem compile_trimmed_iff (hTrim : engine.config.trimOutput = true) {output : String}
    (hOutput : (engine.compile surroundings text vars url tab).1.output = .ok output) :
    strip output = output ↔ ∀ found texts, engine.Fills surroundings text vars url tab found texts →
      ¬ BlankAt List.head? found texts ∧ ¬ BlankAt List.getLast? found.reverse texts.reverse := by
  have hJoin {found : List Placeholder.Piece} {texts : List String}
      (h : engine.Fills surroundings text vars url tab found texts) :
      Solid (String.join texts) ↔
        ¬ BlankAt List.head? found texts ∧ ¬ BlankAt List.getLast? found.reverse texts.reverse := by
    obtain ⟨r, later, s, behind, hRender, hUp, rfl, hTexts⟩ := h
    have hSolid := solid_output hTrim (congrArg Prod.fst hRender)
    exact solid_join_iff (PostProcessor.fits_of_fillings hTexts) (fun _ _ => front_of_solid hSolid)
      fun _ _ => back_of_solid hSolid
  rw [strip_eq_self_iff]
  constructor
  · intro hSolid found texts hFills
    cases hOutput.symm.trans (compile_of_fills hFills)
    exact (hJoin hFills).mp hSolid
  · intro hEdges
    rcases compile_cases hOutput with ⟨r, hRender, hDown, rfl⟩ | ⟨found, texts, hFills⟩
    · exact solid_output hTrim hRender
    · cases hOutput.symm.trans (compile_of_fills hFills)
      exact (hJoin hFills).mpr (hEdges found texts hFills)

/-- Someone who answers every question in words with a text between blanks. -/
def looseAnswers : Surroundings := { prompts := some fun _ _ => .ok (.plain (.str " x ")) }

theorem compile_trimmed_iff_loose :
    let engine : Engine Nat := .new { trimOutput := true } [] 0
    engine.config.trimOutput = true ∧
    (engine.compile looseAnswers " a \x7b\x7b\"a\"\x7d\x7d b" [] "" none).1.output = .ok "a  x  b" ∧
    ∀ found texts, engine.Fills looseAnswers " a \x7b\x7b\"a\"\x7d\x7d b" [] "" none found texts →
      ¬ BlankAt List.head? found texts ∧ ¬ BlankAt List.getLast? found.reverse texts.reverse := by
  have hOutput : ((Engine.new { trimOutput := true } [] 0 : Engine Nat).compile looseAnswers
      " a \x7b\x7b\"a\"\x7d\x7d b" [] "" none).1.output = .ok "a  x  b" := by decide +kernel
  exact ⟨rfl, hOutput, (compile_trimmed_iff rfl hOutput).mp (by decide +kernel)⟩

/-- An answer at the ends of a text keeps its blanks, although the ends are to be trimmed. -/
theorem compile_untrimmed :
    let engine : Engine Nat := .new { trimOutput := true } [] 0
    (engine.compile looseAnswers "\x7b\x7b\"a\"\x7d\x7d" [] "" none).1.output = .ok " x " ∧
      strip " x " ≠ " x " := by
  decide +kernel

end Engine

end Fillings

end NoteTemplate
