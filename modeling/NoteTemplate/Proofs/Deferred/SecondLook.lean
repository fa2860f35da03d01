import NoteTemplate.Engine
import NoteTemplate.Proofs.Deferred.FlagSound
import NoteTemplate.Proofs.Deferred.Whole
import NoteTemplate.Proofs.Render.TrimMarks
import NoteTemplate.Proofs.Text.Margin

/-! The second look through a text behind whose rendering the flag is down. But
for blanks the text is what the texts of the template and the values that were
printed hold, one behind the other, and so the brace with which anything begins
that looks like a placeholder stands in one of them. A text in which nothing looks
like one is what the second look makes of it. -/
namespace NoteTemplate

open Text

namespace Text

/-- A character of the ink of a text stands somewhere in the text, behind the ink
in front of it. -/
theorem of_ink_eq_append_cons {cs front back : List Char} {c : Char}
    (h : ink cs = front ++ c :: back) :
    ∃ before behind, cs = before ++ c :: behind ∧ ink before = front := by
  obtain ⟨start, rest, rfl, hStart, hRest⟩ := List.filter_eq_append_iff.mp h
  obtain ⟨blanks, behind, rfl, hBlanks, -, -⟩ := List.filter_eq_cons_iff.mp hRest
  refine ⟨start ++ blanks, behind, (List.append_assoc ..).symm, ?_⟩
  have hNone : ink blanks = [] := List.filter_eq_nil_iff.mpr hBlanks
  rw [ink_append, hNone, List.append_nil]
  exact hStart

end Text

namespace Render

variable {σ : Type} {context : Context σ}

/-- What a part wrote itself where a rendering came to it. -/
structure Writing (σ : Type) where
  node : Node
  there : Pass σ
  text : String

/-- The ink of what a part wrote. -/
def Writing.ink (w : Writing σ) : List Char := Text.ink w.text.toList

/-- A part writes a text itself: it is one, or it prints an expression. -/
inductive Writes (context : Context σ) : Writing σ → Prop where
  | text (s : String) (place : Place) (pass : Pass σ) : Writes context ⟨.text s place, pass, s⟩
  | print {e : Expr} {trim : Trim} {place : Place} {text : String} {pass behind : Pass σ}
      (h : (printed context e).on pass = (.ok text, behind)) :
      Writes context ⟨.print e trim place, pass, text⟩

/-- Ink that some of the parts in reach wrote, one behind the other. -/
def Wrote (context : Context σ) (reach : Node → Pass σ → Prop) (cs : List Char) : Prop :=
  ∃ writings : List (Writing σ),
    (∀ w ∈ writings, reach w.node w.there ∧ Writes context w) ∧ cs = writings.flatMap Writing.ink

namespace Wrote

variable {reach : Node → Pass σ → Prop}

/-- Nothing is what none of them wrote. -/
theorem nil : Wrote context reach [] := ⟨[], List.forall_mem_nil _, rfl⟩

theorem of_eq_empty {text : String} (h : text = "") : Wrote context reach (ink text.toList) := by
  subst h
  exact nil

theorem single {w : Writing σ} (hReach : reach w.node w.there) (h : Writes context w) :
    Wrote context reach w.ink :=
  ⟨[w], List.forall_mem_singleton.mpr ⟨hReach, h⟩, by simp⟩

theorem append {front back : List Char} (hFront : Wrote context reach front)
    (hBack : Wrote context reach back) : Wrote context reach (front ++ back) := by
  obtain ⟨earlier, hEarlier, rfl⟩ := hFront
  obtain ⟨later, hLater, rfl⟩ := hBack
  exact ⟨earlier ++ later, List.forall_mem_append.mpr ⟨hEarlier, hLater⟩, by simp⟩

theorem flatMap {texts : List String} (h : ∀ s ∈ texts, Wrote context reach (ink s.toList)) :
    Wrote context reach (texts.flatMap fun s => ink s.toList) := by
  induction texts with
  | nil => exact nil
  | cons first rest ih =>
      obtain ⟨hFirst, hRest⟩ := List.forall_mem_cons.mp h
      exact hFirst.append (ih hRest)

theorem imp {other : Node → Pass σ → Prop} {cs : List Char} (h : Wrote context reach cs)
    (hReach : ∀ inner there, reach inner there → other inner there) : Wrote context other cs := by
  obtain ⟨writings, hWritings, rfl⟩ := h
  exact ⟨writings, fun w hMem => ⟨hReach _ _ (hWritings w hMem).1, (hWritings w hMem).2⟩, rfl⟩

end Wrote

/-- A text of a turn is the text of its body, in the pass in which the turn
begins. -/
theorem exists_turn {iterator : String} {length index : Nat} {body : Run σ String}
    {items : List Value} {texts : List String} {pass behind : Pass σ}
    (h : (turns iterator length body index items).on pass = (.ok texts, behind)) {text : String}
    (hMem : text ∈ texts) :
    ∃ past item future earlier middle written after, items = past ++ item :: future ∧
      (turns iterator length body index past).on pass = (.ok earlier, middle) ∧
      body.on { middle with
        vars := bind middle.vars (bindings iterator item (index + past.length) length) } =
        (.ok written, after) ∧ text = strip written := by
  induction items generalizing index pass texts with
  | nil =>
      rw [turns] at h
      cases h
      cases hMem
  | cons item rest ih =>
      rw [turns, Run.on_bind_ok (Run.on_get pass)] at h
      obtain ⟨written, middle, hTurn, h⟩ := of_on_bind h
      obtain ⟨later, _, hLater, h⟩ := of_on_bind h
      cases h
      rcases List.mem_cons.mp hMem with rfl | hRest
      · rw [on_withVariables] at hTurn
        obtain ⟨hText, -⟩ := Prod.mk.inj hTurn
        exact ⟨[], item, rest, [], pass, written, _, rfl, by rw [turns]; rfl,
          Prod.ext hText rfl, rfl⟩
      · obtain ⟨past, next, future, earlier, start, other, after, rfl, hPast, hBody, hText⟩ :=
          ih hLater hRest
        refine ⟨item :: past, next, future, strip written :: earlier, start, other, after, rfl, ?_,
          ?_, hText⟩
        · rw [turns, Run.on_bind_ok (Run.on_get pass), Run.on_bind_ok hTurn,
            Run.on_bind_ok hPast]
          rfl
        · rw [← hBody, List.length_cons, Nat.add_assoc, Nat.add_comm 1]

/-- A guarded computation yields what it yields without the guard, or no text. -/
theorem of_on_guarded {describe : String → String} {place : Place} {act : Run σ String}
    {text : String} {pass behind : Pass σ}
    (h : (guarded describe place act).on pass = (.ok text, behind)) :
    act.on pass = (.ok text, behind) ∨ text = "" := by
  rw [on_guarded] at h
  rcases hOn : act.on pass with ⟨(message | f) | written, after⟩ <;> rw [hOn] at h <;> cases h
  · exact .inr rfl
  · exact .inl rfl

theorem ink_of_cutBehind {output text : String} {pass behind : Pass σ}
    (h : (cutBehind output).on pass = (.ok text, behind)) : ink text.toList = ink output.toList := by
  obtain ⟨cut, pending, hOn, hInk⟩ := on_cutBehind_ink output pass
  cases h.symm.trans hOn
  exact hInk

/-- The ink of a loop is what its turns write. -/
theorem wrote_of_loopText {iterator : String} {items : List Value} {body : Run σ String}
    {reach : Node → Pass σ → Prop} {text : String} {pass behind : Pass σ}
    (h : (loopText iterator items body).on pass = (.ok text, behind))
    (hBody : ∀ past item future earlier middle written after, items = past ++ item :: future →
      (turns iterator items.length body 0 past).on pass = (.ok earlier, middle) →
      body.on { middle with
        vars := bind middle.vars (bindings iterator item past.length items.length) } =
        (.ok written, after) → Wrote context reach (ink written.toList)) :
    Wrote context reach (ink text.toList) := by
  rw [loopText, Run.on_bind_ok (Run.on_get pass)] at h
  obtain ⟨texts, _, hTurns, h⟩ := of_on_bind h
  cases h
  rw [ink_lines]
  refine .flatMap fun line hLine => ?_
  obtain ⟨past, item, future, earlier, middle, written, after, hItems, hPast, hOn, rfl⟩ :=
    exists_turn hTurns hLine
  rw [Nat.zero_add] at hOn
  rw [ink_strip]
  exact hBody past item future earlier middle written after hItems hPast hOn

mutual

/-- The ink of a part is written by parts that it comes to. -/
theorem wrote_of_renderNode : ∀ node {text : String} {pass behind : Pass σ},
    (renderNode context node).on pass = (.ok text, behind) →
      Wrote context (Visits context node pass) (ink text.toList)
  | .text s place, text, pass, behind, h => by
      rw [renderNode] at h
      cases h
      exact .single (.here _ pass) (.text s place pass)
  | .print e trim place, text, pass, behind, h => by
      rw [renderNode] at h
      obtain hOn | hNone := of_on_guarded h
      · exact .single (.here _ pass) (.print hOn)
      · exact .of_eq_empty hNone
  | .assign name e trim place, text, pass, behind, h => by
      rw [renderNode] at h
      obtain hOn | hNone := of_on_guarded h
      · rw [assign] at hOn
        obtain ⟨d, _, -, hOn⟩ := of_on_bind hOn
        cases hOn
        exact .nil
      · exact .of_eq_empty hNone
  | .loop iterator iterable body trim place, text, pass, behind, h => by
      rw [renderNode] at h
      obtain hOn | hNone := of_on_guarded h
      · obtain ⟨d, middle, hIterable, hTurns⟩ := of_on_bind hOn
        split at hTurns
        · cases hTurns
          exact .nil
        · refine wrote_of_loopText hTurns
            fun past item future earlier start written after hItems hPast hBody => ?_
          subst hItems
          exact (wrote_of_renderNodes body hBody).imp fun inner there hVisits =>
            hVisits.turn hIterable hPast
        · cases hTurns
      · exact .of_eq_empty hNone
  | .conditional condition body branches otherwise trim place, text, pass, behind, h => by
      rw [renderNode] at h
      obtain hOn | hNone := of_on_guarded h
      · obtain ⟨d, middle, hCondition, hBody⟩ := of_on_bind hOn
        split at hBody
        · next hTrue =>
          exact (wrote_of_renderNodes body hBody).imp fun inner there hVisits =>
            hVisits.branch (List.nil_append _).symm (.nil pass) hCondition hTrue
        · next hFalse =>
          have hFails := Bool.eq_false_iff.mpr hFalse
          rcases wrote_of_renderBranches branches hBody with
            ⟨before, later, inside, after, start, d, begin, rfl, hBefore, hLater, hTrue, hWrote⟩ |
            ⟨last, hAll, hLast⟩
          · exact hWrote.imp fun inner there hVisits =>
              hVisits.branch (List.cons_append).symm (.cons hCondition hFails hBefore) hLater hTrue
          · rcases wrote_of_renderOtherwise otherwise hLast with hNone | ⟨inside, rfl, hWrote⟩
            · exact .of_eq_empty hNone
            · exact hWrote.imp fun inner there hVisits =>
                hVisits.otherwise (.cons hCondition hFails hAll)
      · exact .of_eq_empty hNone

/-- What a branch without a condition gives was written by what its body reached. -/
theorem wrote_of_renderOtherwise : ∀ otherwise {text : String} {pass behind : Pass σ},
    (renderOtherwise context otherwise).on pass = (.ok text, behind) →
      text = "" ∨ ∃ body, otherwise = some body ∧
        Wrote context (VisitsIn context body pass) (ink text.toList)
  | some body, text, pass, behind, h => by
      rw [renderOtherwise] at h
      exact .inr ⟨body, rfl, wrote_of_renderNodes body h⟩
  | none, text, pass, behind, h => by
      rw [renderOtherwise] at h
      cases h
      exact .inl rfl

/-- What branches give was written by what the body of one of them reached, or by the
branch without a condition. -/
theorem wrote_of_renderBranches {otherwise : Run σ String} :
    ∀ branches {text : String} {pass behind : Pass σ},
      (renderBranches context otherwise branches).on pass = (.ok text, behind) →
        (∃ before condition body after middle d start,
          branches = before ++ (condition, body) :: after ∧ Fails context before pass middle ∧
          (eval context condition).on middle = (.ok d, start) ∧ d.truthy = true ∧
          Wrote context (VisitsIn context body start) (ink text.toList)) ∨
        ∃ middle, Fails context branches pass middle ∧
          otherwise.on middle = (.ok text, behind)
  | [], text, pass, behind, h => by
      rw [renderBranches] at h
      exact .inr ⟨pass, .nil pass, h⟩
  | (condition, body) :: rest, text, pass, behind, h => by
      rw [renderBranches] at h
      obtain ⟨d, middle, hCondition, h⟩ := of_on_bind h
      split at h
      · next hTrue =>
        exact .inl ⟨[], condition, body, rest, pass, d, middle, rfl, .nil pass, hCondition, hTrue,
          wrote_of_renderNodes body h⟩
      · next hFalse =>
        have hFails := Bool.eq_false_iff.mpr hFalse
        rcases wrote_of_renderBranches rest h with
          ⟨before, later, inside, after, last, d, start, rfl, hBefore, hLater, hTrue, hWrote⟩ |
          ⟨last, hAll, hLast⟩
        · exact .inl ⟨(condition, body) :: before, later, inside, after, last, d, start, rfl,
            .cons hCondition hFails hBefore, hLater, hTrue, hWrote⟩
        · exact .inr ⟨last, .cons hCondition hFails hAll, hLast⟩

/-- With nothing in front, all the ink of parts is theirs. -/
theorem wrote_of_renderNodes (nodes : List Node) {text : String} {pass behind : Pass σ}
    (h : (renderNodes context "" nodes).on pass = (.ok text, behind)) :
    Wrote context (VisitsIn context nodes pass) (ink text.toList) := by
  obtain ⟨cs, hText, hWrote⟩ := wrote_behind "" nodes h
  rw [hText]
  exact hWrote

/-- Behind a text, parts write the ink that follows. -/
theorem wrote_behind : ∀ output nodes {text : String} {pass behind : Pass σ},
    (renderNodes context output nodes).on pass = (.ok text, behind) →
      ∃ cs, ink text.toList = ink output.toList ++ cs ∧
        Wrote context (VisitsIn context nodes pass) cs
  | output, [], text, pass, behind, h => by
      rw [renderNodes] at h
      cases h
      exact ⟨[], (List.append_nil _).symm, .nil⟩
  | output, node :: rest, text, pass, behind, h => by
      rw [renderNodes] at h
      obtain ⟨written, afterNode, hNode, h⟩ := of_on_bind h
      obtain ⟨cut, afterCut, hCut, h⟩ := of_on_bind h
      obtain ⟨⟨⟩, start, hMark, h⟩ := of_on_bind h
      have hFirst : (renderNodes context "" [node]).on pass =
          (.ok (cutBefore node.trim "" ++ cut), start) := by
        rw [renderNodes, Run.on_bind_ok hNode, Run.on_bind_ok hCut, Run.on_bind_ok hMark,
          renderNodes]
        rfl
      obtain ⟨later, hText, hLater⟩ := wrote_behind _ rest h
      have hHere : Wrote context (VisitsIn context (node :: rest) pass) (ink written.toList) :=
        (wrote_of_renderNode node hNode).imp fun inner there hVisits => visitsIn_first hVisits
      refine ⟨ink written.toList ++ later, ?_, hHere.append (hLater.imp fun inner there hVisits =>
        hVisits.cons hFirst)⟩
      rw [hText, String.toList_append, ink_append, ink_cutBefore, ink_of_cutBehind hCut,
        List.append_assoc]

end

/-- With the flag down a part gives a text: it is one, or it prints a value. -/
inductive Gives (context : Context σ) : Writing σ → Prop where
  | text (s : String) (place : Place) (pass : Pass σ) : Gives context ⟨.text s place, pass, s⟩
  | value {e : Expr} {trim : Trim} {place : Place} {v : Value} {pass behind : Pass σ}
      (h : (eval context e).on pass = (.ok (.plain v), behind)) :
      Gives context ⟨.print e trim place, pass, v.text⟩

/-- An account of an output: what the parts gave that the rendering came to, one
behind the other. But for blanks it is the output. -/
structure Account (context : Context σ) (nodes : List Node) (pass : Pass σ) (output : String)
    (writings : List (Writing σ)) : Prop where
  reached : ∀ w ∈ writings, VisitsIn context nodes pass w.node w.there
  given : ∀ w ∈ writings, Gives context w
  ink : Text.ink output.toList = writings.flatMap Writing.ink

/-- When the flag is down behind a rendering whose variables were values, the
texts of the template and the values account for the output. -/
theorem exists_account {trimOutput : Bool} {nodes : List Node} {vars : Variables} {world : σ}
    {r : Result} (hVars : Settled vars)
    (hResult : (render context trimOutput nodes vars world).1 = .ok r) (hDown : r.deferred = false) :
    ∃ writings, Account context nodes { vars, world } r.output writings := by
  have hLast : ((renderNodes context "" nodes).on { vars, world }).2.deferred = false := by
    rw [flag_of_render hResult, hDown]
  rw [render, show (renderNodes context "" nodes).run { vars, world } =
    (renderNodes context "" nodes).on { vars, world } from rfl] at hResult
  rcases hOn : (renderNodes context "" nodes).on { vars, world } with ⟨(message | f) | text, behind⟩ <;>
    rw [hOn] at hResult <;> cases hResult
  · exact ⟨[], List.forall_mem_nil _, List.forall_mem_nil _, rfl⟩
  · obtain ⟨writings, hWritings, hInk⟩ := wrote_of_renderNodes nodes hOn
    refine ⟨writings, fun w hMem => (hWritings w hMem).1, fun w hMem => ?_, ?_⟩
    · obtain ⟨hVisits, hWrites⟩ := hWritings w hMem
      cases hWrites with
      | text s place pass => exact .text s place pass
      | @print e trim place written pass after hPrinted =>
          have hAfter : after.deferred = false := by
            refine Bool.eq_false_iff.mpr fun hUp => ?_
            rw [hVisits.flag (by rw [renderNode, guarded_flag, hPrinted]; exact hUp)] at hLast
            cases hLast
          obtain ⟨v, hEval, rfl⟩ :=
            printed_value (hVisits.candid fun _ => hVars) hPrinted hAfter
          exact .value hEval
    · rw [← hInk]
      show ink (finish trimOutput text).toList = _
      rw [finish]
      split
      · exact ink_strip text
      · rfl

/-- One of the writings holds a character, and what it and the writings before it
hold in front of the character is the given ink. -/
def Holds (writings : List (Writing σ)) (front : List Char) (c : Char) : Prop :=
  ∃ (earlier later : List (Writing σ)) (w : Writing σ) (before behind : List Char),
    writings = earlier ++ w :: later ∧ w.text.toList = before ++ c :: behind ∧
      front = earlier.flatMap Writing.ink ++ ink before

/-- A character of what parts wrote is held by what one of them wrote. -/
theorem holds_of_ink {writings : List (Writing σ)} {front back : List Char} {c : Char}
    (h : writings.flatMap Writing.ink = front ++ c :: back) : Holds writings front c := by
  induction writings generalizing front with
  | nil => exact absurd h.symm (by simp)
  | cons first rest ih =>
      rw [List.flatMap_cons] at h
      -- The character is behind what the first part wrote, or it is in it.
      obtain ⟨more, rfl, hRest⟩ | ⟨more, hFirst, hMore⟩ := List.append_eq_append_iff.mp h
      · obtain ⟨earlier, later, w, before, behind, rfl, hText, rfl⟩ := ih hRest
        exact ⟨first :: earlier, later, w, before, behind, rfl, hText, by simp⟩
      · cases more with
        | nil =>
            have hNext : rest.flatMap Writing.ink = [] ++ c :: back := hMore.symm
            obtain ⟨earlier, later, w, before, behind, rfl, hText, hFront⟩ := ih hNext
            refine ⟨first :: earlier, later, w, before, behind, rfl, hText, ?_⟩
            rw [List.flatMap_cons, List.append_assoc, ← hFront, hFirst, List.append_nil,
              List.append_nil]
        | cons d more =>
            obtain ⟨rfl, -⟩ := List.cons.inj hMore
            obtain ⟨before, behind, hText, hFront⟩ := of_ink_eq_append_cons hFirst
            exact ⟨[], rest, first, before, behind, rfl, hText, hFront.symm⟩

end Render

namespace Placeholder

theorem eq_of_atFront? {cs body behind : List Char} (h : atFront? cs = some (body, behind)) :
    cs = (Piece.placeholder body).chars ++ behind := by
  unfold atFront? at h
  split at h
  · rw [eq_of_body? h, Piece.chars]
    simp
  · cases h

/-- The pieces of a text make up the text. -/
theorem flatMap_chars_pieces (cs : List Char) : (pieces cs).flatMap Piece.chars = cs := by
  fun_induction pieces cs with
  | case1 => rfl
  | case2 c rest body behind hFront _ ih => rw [List.flatMap_cons, ih, ← eq_of_atFront? hFront]
  | case3 c rest _ ih => rw [List.flatMap_cons, ih, Piece.chars, List.singleton_append]

/-- Nothing in a text looks like a placeholder. -/
def Plain (text : String) : Prop := ∀ body, Piece.placeholder body ∉ pieces text.toList

/-- What looks like a placeholder begins with a brace. -/
theorem eq_append_brace {cs body : List Char} {before after : List Piece}
    (h : pieces cs = before ++ .placeholder body :: after) :
    ∃ behind, cs = before.flatMap Piece.chars ++ '\x7b' :: behind := by
  have hText := flatMap_chars_pieces cs
  rw [h, List.flatMap_append, List.flatMap_cons, Piece.chars] at hText
  exact ⟨_, hText.symm⟩

end Placeholder

section Look

open Placeholder

variable {τ : Type} [LE τ] [DecidableLE τ] [Add τ] [OfNat τ 0]

/-- Pieces of plain text stay as they are. -/
theorem PostProcessor.processPieces_of_plain (p : PostProcessor) (s : Session τ)
    {pieces : List Placeholder.Piece} (h : ∀ body, .placeholder body ∉ pieces) :
    p.processPieces s pieces = (.ok (String.ofList (pieces.flatMap Placeholder.Piece.chars)), s) := by
  induction pieces with
  | nil => rfl
  | cons piece rest ih =>
      have hRest := ih fun body hMem => h body (List.mem_cons_of_mem _ hMem)
      cases piece with
      | placeholder body => exact absurd List.mem_cons_self (h body)
      | char c =>
          rw [processPieces, processPiece]
          simp only [hRest, List.flatMap_cons, Placeholder.Piece.chars, String.ofList_append]

/-- The second look leaves a text alone in which nothing looks like a
placeholder, and asks nobody. -/
theorem PostProcessor.process_of_plain (p : PostProcessor) {text : String} (h : Plain text)
    (s : Session τ) : p.process text s = (.ok text, s) := by
  rw [process, processPieces_of_plain p s h, flatMap_chars_pieces, String.ofList_toList]

/-- The context in which a template is compiled. -/
def Engine.pageContext (engine : Engine τ) (surroundings : Surroundings) (url : String)
    (tab : Option Int) : Render.Context (Session τ) :=
  let url := if engine.config.stripTextFragment then stripTextFragment url else url
  engine.context url (some (pageResolver surroundings tab url))

/-- With the flag down, compiling is rendering. -/
theorem Engine.compile_of_not_deferred {engine : Engine τ} {surroundings : Surroundings}
    {text : String} {vars : Variables} {url : String} {tab : Option Int} {r : Render.Result}
    (h : (engine.render (engine.pageContext surroundings url tab) text vars engine.session).1 =
      .ok r) (hDown : r.deferred = false) :
    (engine.compile surroundings text vars url tab).1.output = .ok r.output := by
  rw [pageContext] at h
  rw [compile]
  dsimp only at h ⊢
  rw [h]
  dsimp only
  rw [if_neg (Bool.eq_false_iff.mp hDown)]

omit [LE τ] [DecidableLE τ] [Add τ] [OfNat τ 0] in
/-- What an engine renders with the flag down is accounted for by the parts of the
template. A template that is refused gives nothing. -/
theorem Engine.exists_account {engine : Engine τ} {σ : Type} {context : Render.Context σ}
    {text : String} {vars : Variables} {world : σ} {r : Render.Result} (hVars : Settled vars)
    (h : (engine.render context text vars world).1 = .ok r) (hDown : r.deferred = false) :
    ∃ template writings, (engine.parse text).1 = .ok template ∧
      (template.ok = false → writings = []) ∧
      Render.Account context template.nodes { vars, world } r.output writings := by
  rw [render] at h
  rcases hParse : engine.parse text with ⟨f | template, next⟩ <;> rw [hParse] at h
  · cases h
  · dsimp only at h
    split at h
    · next hOk =>
      obtain ⟨writings, hAccount⟩ := Render.exists_account hVars h hDown
      exact ⟨template, writings, rfl, fun hRefused => absurd hOk (by simp [hRefused]), hAccount⟩
    · cases h
      exact ⟨template, [], rfl, fun _ => rfl, List.forall_mem_nil _, List.forall_mem_nil _, rfl⟩

/-- Whatever looks like a placeholder begins with a brace that a part gave. -/
theorem Render.Account.brace {σ : Type} {context : Render.Context σ} {nodes : List Node}
    {pass : Render.Pass σ} {output : String} {writings : List (Render.Writing σ)}
    (h : Render.Account context nodes pass output writings) {body : List Char}
    {before after : List Placeholder.Piece}
    (hPieces : pieces output.toList = before ++ .placeholder body :: after) :
    Render.Holds writings (Text.ink (before.flatMap Placeholder.Piece.chars)) '\x7b' := by
  obtain ⟨behind, hText⟩ := eq_append_brace hPieces
  have hInk := h.ink
  have hFirst : Text.ink ('\x7b' :: behind) = '\x7b' :: Text.ink behind := rfl
  rw [hText, ink_append, hFirst] at hInk
  exact Render.holds_of_ink hInk.symm

/-- Skipping the second look when the flag is down changes nothing, as long as
nothing in the rendered text looks like a placeholder. That is so if no part that
was reached gave a brace. Whatever does look like one begins with a brace in the
text of a part that was reached, a text of the template or a value, behind what
the parts before it gave. -/
theorem second_look_idle {engine : Engine τ} {text : String} {vars : Variables}
    (hVars : Settled vars) :
    (∀ {σ : Type} {context : Render.Context σ} {world : σ} {r : Render.Result},
      (engine.render context text vars world).1 = .ok r → r.deferred = false →
        ∃ template, ∃ writings : List (Render.Writing σ), (engine.parse text).1 = .ok template ∧
          (template.ok = false → writings = []) ∧
          Render.Account context template.nodes { vars, world } r.output writings ∧
          ((∀ w ∈ writings, '\x7b' ∉ w.text.toList) → Plain r.output) ∧
          (Plain r.output → ∀ (p : PostProcessor) (s : Session τ),
            p.process r.output s = (.ok r.output, s)) ∧
          ∀ before body after, pieces r.output.toList = before ++ .placeholder body :: after →
            Render.Holds writings (ink (before.flatMap Placeholder.Piece.chars)) '\x7b') ∧
    (∀ {surroundings : Surroundings} {url : String} {tab : Option Int} {r : Render.Result},
      (engine.render (engine.pageContext surroundings url tab) text vars engine.session).1 = .ok r →
      r.deferred = false → Plain r.output → ∀ (p : PostProcessor) (s : Session τ),
        (engine.compile surroundings text vars url tab).1.output = (p.process r.output s).1) := by
  constructor
  · intro σ context world r hResult hDown
    obtain ⟨template, writings, hParse, hRefused, hAccount⟩ :=
      Engine.exists_account hVars hResult hDown
    refine ⟨template, writings, hParse, hRefused, hAccount, fun hNone body hMem => ?_,
      fun hPlain p s => p.process_of_plain hPlain s, fun before body after => hAccount.brace⟩
    obtain ⟨before, after, hPieces⟩ := List.append_of_mem hMem
    obtain ⟨earlier, later, w, front, back, rfl, hText, -⟩ := hAccount.brace hPieces
    exact hNone w (List.mem_append_right _ List.mem_cons_self) (by simp [hText])
  · intro surroundings url tab r hResult hDown hPlain p s
    rw [Engine.compile_of_not_deferred hResult hDown, p.process_of_plain hPlain s]

/-- An engine as it starts. -/
def freshEngine : Engine Nat := .new {} [] 0

/-- A text each of whose pieces is one of its characters is plain. -/
theorem plain_of_pieces {text : String} (h : pieces text.toList = text.toList.map .char) :
    Plain text := by
  intro body hMem
  rw [h, List.mem_map] at hMem
  obtain ⟨_, _, hPiece⟩ := hMem
  cases hPiece

/-- A page with a title between single braces and one that looks like a
placeholder. -/
def bracedVars : Variables :=
  [(.text "title", .plain (.str "\x7bnew\x7d")), (.text "odd", .plain (.str "\x7b\x7bnew\x7d\x7d"))]

/-- A template that prints the title. -/
def bracedText : String := "Title: \x7b\x7btitle\x7d\x7d"

/-- A template that prints what looks like a placeholder. -/
def oddText : String := "\x7b\x7bodd\x7d\x7d"

theorem second_look_idle_braced :
    ((freshEngine.render ({} : Render.Context Unit) bracedText bracedVars ()).1 =
      .ok ⟨"Title: \x7bnew\x7d", [], false⟩ ∧
    (∀ (p : PostProcessor) (s : Session Nat),
      p.process "Title: \x7bnew\x7d" s = (.ok "Title: \x7bnew\x7d", s)) ∧
    ∀ (p : PostProcessor) (s : Session Nat),
      (freshEngine.compile {} bracedText bracedVars "" none).1.output =
        (p.process "Title: \x7bnew\x7d" s).1) ∧
    ((freshEngine.render ({} : Render.Context Unit) oddText bracedVars ()).1 =
      .ok ⟨"\x7b\x7bnew\x7d\x7d", [], false⟩ ∧
    ∃ template writings, (freshEngine.parse oddText).1 = .ok template ∧
      Render.Account ({} : Render.Context Unit) template.nodes { vars := bracedVars, world := () }
        "\x7b\x7bnew\x7d\x7d" writings ∧
      Render.Holds writings [] '\x7b') := by
  have hVars : Settled bracedVars := by
    simp only [Settled, bracedVars, List.forall_mem_cons]
    exact ⟨rfl, rfl, List.forall_mem_nil _⟩
  have hRender : (freshEngine.render ({} : Render.Context Unit) bracedText bracedVars ()).1 =
      .ok ⟨"Title: \x7bnew\x7d", [], false⟩ := by decide +kernel
  have hPage : (freshEngine.render (freshEngine.pageContext {} "" none) bracedText bracedVars
      freshEngine.session).1 = .ok ⟨"Title: \x7bnew\x7d", [], false⟩ := by decide +kernel
  have hPlain : Plain "Title: \x7bnew\x7d" := plain_of_pieces (by decide +kernel)
  have hOdd : (freshEngine.render ({} : Render.Context Unit) oddText bracedVars ()).1 =
      .ok ⟨"\x7b\x7bnew\x7d\x7d", [], false⟩ := by decide +kernel
  have hPieces : pieces "\x7b\x7bnew\x7d\x7d".toList = [.placeholder ['n', 'e', 'w']] := by
    decide +kernel
  obtain ⟨-, -, -, -, -, -, hIdle, -⟩ := (second_look_idle hVars).1 hRender rfl
  obtain ⟨template, writings, hParse, -, hAccount, -, -, hBrace⟩ :=
    (second_look_idle hVars).1 hOdd rfl
  exact ⟨⟨hRender, hIdle hPlain, (second_look_idle hVars).2 hPage rfl hPlain⟩,
    hOdd, template, writings, hParse, hAccount, hBrace [] _ [] hPieces⟩

/-- A value that looks like a placeholder is printed with the flag down, and the
second look resolves it. -/
theorem second_look_resolves_data :
    (freshEngine.render ({} : Render.Context Unit) "\x7b\x7ba\x7d\x7d"
      [(.text "a", .plain (.str "\x7b\x7bb\x7d\x7d")), (.text "b", .plain (.str "x"))] ()).1 =
      .ok ⟨"\x7b\x7bb\x7d\x7d", [], false⟩ ∧
    (PostProcessor.process
      { vars := [(.text "a", .plain (.str "\x7b\x7bb\x7d\x7d")), (.text "b", .plain (.str "x"))] }
      "\x7b\x7bb\x7d\x7d" ({ now := 0 } : Session Nat)).1 = .ok "x" := by
  constructor <;> decide +kernel

end Look

end NoteTemplate
