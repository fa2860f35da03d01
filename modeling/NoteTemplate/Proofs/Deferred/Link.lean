import Mathlib.Data.List.Basic
import NoteTemplate.Proofs.Deferred.ParamText
import NoteTemplate.Filter.Registry

/-! One filter of a chain as it is written behind a bar. The name and the
parameter text are read back from it, so that a written chain does to a value
what its filters do one after another. -/
namespace NoteTemplate

open Text Token

/-- A filter with its parameter text. -/
structure Link where
  name : String
  param : Option String

namespace Link

/-- A name of a filter, and a parameter text of scalars. -/
structure Sound (l : Link) : Prop where
  name : Expr.isNameText l.name.toList = true
  param : ∀ text ∈ l.param, Fragment text

/-- The filter as it is written. Without a parameter text there is no colon. -/
def text (l : Link) : String :=
  match l.param with
  | some text => if text = "" then l.name else l.name ++ ":" ++ text
  | none => l.name

/-- Apply the filter. -/
def applyTo (l : Link) (registry : Registry) (url : String) (d : Datum) : Except Fault Datum :=
  registry.apply l.name d l.param url

/-- Apply filters one after another. -/
def applyAll (links : List Link) (registry : Registry) (url : String) (d : Datum) :
    Except Fault Datum :=
  links.foldlM (fun d l => l.applyTo registry url d) d

/-- A filter on something deferred is written behind a bar. -/
theorem deferFilter_eq (source : String) (l : Link) :
    Render.deferFilter source l.name l.param = .deferred (source ++ "|" ++ l.text) := by
  rw [Render.deferFilter.eq_def, text]
  cases l.param with
  | none => rfl
  | some param =>
      by_cases hEmpty : param = ""
      · simp [hEmpty]
      · simp [hEmpty, String.append_assoc]

/-- Identifiers consist of characters that a chain allows in the name of a filter. -/
theorem isNameChar_of_isNameText {name : String} (h : Expr.isNameText name.toList = true) :
    ∀ c ∈ name.toList, isNameChar c = true := by
  obtain ⟨c, rest, hName, hStart, hRest⟩ := Expr.exists_of_isNameText h
  have hFirst : isNameChar c = true := by
    simp only [isNameStart, Bool.or_eq_true] at hStart
    rcases hStart with (hLetter | hLine) | hAt
    · simp [isNameChar, hLetter]
    · simp [isNameChar, hLine]
    · simp [isNameChar, hAt]
  rw [hName]
  exact List.forall_mem_cons.mpr ⟨hFirst, hRest⟩

theorem ne_empty_of_isNameText {name : String} (h : Expr.isNameText name.toList = true) :
    name ≠ "" := by
  rintro rfl
  cases h

theorem fragment_name {name : String} (h : Expr.isNameText name.toList = true) : Fragment name :=
  Numeric.fragment fun c hMem => by
    rw [isNumeric, isNameChar_of_isNameText h c hMem, Bool.true_or]

theorem fragment_colon : Fragment ":" := fragment_separator .colon

/-- A written filter can stand between two bars. -/
theorem Sound.chainPart {l : Link} (h : l.Sound) : ChainPart l.text := by
  have hName := fragment_name h.name
  have hSome := ne_empty_of_isNameText h.name
  rw [text]
  cases hParam : l.param with
  | none => exact ⟨hName, hSome⟩
  | some param =>
      by_cases hEmpty : param = ""
      · simpa [hEmpty] using ChainPart.mk hName hSome
      · have hText := (hName.append fragment_colon).append (h.param param hParam)
        simpa [hEmpty] using ChainPart.mk hText (by simp [hEmpty])

theorem cutAtChar?_of_forall {sep : Char} {cs : List Char} (h : ∀ c ∈ cs, c ≠ sep) :
    cutAtChar? sep cs = none := by
  induction cs with
  | nil => rfl
  | cons c rest ih => simp [cutAtChar?, h c (by simp), ih fun d hd => h d (by simp [hd])]

theorem cutAtChar?_append {sep : Char} {cs : List Char} (h : ∀ c ∈ cs, c ≠ sep)
    (rest : List Char) : cutAtChar? sep (cs ++ sep :: rest) = some (cs, rest) := by
  induction cs with
  | nil => simp [cutAtChar?]
  | cons c later ih => simp [cutAtChar?, h c (by simp), ih fun d hd => h d (by simp [hd])]

/-- The name and the parameter text are read back; an empty one is none. -/
theorem Sound.link_text {l : Link} (h : l.Sound) :
    Registry.link l.text = (l.name, Registry.nonEmpty l.param) := by
  have hChars : ∀ c ∈ l.name.toList, c ≠ ':' := fun c hMem =>
    ne_of_class (isNameChar_of_isNameText h.name c hMem) ':' rfl
  have hStrip := (fragment_name h.name).solid.strip_eq
  have hAlone : Registry.link l.name = (l.name, none) := by
    rw [Registry.link, cutAtChar?_of_forall hChars, hStrip]
  rw [text]
  cases hParam : l.param with
  | none => exact hAlone
  | some param =>
      by_cases hEmpty : param = ""
      · have hNone : Registry.nonEmpty (some "") = none := by simp [Registry.nonEmpty]
        simp [hEmpty, hAlone, hNone]
      · have hCut : cutAtChar? ':' (l.name ++ ":" ++ param).toList =
            some (l.name.toList, param.toList) := by
          rw [String.toList_append, String.toList_append, List.append_assoc]
          exact cutAtChar?_append hChars param.toList
        have hParamStrip := (h.param param hParam).solid.strip_eq
        simp only [hEmpty, if_false]
        rw [Registry.link, hCut]
        simp only [String.ofList_toList, hStrip, hParamStrip]

theorem apply_nonEmpty (registry : Registry) (name : String) (d : Datum) (param : Option String)
    (url : String) :
    registry.apply name d (Registry.nonEmpty param) url = registry.apply name d param url := by
  have hTwice : Registry.nonEmpty (Registry.nonEmpty param) = Registry.nonEmpty param := by
    simp [Registry.nonEmpty, Option.filter_filter]
  simp only [Registry.apply, Registry.applyTo, hTwice]

/-- A written chain does what its filters do. -/
theorem applyChain_text {links : List Link} (h : ∀ l ∈ links, l.Sound) (registry : Registry)
    (url : String) (d : Datum) :
    registry.applyChain d (String.intercalate "|" (links.map text)) url =
      applyAll links registry url d := by
  have hSplit : (Param.split '|' (String.intercalate "|" (links.map text))).filter (· ≠ "") =
      links.map text := by
    cases links with
    | nil => rfl
    | cons l links =>
        have hParts : ∀ part ∈ l.text :: links.map text, ChainPart part := by
          intro part hMem
          obtain ⟨m, hLink, rfl⟩ := List.mem_map.mp (show part ∈ (l :: links).map text from hMem)
          exact (h m hLink).chainPart
        rw [List.map_cons, split_chain hParts, List.filter_eq_self]
        exact fun part hMem => by simpa using (hParts part hMem).some
  rw [Registry.applyChain, hSplit, applyAll]
  clear hSplit
  induction links generalizing d with
  | nil => rfl
  | cons l rest ih =>
      obtain ⟨hFirst, hRest⟩ := List.forall_mem_cons.mp h
      rw [List.map_cons, List.foldlM_cons, List.foldlM_cons, hFirst.link_text]
      dsimp only
      rw [apply_nonEmpty]
      exact bind_congr (ih hRest)

/-- The text that a filter makes of a text. -/
def textAfter (registry : Registry) (name : String) (param : Option String) (url text : String) :
    Except Fault String :=
  match Assoc.get? registry name with
  | none => .ok text
  | some filter =>
    match filter.run text (Registry.nonEmpty param) (if filter.wantsUrl then url else "") with
    | some result => result.structured.written
    | none => .ok text

/-- A filter sees nothing of a value but its text. -/
theorem apply_written (registry : Registry) (name : String) (param : Option String) (url : String)
    (d : Datum) : (registry.apply name d param url >>= Datum.written) =
      d.written >>= textAfter registry name param url := by
  rw [Registry.apply]
  cases hText : d.written with
  | error f =>
      cases Assoc.get? registry name with
      | none => exact hText
      | some filter => rfl
  | ok text =>
      show _ = textAfter registry name param url text
      rw [textAfter]
      cases Assoc.get? registry name with
      | none => exact hText
      | some filter =>
          show (Registry.applyTo filter d text param url).written = _
          rw [Registry.applyTo]
          dsimp only
          cases filter.run text (Registry.nonEmpty param) (if filter.wantsUrl then url else "") with
          | some result => rfl
          | none => exact hText

theorem applyAll_append (links : List Link) (l : Link) (registry : Registry) (url : String)
    (d : Datum) : applyAll (links ++ [l]) registry url d =
      applyAll links registry url d >>= l.applyTo registry url := by
  rw [applyAll, List.foldlM_append]
  exact bind_congr fun d => bind_pure _

/-- A filter makes a value of a value. -/
theorem apply_plain (registry : Registry) (name : String) (v : Value) (param : Option String)
    (url : String) :
    ∃ result : Except Fault Value,
      registry.apply name (.plain v) param url = result.map Datum.plain := by
  rw [Registry.apply]
  split
  · exact ⟨.ok v, rfl⟩
  · next filter _ =>
    cases hText : (Datum.plain v).written with
    | error f => exact ⟨.error f, rfl⟩
    | ok text =>
        show ∃ result, Except.ok (Registry.applyTo filter (.plain v) text param url) = _
        rw [Registry.applyTo]
        split
        · next result _ => exact ⟨.ok result.structured, rfl⟩
        · exact ⟨.ok v, rfl⟩

end Link

end NoteTemplate
