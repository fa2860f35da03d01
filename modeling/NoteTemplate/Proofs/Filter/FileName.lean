import NoteTemplate.Filter.Substitution
import NoteTemplate.Proofs.Text.Margin
import NoteTemplate.Proofs.Text.Replacing
import NoteTemplate.Proofs.Text.Solid

/-! Names of files under the strictest rules. A name that is made of any text is never
empty or too long, holds allowed characters only and hides nothing. Devices are looked
for while points and blanks still stand at its ends, and it is cut to its length when
they are off, so a name can mean a device or end in a blank. Nothing else goes wrong. -/
namespace NoteTemplate

/-! Names that mean a device. A device is named by three letters in any case, some of
them with a digit behind, and its name keeps that meaning with an extension. -/

namespace Text

/-- The names of devices without an extension. -/
inductive Device : List Char → Prop where
  | plain {word : List Char} :
      word.map Char.toLower ∈ ["con".toList, "prn".toList, "aux".toList, "nul".toList] → Device word
  | numbered {word : List Char} {digit : Char} :
      word.map Char.toLower ∈ ["com".toList, "lpt".toList] → isAsciiDigit digit = true →
        Device (word ++ [digit])

/-- A device is meant by its name alone, and by its name in front of a point. -/
def DeviceName (cs : List Char) : Prop :=
  ∃ device rest, Device device ∧ cs = device ++ rest ∧ (rest = [] ∨ rest.head? = some '.')

/-- Names of devices are short, so that cutting a name to its length makes none. -/
theorem Device.length_le {cs : List Char} (h : Device cs) : cs.length ≤ 4 := by
  have hLength {word : List Char} {names : List (List Char)}
      (hWord : word.map Char.toLower ∈ names) (hNames : ∀ name ∈ names, name.length = 3) :
      word.length = 3 := by
    rw [← List.length_map (f := Char.toLower)]
    exact hNames _ hWord
  cases h with
  | plain hWord =>
      have := hLength hWord (by decide)
      omega
  | numbered hWord _ =>
      have := hLength hWord (by decide)
      rw [List.length_append, List.length_singleton]
      omega

/-- The first letter of the name of a device. -/
theorem DeviceName.begins {c : Char} {cs : List Char} (h : DeviceName (c :: cs)) :
    c.toLower ∈ ['c', 'p', 'a', 'n', 'l'] := by
  obtain ⟨device, rest, hDevice, hText, _⟩ := h
  have hLetter {word behind : List Char} {names : List (List Char)}
      (hWord : word.map Char.toLower ∈ names) (hText : c :: cs = word ++ behind)
      (hNames : ∀ name ∈ names, ∃ letter ∈ name.head?, letter ∈ ['c', 'p', 'a', 'n', 'l']) :
      c.toLower ∈ ['c', 'p', 'a', 'n', 'l'] := by
    obtain ⟨letter, hHead, hMem⟩ := hNames _ hWord
    cases word with
    | nil => cases hHead
    | cons first word =>
        cases (List.cons.inj hText).1
        exact Option.some.inj hHead ▸ hMem
  cases hDevice with
  | plain hWord => exact hLetter hWord hText (by simp)
  | numbered hWord _ =>
      rw [List.append_assoc] at hText
      exact hLetter hWord hText (by simp)

/-- What is cut off far behind does not matter. -/
theorem deviceName_take {n : Nat} (hFar : 4 < n) (cs : List Char) :
    DeviceName (cs.take n) ↔ DeviceName cs := by
  constructor
  · rintro ⟨device, rest, hDevice, hText, hEnd⟩
    have hWhole : cs = device ++ (rest ++ cs.drop n) := by
      rw [← List.append_assoc, ← hText, List.take_append_drop]
    refine ⟨device, rest ++ cs.drop n, hDevice, hWhole, ?_⟩
    cases rest with
    | nil =>
        have hLength := hDevice.length_le
        have hTaken := congrArg List.length hText
        rw [List.length_take, List.append_nil] at hTaken
        have hNothing : cs.drop n = [] := List.drop_eq_nil_of_le (by omega)
        exact .inl hNothing
    | cons c rest => exact .inr (hEnd.resolve_left (List.cons_ne_nil _ _))
  · rintro ⟨device, rest, hDevice, rfl, hEnd⟩
    have hLength := hDevice.length_le
    refine ⟨device, rest.take (n - device.length), hDevice, ?_, ?_⟩
    · rw [List.take_append, List.take_of_length_le (by omega)]
    · rw [List.head?_take, if_neg (by omega)]
      exact hEnd.imp_left fun hNil => by rw [hNil, List.take_nil]

/-- What is found at the front of a text is a device. -/
theorem device_of_dropDevice? {cs rest : List Char} (h : dropDevice? cs = some rest) :
    ∃ device, Device device ∧ cs = device ++ rest := by
  obtain ⟨⟨name, numbered⟩, hEntry, hFound⟩ := List.exists_of_findSome?_eq_some h
  dsimp only at hFound
  split at hFound
  · cases hFound
  · next after hDrop =>
      obtain ⟨word, behind, rfl, hWord, _⟩ :=
        List.map_eq_append_iff.mp (eq_append_of_dropPrefix? hDrop).symm
      have hBehind : (word ++ behind).drop name.length = behind := by
        rw [← hWord, List.length_map, List.drop_left]
      rw [hBehind] at hFound
      split at hFound
      · cases hFound
        have hPlain : ∀ entry ∈ deviceNames, entry.2 = false →
            entry.1 ∈ ["con".toList, "prn".toList, "aux".toList, "nul".toList] := by decide
        exact ⟨word, .plain (hWord ▸ hPlain _ hEntry rfl), rfl⟩
      · split at hFound
        · next hDigit =>
            cases hFound
            have hNumbered : ∀ entry ∈ deviceNames, entry.2 = true →
                entry.1 ∈ ["com".toList, "lpt".toList] := by decide
            exact ⟨_, .numbered (hWord ▸ hNumbered _ hEntry rfl) hDigit, by simp⟩
        · cases hFound
      · cases hFound

/-- Every device is found. -/
theorem Device.dropDevice?_append {device : List Char} (h : Device device) (rest : List Char) :
    dropDevice? (device ++ rest) = some rest := by
  have hBehind {word name : List Char} (hWord : word.map Char.toLower = name)
      (hLength : name.length = 3) (rest : List Char) : (word ++ rest).drop 3 = rest := by
    rw [← hLength, ← hWord, List.length_map, List.drop_left]
  cases h with
  | @plain word hWord =>
      simp only [List.mem_cons, List.not_mem_nil, or_false] at hWord
      rcases hWord with hWord | hWord | hWord | hWord
      all_goals
        have hRest := hBehind hWord rfl rest
        simp [dropDevice?, deviceNames, dropPrefix?, hWord, hRest]
  | @numbered word digit hWord hDigit =>
      simp only [List.mem_cons, List.not_mem_nil, or_false] at hWord
      rcases hWord with hWord | hWord
      all_goals
        have hRest := hBehind hWord rfl (digit :: rest)
        simp [dropDevice?, deviceNames, dropPrefix?, hWord, hRest, hDigit]

/-- The pattern for the names of devices matches those and no others. -/
theorem isDeviceName_iff (cs : List Char) : isDeviceName cs = true ↔ DeviceName cs := by
  constructor
  · intro h
    rw [isDeviceName] at h
    split at h
    · next hDrop =>
        obtain ⟨device, hDevice, hText⟩ := device_of_dropDevice? hDrop
        exact ⟨device, [], hDevice, hText, .inl rfl⟩
    · next c rest hDrop =>
        obtain ⟨device, hDevice, hText⟩ := device_of_dropDevice? hDrop
        exact ⟨device, c :: rest, hDevice, hText, .inr (congrArg some (beq_iff_eq.mp h))⟩
    · cases h
  · rintro ⟨device, rest, hDevice, rfl, hEnd⟩
    rw [isDeviceName, hDevice.dropDevice?_append]
    cases rest with
    | nil => rfl
    | cons c rest =>
        have hPoint := hEnd.resolve_left (List.cons_ne_nil _ _)
        exact beq_iff_eq.mpr (Option.some.inj hPoint)

instance (cs : List Char) : Decidable (DeviceName cs) :=
  decidable_of_iff (isDeviceName cs = true) (isDeviceName_iff cs)

/-! The rules, and what a name is made of. -/

/-- The characters that a name may have. -/
def Allowed (c : Char) : Prop :=
  c ∉ ['<', '>', ':', '"', '/', '\\', '|', '?', '*', '#', '^', '[', ']'] ∧ 0x1F < c.toNat

instance (c : Char) : Decidable (Allowed c) := inferInstanceAs (Decidable (_ ∧ _))

/-- The characters that a name may end in. -/
def Closing (c : Char) : Prop := c ≠ '.' ∧ isBlank c = false

/-- The rules on the length, the characters and the front of a name. -/
structure SoundName (cs : List Char) : Prop where
  filled : cs ≠ []
  short : cs.length ≤ 245
  allowed : ∀ c ∈ cs, Allowed c
  shown : cs.head? ≠ some '.'

/-- The names that a file can have on every platform. -/
structure ValidName (cs : List Char) : Prop extends SoundName cs where
  closed : ∀ c ∈ cs.getLast?, Closing c
  noDevice : ¬ DeviceName cs

/-- The platforms with the strictest rules. -/
def Platform.IsStrict (platform : Platform) : Prop := platform = .windows ∨ platform = .strict

/-- The characters of a text that a name may have. -/
def allowedChars (cs : List Char) : List Char := cs.filter fun c => decide (Allowed c)

/-- On a strict platform the marks of links are refused with the other characters. -/
theorem allowedChars_eq {platform : Platform} (h : platform.IsStrict) (cs : List Char) :
    ((cs.filter fun c => !isLinkMark c).filter fun c => !platform.refuses c) = allowedChars cs := by
  rw [List.filter_filter, allowedChars]
  refine List.filter_congr fun c _ => ?_
  rw [Bool.eq_iff_iff, decide_eq_true_iff]
  rcases h with rfl | rfl
  all_goals
    simp only [Platform.refuses, isControl, isLinkMark, Allowed]
    simp
    grind

/-- A text without the blanks and points that are taken off its ends. Where points at the
front are marked, they stay. -/
def bareName (platform : Platform) (cs : List Char) : List Char :=
  match platform with
  | .windows => (cutNameEnd cs).dropWhile (· == '.')
  | _ => cutNameEnd cs

/-- The name before it is cut to its length. -/
def wholeName (platform : Platform) (cs : List Char) : List Char :=
  if DeviceName cs then '_' :: cutNameEnd cs else markHidden (bareName platform cs)

theorem cutNameEnd_cons {c : Char} (h : Closing c) (cs : List Char) :
    cutNameEnd (c :: cs) = c :: cutNameEnd cs := by
  have hKeep : (isBlank c || c == '.') = false := by simp [h.1, h.2]
  rw [cutNameEnd, trimEndBy, List.reverse_cons, dropWhile_append_cons_of_neg hKeep,
    List.reverse_append]
  rfl

theorem closing_of_mem_cutNameEnd (cs : List Char) : ∀ c ∈ (cutNameEnd cs).getLast?, Closing c := by
  intro c hLast
  have hKeep := not_of_mem_getLast?_trimEndBy _ cs c hLast
  simp only [Bool.or_eq_false_iff, beq_eq_false_iff_ne] at hKeep
  exact ⟨hKeep.2, hKeep.1⟩

/-- A name that does not begin with a point is not hidden. -/
theorem markHidden_of_shown {cs : List Char} (h : cs.head? ≠ some '.') : markHidden cs = cs := by
  cases cs with
  | nil => rfl
  | cons c rest =>
      rw [markHidden]
      rintro rest' hText
      rw [hText] at h
      exact h rfl

theorem head?_markHidden (cs : List Char) : (markHidden cs).head? ≠ some '.' := by
  by_cases hShown : cs.head? = some '.'
  · obtain ⟨rest, rfl⟩ := List.head?_eq_some_iff.mp hShown
    simp [markHidden]
  · rwa [markHidden_of_shown hShown]

theorem dropWhile_of_shown {cs : List Char} (h : cs.head? ≠ some '.') :
    cs.dropWhile (· == '.') = cs := by
  refine dropWhile_eq_self fun c hHead => beq_eq_false_iff_ne.mpr ?_
  rintro rfl
  exact h hHead

theorem shown_dropWhile (cs : List Char) : (cs.dropWhile (· == '.')).head? ≠ some '.' := by
  intro hHead
  have hNot := List.head?_dropWhile_not (· == '.') cs
  rw [hHead] at hNot
  cases hNot

theorem markDevice_eq (cs : List Char) :
    markDevice cs = if DeviceName cs then '_' :: cs else cs := by
  simp only [markDevice, isDeviceName_iff]

theorem closing_mark : Closing '_' := ⟨by decide, rfl⟩

theorem head?_marked (cs : List Char) : ('_' :: cs).head? ≠ some '.' := by simp

theorem wholeName_windows (cs : List Char) :
    (cutNameEnd (markDevice cs)).dropWhile (· == '.') = wholeName .windows cs := by
  rw [wholeName, markDevice_eq]
  split
  · rw [cutNameEnd_cons closing_mark, dropWhile_of_shown (head?_marked _)]
  · exact (markHidden_of_shown (shown_dropWhile _)).symm

theorem wholeName_strict (cs : List Char) :
    (markHidden (cutNameEnd (markDevice cs))).dropWhile (· == '.') = wholeName .strict cs := by
  rw [dropWhile_of_shown (head?_markHidden _), wholeName, markDevice_eq]
  split
  · rw [cutNameEnd_cons closing_mark, markHidden_of_shown (head?_marked _)]
  · rfl

/-- The name of a file is its whole name, cut to its length. -/
theorem fileName_eq {platform : Platform} (h : platform.IsStrict) (cs : List Char) :
    fileName platform cs =
      if wholeName platform (allowedChars cs) = [] then "Untitled".toList
      else (wholeName platform (allowedChars cs)).take maxNameLength := by
  have hName (whole : List Char) : whole.take maxNameLength = [] ↔ whole = [] := by
    simp [maxNameLength]
  have hAllowed := allowedChars_eq h cs
  rcases h with rfl | rfl
  · simp only [fileName, hAllowed, trimStartBy, wholeName_windows, hName]
  · simp only [fileName, hAllowed, trimStartBy, wholeName_strict, hName]

section
variable (platform : Platform) (cs : List Char)

/-- A mark stands in front of a device and in place of a point; other names stay bare. -/
theorem wholeName_cases :
    (DeviceName cs ∧ wholeName platform cs = '_' :: cutNameEnd cs) ∨
      (¬ DeviceName cs ∧
        ∃ rest, bareName platform cs = '.' :: rest ∧ wholeName platform cs = '_' :: rest) ∨
      (¬ DeviceName cs ∧ (bareName platform cs).head? ≠ some '.' ∧
        wholeName platform cs = bareName platform cs) := by
  rw [wholeName]
  split
  · next hDevice => exact .inl ⟨hDevice, rfl⟩
  · next hDevice =>
      by_cases hHidden : (bareName platform cs).head? = some '.'
      · obtain ⟨rest, hBare⟩ := List.head?_eq_some_iff.mp hHidden
        exact .inr (.inl ⟨hDevice, rest, hBare, by rw [hBare, markHidden]⟩)
      · exact .inr (.inr ⟨hDevice, hHidden, markHidden_of_shown hHidden⟩)

theorem shown_wholeName : (wholeName platform cs).head? ≠ some '.' := by
  obtain ⟨_, hWhole⟩ | ⟨_, rest, _, hWhole⟩ | ⟨_, hShown, hWhole⟩ := wholeName_cases platform cs
  · exact hWhole ▸ head?_marked _
  · exact hWhole ▸ head?_marked rest
  · exact hWhole ▸ hShown

/-- Neither a blank nor a point ends the name in front of its length being cut. -/
theorem closing_of_mem_bareName : ∀ c ∈ (bareName platform cs).getLast?, Closing c := by
  have hEnd := closing_of_mem_cutNameEnd cs
  have hCut : ∀ c ∈ ((cutNameEnd cs).dropWhile (· == '.')).getLast?, Closing c := by
    intro c hLast
    obtain ⟨front, hFront⟩ := List.dropWhile_suffix (l := cutNameEnd cs) (· == '.')
    refine hEnd c ?_
    rw [← hFront, List.getLast?_append, Option.mem_def.mp hLast]
    rfl
  cases platform with
  | windows => exact hCut
  | _ => exact hEnd

/-- Neither a blank nor a point ends the whole name. -/
theorem closing_of_mem_wholeName : ∀ c ∈ (wholeName platform cs).getLast?, Closing c := by
  have hMark {rest : List Char} (hRest : ∀ c ∈ rest.getLast?, Closing c) :
      ∀ c ∈ ('_' :: rest).getLast?, Closing c := by
    intro c hLast
    rw [List.getLast?_cons] at hLast
    cases hEnd : rest.getLast? with
    | none => exact Option.some.inj (hEnd ▸ hLast) ▸ closing_mark
    | some d => exact hRest c (hEnd ▸ hLast)
  have hBare := closing_of_mem_bareName platform cs
  obtain ⟨_, hWhole⟩ | ⟨_, rest, hHidden, hWhole⟩ | ⟨_, _, hWhole⟩ := wholeName_cases platform cs
  · exact hWhole ▸ hMark (closing_of_mem_cutNameEnd cs)
  · rw [hHidden] at hBare
    rw [hWhole]
    refine hMark fun c hLast => hBare c ?_
    rw [List.getLast?_cons, Option.mem_def.mp hLast]
    rfl
  · exact hWhole ▸ hBare

/-- All characters of a name are those of the text, or an underscore in front of it. -/
theorem eq_or_mem_of_mem_wholeName {c : Char} (h : c ∈ wholeName platform cs) :
    c = '_' ∨ c ∈ cs := by
  have hCut : ∀ c ∈ cutNameEnd cs, c ∈ cs := fun c hMem => (trimEndBy_isPrefix _ cs).subset hMem
  have hBare : ∀ c ∈ bareName platform cs, c ∈ cs := by
    intro c hMem
    cases platform with
    | windows => exact hCut c ((List.dropWhile_suffix _).subset hMem)
    | _ => exact hCut c hMem
  obtain ⟨_, hWhole⟩ | ⟨_, rest, hHidden, hWhole⟩ | ⟨_, _, hWhole⟩ := wholeName_cases platform cs
  · rw [hWhole, List.mem_cons] at h
    exact h.imp_right (hCut c)
  · rw [hWhole, List.mem_cons] at h
    exact h.imp_right fun hMem => hBare c (hHidden ▸ List.mem_cons_of_mem '.' hMem)
  · exact .inr (hBare c (hWhole ▸ h))

/-- A mark in front keeps a name from meaning a device. -/
theorem deviceName_wholeName : DeviceName (wholeName platform cs) ↔
    ¬ DeviceName cs ∧ DeviceName (bareName platform cs) := by
  have hMarked (rest : List Char) : ¬ DeviceName ('_' :: rest) := fun h =>
    absurd h.begins (by decide)
  obtain ⟨hDevice, hWhole⟩ | ⟨_, rest, hHidden, hWhole⟩ | ⟨hDevice, _, hWhole⟩ :=
    wholeName_cases platform cs
  · rw [hWhole]
    exact iff_of_false (hMarked _) fun h => h.1 hDevice
  · rw [hWhole, hHidden]
    exact iff_of_false (hMarked rest) fun h => absurd h.2.begins (by decide)
  · rw [hWhole, and_iff_right hDevice]

end

section
variable {platform : Platform} (h : platform.IsStrict) (cs : List Char)
include h

/-- Every text gives a name that is sound on its platform. -/
theorem soundName_fileName : SoundName (fileName platform cs) := by
  have hUntitled : ∀ c ∈ "Untitled".toList, Allowed c := by simp [Allowed]
  have hAllowed : ∀ c ∈ wholeName platform (allowedChars cs), Allowed c := by
    intro c hMem
    rcases eq_or_mem_of_mem_wholeName platform (allowedChars cs) hMem with rfl | hKept
    · decide
    · exact of_decide_eq_true (List.mem_filter.mp hKept).2
  rw [fileName_eq h]
  split
  · exact ⟨by decide, by decide, hUntitled, by decide⟩
  · next hSome =>
      refine ⟨?_, ?_, ?_, ?_⟩
      · simpa [maxNameLength] using hSome
      · exact List.length_take_le maxNameLength _
      · exact fun c hMem => hAllowed c (List.mem_of_mem_take hMem)
      · rw [List.head?_take, if_neg (by decide)]
        exact shown_wholeName platform (allowedChars cs)

/-- A name ends in a point or a blank if it is cut behind one. -/
theorem closed_fileName_iff : (∀ c ∈ (fileName platform cs).getLast?, Closing c) ↔
    ∀ c ∈ (wholeName platform (allowedChars cs))[244]?, Closing c := by
  have hWhole := closing_of_mem_wholeName platform (allowedChars cs)
  rw [fileName_eq h]
  split
  · next hNone =>
      rw [hNone]
      exact iff_of_true (by simp [Closing, isBlank]) (by simp)
  · rw [List.getLast?_take, if_neg (by decide)]
    show (∀ c ∈ (wholeName platform (allowedChars cs))[244]?.or _, Closing c) ↔ _
    cases hPlace : (wholeName platform (allowedChars cs))[244]? with
    | none => exact iff_of_true hWhole (by simp)
    | some c => rfl

/-- A name means a device if the allowed characters do so only without what is taken off
at their ends. -/
theorem deviceName_fileName_iff : DeviceName (fileName platform cs) ↔
    ¬ DeviceName (allowedChars cs) ∧ DeviceName (bareName platform (allowedChars cs)) := by
  rw [fileName_eq h, ← deviceName_wholeName]
  split
  · next hNone =>
      rw [hNone]
      exact iff_of_false (by decide) (by decide)
  · exact deviceName_take (by decide) _

end

end Text

namespace Filter

open Text

/-- A name under the strictest rules is never empty or too long, holds allowed characters
only and hides nothing. It is valid unless it is cut behind a point or a blank, or means
a device that the text does not mean before points and blanks are off its ends. -/
theorem safeName_valid_iff (s : String) {param : Option String}
    (hStrict : (Platform.ofName (Param.single param)).IsStrict) :
    let platform := Platform.ofName (Param.single param)
    let allowed := allowedChars s.toList
    let name := (safeName s param).toList
    SoundName name ∧
      (ValidName name ↔
        (∀ c ∈ (wholeName platform allowed)[244]?, Closing c) ∧
          (DeviceName (bareName platform allowed) → DeviceName allowed)) := by
  intro platform allowed name
  have hName : name = fileName platform s.toList := String.toList_ofList
  have hSound : SoundName name := hName ▸ soundName_fileName hStrict s.toList
  have hDevice : ¬ DeviceName name ↔
      (DeviceName (bareName platform allowed) → DeviceName allowed) := by
    rw [hName, deviceName_fileName_iff hStrict, not_and', not_not]
  refine ⟨hSound, ?_⟩
  rw [← closed_fileName_iff hStrict, ← hName, ← hDevice]
  exact ⟨fun hValid => ⟨hValid.closed, hValid.noDevice⟩, fun h => ⟨hSound, h.1, h.2⟩⟩

/-- A device with an extension in which a blank stands, and points and a bracket at its end. -/
theorem safeName_valid_iff_extension :
    (Platform.ofName (Param.single (some "windows"))).IsStrict ∧
      safeName "Lpt7. a:b.[ " (some "windows") = "_Lpt7. ab" ∧
      ValidName (safeName "Lpt7. a:b.[ " (some "windows")).toList := by
  have hStrict : (Platform.ofName (Param.single (some "windows"))).IsStrict :=
    .inl (by decide +kernel)
  refine ⟨hStrict, by decide +kernel, ?_⟩
  refine (safeName_valid_iff "Lpt7. a:b.[ " hStrict).2.mpr ⟨?_, ?_⟩
  · have hShort : (wholeName (Platform.ofName (Param.single (some "windows")))
        (allowedChars "Lpt7. a:b.[ ".toList))[244]? = none := by decide +kernel
    rw [hShort]
    simp
  · exact fun _ => by decide +kernel

/-- The blank behind the name of a device hides it, and is taken off afterwards. -/
theorem safeName_device_uncovered :
    Platform.ofName (Param.single (some "windows")) = .windows ∧
      safeName "con " (some "windows") = "con" ∧
      ¬ ValidName (safeName "con " (some "windows")).toList := by
  have hName : safeName "con " (some "windows") = "con" := by decide +kernel
  have hDevice : DeviceName "con".toList := by decide
  exact ⟨by decide +kernel, hName, fun h => h.noDevice (hName ▸ hDevice)⟩

end Filter

end NoteTemplate
