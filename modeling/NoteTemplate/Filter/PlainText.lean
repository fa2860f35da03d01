import NoteTemplate.Filter.Registry
import NoteTemplate.Filter.Substitution
import NoteTemplate.Pattern.Reader

/-!
The filter that takes the marks of Markdown off a text.
-/

namespace NoteTemplate.Filter

open NoteTemplate.Text

/-- A rule: a pattern and the groups of it that may stay, of which the first with any text does. -/
structure MarkRule where
  pattern : Pattern.Compiled
  kept : List Nat := []

def MarkRule.of (pattern : String) (kept : List Nat) : MarkRule :=
  ⟨Pattern.ofString pattern, kept⟩

def MarkRule.rest (rule : MarkRule) (s : Pattern.Subject) (found : Pattern.Found) : List Char :=
  ((rule.kept.map (found.text s)).find? (· ≠ [])).getD []

def MarkRule.apply (cs : List Char) (rule : MarkRule) : List Char :=
  Pattern.replace rule.pattern rule.rest cs

/-- The rules for the marks of Markdown, in the order in which they are applied. Images, addresses,
code blocks and tables go as a whole; of all else the text stays. -/
def markRules : List MarkRule := [
  .of "!\\[([^\\]]*)\\]\\([^)]+\\)" [],
  .of "!\\[\\[([^\\]]+)\\]\\]" [],
  .of "\\[([^\\]]+)\\]\\([^)]+\\)" [1],
  .of "https?://\\S+" [],
  .of "\x60\x60\x60[\\s\\S]*?\x60\x60\x60" [],
  .of "(\\*\\*|__)(.*?)\\1" [2],
  .of "(\\*|_)(.*?)\\1" [2],
  .of "==(.*?)==" [1],
  .of "(?m)^#+\\s+" [],
  .of "\x60([^\x60]+)\x60" [1],
  .of "~~(.*?)~~" [1],
  .of "(?m)^[-*+] (\\[[x ]\\] )?" [],
  .of "(?m)^([-*_])\x7b3,\x7d\\s*$" [],
  .of "(?m)^>\\s+" [],
  .of "\\|.*\\|" [],
  .of "([~^])(\\w+)\\1" [2],
  .of ":[a-z_]+:" [],
  .of "<[^>]+>" [],
  .of "\\[\\s*\\]" [],
  .of "\\[\\^[^\\]]+\\]" [],
  .of "(?m)^\\*\\[[^\\]]+\\]:.+$" [],
  .of "\\[\\[([^\\]|]+)\\|?([^\\]]*)\\]\\]" [2, 1]]

/-- A text without the marks of Markdown. -/
def plainMarkdown (cs : List Char) : List Char :=
  trim (squeezeBreaks (markRules.foldl MarkRule.apply cs))

/-- The filter that drops the marks of Markdown. -/
def plainText : List Filter := [
  ofText "strip_md" (fun s => String.ofList (plainMarkdown s.toList)) "Remove Markdown formatting"]

end NoteTemplate.Filter
