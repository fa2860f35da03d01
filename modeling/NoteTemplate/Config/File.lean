import NoteTemplate.Config
import NoteTemplate.Yaml.Reader

/-!
The file with the settings of the engine.
-/

namespace NoteTemplate.Config

/-- The settings in a file of a name, with the text of it, if there is one. An empty file has the
usual settings, as has a missing one. -/
def ofFile (path : String) (text : Option String) : Except ConfigError Config :=
  match text with
  | none => .ok {}
  | some text =>
    match Yaml.read? text.toList with
    | none => .error (.unreadable path)
    | some document =>
      match document.entries? with
      | none => .error (.notAMapping path)
      | some entries => ofFields (Yaml.fields entries)

end NoteTemplate.Config
