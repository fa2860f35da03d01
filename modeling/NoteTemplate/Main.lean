import NoteTemplate.Command

/-!
The program on the command line.
-/

namespace NoteTemplate.Command

/-- The text of a file; none if it cannot be read. -/
def readFile? (path : String) : IO (Option String) := do
  try
    return some (← IO.FS.readFile path)
  catch _ =>
    return none

def readStream (stream : IO.FS.Stream) : IO String := do
  let mut text := ""
  let mut line ← stream.getLine
  while line ≠ "" do
    text := text ++ line
    line ← stream.getLine
  return text

def readInputs (invocation : Invocation) : IO Inputs := do
  let mut files : List (String × String) := []
  for path in invocation.files do
    if let some text ← readFile? path then
      files := (path, text) :: files
  let standardInput ←
    if invocation.files.contains "-" then readStream (← IO.getStdin) else pure ""
  let cache ← IO.getEnv "CLIPTPL_CACHE"
  let prompts ← IO.getEnv "CLIPTPL_PROMPTS"
  return {
    file? := fun path => files.lookup path
    standardInput
    environment := { cache, prompts } }

/-- The program for some words of the command line. -/
def mainWith (words : List String) : IO UInt32 := do
  match Invocation.ofWords words with
  | .error (.usage e) => do
    IO.eprintln e.line
    return failureCode.toUInt32
  | .error (.help g) => do
    IO.println ("usage: " ++ g.program)
    return 0
  | .error .version => do
    IO.println programName
    return 0
  | .ok invocation =>
    match run (← readInputs invocation) invocation with
    | .ok outcome => do
      IO.print outcome.output
      IO.eprint outcome.errors
      return outcome.code.toUInt32
    | .error failure => do
      IO.eprint failure.line
      return failureCode.toUInt32

end NoteTemplate.Command

def main (words : List String) : IO UInt32 := NoteTemplate.Command.mainWith words
