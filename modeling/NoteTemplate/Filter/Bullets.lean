import NoteTemplate.Filter.Items

/-!
The filter that writes lists. Nested arrays become nested lists.
-/

namespace NoteTemplate.Filter

open NoteTemplate.Text

/-- The kinds of lists. -/
inductive Bullet where
  | plain
  | numbered
  | task
  | numberedTask
deriving Repr, DecidableEq

/-- The kind under a name; a plain list for a name that is unknown. -/
def Bullet.ofName (name : String) : Bullet :=
  if name = "numbered" then numbered
  else if name = "task" then task
  else if name = "numbered-task" then numberedTask
  else plain

def Bullet.mark (bullet : Bullet) (number : Nat) : String :=
  match bullet with
  | plain => "- "
  | numbered => Nat.repr number ++ ". "
  | task => "- [ ] "
  | numberedTask => Nat.repr number ++ ". [ ] "

/-- The lines of a list at a depth, where a number of its items came before. A nested list neither
takes a number nor begins the numbers anew. -/
def bulletLines (bullet : Bullet) (depth count : Nat) : List Value → List String
  | [] => []
  | .arr items :: rest =>
    bulletLines bullet (depth + 1) 0 items ++ bulletLines bullet depth count rest
  | v :: rest =>
    (String.ofList (List.replicate depth '\t') ++ bullet.mark (count + 1) ++ v.text) ::
      bulletLines bullet depth (count + 1) rest

/-- The items of an array as a list; a text that is no array is its only item. -/
def bullets (s : String) (param : Option String) : String :=
  joinWith "\n"
    (bulletLines (Bullet.ofName (Param.single param)) 0 0 ((itemsOf? s).getD [.str s]))

def listing : List Filter := [
  ofParam "list" bullets "Markdown list: list:numbered, list:task"]

end NoteTemplate.Filter
