import NoteTemplate.Text.Search
import NoteTemplate.Text.Digit
import NoteTemplate.Value.Notation

/-!
Reading a command line by a grammar: options, which may be abbreviated, in between arguments that
stand alone. Two hyphens end the options.
-/

namespace NoteTemplate.Command

/-- An option, known by names. -/
structure Flag where
  names : List String
  takesValue : Bool := false
  /-- Whether nothing behind the option is read. -/
  stops : Bool := false
deriving Repr, DecidableEq

/-- What the command line of a program may hold: options, and arguments that must stand alone. -/
structure Grammar where
  program : String
  flags : List Flag
  arguments : List String := []
  /-- Whether the first argument takes along all words behind it. -/
  takesRest : Bool := false
deriving Repr, DecidableEq

/-- What is wrong with a command line. -/
structure UsageError where
  program : String
  message : String
deriving Repr, DecidableEq

def UsageError.line (e : UsageError) : String := e.program ++ ": error: " ++ e.message

def Flag.title (flag : Flag) : String := Text.joinWith "/" flag.names

/-- The message about a value of an option. -/
def Flag.fault (flag : Flag) (message : String) : String :=
  "argument " ++ flag.title ++ ": " ++ message

/-- The message about a value that an option does not take. -/
def Flag.refuses (flag : Flag) (v : String) : String :=
  flag.fault ("ignored explicit argument " ++ Value.notatedText v)

/-- A word of a command line. -/
inductive Word where
  | plain (s : String)
  /-- Two hyphens, behind which no options follow. -/
  | separator
  /-- An option, with the value that is written into the same word. -/
  | option (flag : Flag) (v : Option String) (written : String)
  /-- What looks like an option but is none. -/
  | unknown (written : String)
deriving Repr, DecidableEq

def Word.written : Word → String
  | plain s => s
  | separator => "--"
  | option _ _ written => written
  | unknown written => written

namespace Word

def isNegative (cs : List Char) : Bool :=
  match cs with
  | '-' :: rest =>
    let digits := rest.takeWhile Text.isDecimalDigit
    match rest.drop digits.length with
    | [] => !digits.isEmpty
    | '.' :: fraction => !fraction.isEmpty && fraction.all Text.isDecimalDigit
    | _ => false
  | _ => false

/-- The options with their names, in order. -/
def named (flags : List Flag) : List (String × Flag) :=
  flags.flatMap fun flag => flag.names.map fun name => (name, flag)

def find? (flags : List Flag) (name : String) : Option Flag := (named flags).lookup name

def cutValue? (s : String) : Option (String × String) :=
  (Text.cutAtChar? '=' s.toList).map fun (name, v) => (String.ofList name, String.ofList v)

/-- The options that a word may abbreviate, with their names. A short option may be followed by its
value at once. -/
def candidates (flags : List Flag) (s : String) : List (String × Word) :=
  match s.toList with
  | '-' :: '-' :: _ =>
    let (start, v) := match cutValue? s with
      | some (start, v) => (start, some v)
      | none => (s, none)
    (named flags).filterMap fun (name, flag) =>
      if Text.startsWith start.toList name.toList then some (name, option flag v s) else none
  | cs =>
    (named flags).filterMap fun (name, flag) =>
      if name.toList = cs.take 2 then some (name, option flag (some (String.ofList (cs.drop 2))) s)
      else if Text.startsWith cs name.toList then some (name, option flag none s)
      else none

def full? (flags : List Flag) (s : String) : Option Word :=
  match find? flags s with
  | some flag => some (option flag none s)
  | none =>
    if s.length = 1 then none
    else (cutValue? s).bind fun (name, v) =>
      (find? flags name).map fun flag => option flag (some v) s

/-- The kind of a word, or a message about it. -/
def read (flags : List Flag) (s : String) : Except String Word :=
  if !Text.startsWith ['-'] s.toList then .ok (plain s)
  else match full? flags s with
    | some word => .ok word
    | none =>
      if s.length = 1 then .ok (plain s)
      else match candidates flags s with
        | [(_, word)] => .ok word
        | [] =>
          if isNegative s.toList || s.toList.contains ' ' then .ok (plain s)
          else .ok (unknown s)
        | several =>
          .error ("ambiguous option: " ++ s ++ " could match " ++
            Text.joinWith ", " (several.map (·.1)))

/-- The kinds of all words, or a message about the first that has none. -/
def readAll (flags : List Flag) : List String → Except String (List Word)
  | [] => .ok []
  | s :: rest =>
    if s = "--" then .ok (separator :: rest.map plain)
    else do
      let word ← read flags s
      let rest ← readAll flags rest
      return word :: rest

def isOption : Word → Bool
  | option _ _ _ => true
  | unknown _ => true
  | _ => false

end Word

/-- What a command line holds: options with their values in order, arguments that stand alone, and
words that belong to nothing. -/
structure Reading where
  options : List (Flag × Option String) := []
  arguments : List String := []
  extras : List String := []
deriving Repr, DecidableEq

namespace Reading

def addOption (r : Reading) (flag : Flag) (v : Option String) : Reading :=
  { r with options := (flag, v) :: r.options }

/-- The options in a word of short ones behind the first, none of which takes a value. -/
def shorts (flags : List Flag) (first : Flag) (cs : List Char) : Except String (List Flag) :=
  match cs with
  | [] => .ok []
  | c :: rest =>
    match Word.find? flags (String.ofList ['-', c]) with
    | some flag => do
      let others ← shorts flags flag rest
      return flag :: others
    | none => .error (first.refuses (String.ofList (c :: rest)))

/-- Takes the words of one argument that stands alone from the front: a word, and the separator on
either side of it. -/
def takeArgument? : List Word → Option (String × List Word)
  | .plain s :: .separator :: rest => some (s, rest)
  | .plain s :: rest => some (s, rest)
  | .separator :: .plain s :: rest => some (s, rest)
  | _ => none

/-- Reads words by a grammar, of which the given arguments are still missing. -/
def ofWords (g : Grammar) : Nat → List String → List Word → Except String Reading
  | 0, _, words => .ok { extras := words.map Word.written }
  | _, _, [] => .ok {}
  | fuel + 1, missing, .option flag v written :: rest =>
    if flag.stops then .ok { options := [(flag, none)] }
    else match v with
    | some v =>
      if flag.takesValue then do
        let r ← ofWords g fuel missing rest
        return r.addOption flag (some v)
      else if v = "" || Text.startsWith ['-', '-'] written.toList then .error (flag.refuses v)
      else do
        let others ← shorts g.flags flag v.toList
        let r ← ofWords g fuel missing rest
        return (flag :: others).foldr (fun f r => r.addOption f none) r
    | none =>
      if flag.takesValue then
        match rest with
        | .plain v :: rest => do
          let r ← ofWords g fuel missing rest
          return r.addOption flag (some v)
        | _ => .error (flag.fault "expected one argument")
      else do
        let r ← ofWords g fuel missing rest
        return r.addOption flag none
  | fuel + 1, missing, .unknown written :: rest => do
    let r ← ofWords g fuel missing rest
    return { r with extras := written :: r.extras }
  | fuel + 1, missing, words =>
    match missing, takeArgument? words with
    | _ :: missing, some (s, rest) =>
      if g.takesRest then .ok { arguments := words.map Word.written }
      else do
        let r ← ofWords g fuel missing rest
        return { r with arguments := s :: r.arguments }
    | _, _ => do
      let loose := words.takeWhile (!·.isOption)
      let r ← ofWords g fuel missing (words.drop loose.length)
      return { r with extras := loose.map Word.written ++ r.extras }

/-- The value of an option; of several the last counts. -/
def value? (r : Reading) (name : String) : Option String :=
  (r.options.reverse.find? fun (flag, _) => flag.names.contains name).bind (·.2)

def values (r : Reading) (name : String) : List String :=
  r.options.filterMap fun (flag, v) => if flag.names.contains name then v else none

def has (r : Reading) (name : String) : Bool :=
  r.options.any fun (flag, _) => flag.names.contains name

/-- Whether an option was given behind which nothing was read. -/
def stopped (r : Reading) : Bool := r.options.any fun (flag, _) => flag.stops

end Reading

namespace Grammar

/-- What is wrong with a command line of this grammar. -/
def error (g : Grammar) (message : String) : UsageError := ⟨g.program, message⟩

/-- What is wrong when arguments are missing. -/
def lacks (g : Grammar) (names : List String) : UsageError :=
  g.error ("the following arguments are required: " ++ Text.joinWith ", " names)

def read (g : Grammar) (words : List String) : Except UsageError Reading := do
  let words ← (Word.readAll g.flags words).mapError g.error
  let r ← (Reading.ofWords g (words.length + 1) g.arguments words).mapError g.error
  match g.arguments.drop r.arguments.length with
  | [] => return r
  | missing => if r.stopped then return r else throw (g.lacks missing)

end Grammar

end NoteTemplate.Command
