/-!
Faults: inputs that the template language has no answer for, which end the whole operation.
-/

namespace NoteTemplate

/-- What stops an operation. -/
inductive Fault where
  /-- A comparison met an integer beyond the largest floating-point number. -/
  | integerTooLarge
  /-- An infinite number was taken for an integer. -/
  | infiniteInteger
  /-- An integer has too many digits to be written. -/
  | integerTooLong
  /-- So many digits were to be read as an integer that they are too many. -/
  | numeralTooLong (digits : Nat)
  /-- A text was to be read as an integer and writes none. -/
  | notAnInteger (text : String)
  /-- A name was compared with a variable key that is no text but of another kind. -/
  | keyNotText (kind : String)
  /-- A digit begins a number in an expression but writes none. -/
  | strayDigit
  /-- A body was asked for that no tag ends. -/
  | unclosedBody
  /-- A name was read as a selector that is none. -/
  | notASelector (name : String)
  /-- Expressions inside of expressions leave no room for one more. -/
  | nestedTooDeeply
deriving Repr, DecidableEq

/-- A text in single quotes as a message shows it, which is not in full if it is long. -/
def quotedShort (text : String) : String :=
  String.ofList (("'" ++ text ++ "'").toList.take 200)

/-- The message of a fault; a stray digit has none. -/
def Fault.message : Fault → String
  | integerTooLarge => "int too large to convert to float"
  | infiniteInteger => "cannot convert float infinity to integer"
  | integerTooLong =>
    "Exceeds the limit (4300 digits) for integer string conversion; " ++
      "use sys.set_int_max_str_digits() to increase the limit"
  | numeralTooLong digits =>
    "Exceeds the limit (4300 digits) for integer string conversion: value has " ++
      Nat.repr digits ++ " digits; use sys.set_int_max_str_digits() to increase the limit"
  | notAnInteger text => "invalid literal for int() with base 10: " ++ quotedShort text
  | keyNotText kind => "'" ++ kind ++ "' object has no attribute 'startswith'"
  | strayDigit => ""
  | unclosedBody => "list index out of range"
  | notASelector name => "Not a selector variable: " ++ name
  | nestedTooDeeply => "maximum recursion depth exceeded"

end NoteTemplate
