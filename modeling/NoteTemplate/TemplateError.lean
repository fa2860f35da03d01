import NoteTemplate.Token

/-!
What can be wrong with the text of a template, and how it is reported.
-/

namespace NoteTemplate

/-- A mistake in a template. -/
inductive Mistake where
  | blocksTooDeep (limit : Nat)
  | tooDeep
  | strayTag (word : String)
  | unclosedBlock (closer opener : String)
  | unexpectedCharacter (c : String)
  | unclosedString (quote : String)
  | unexpectedEnd
  | unexpectedToken (value : String)
  | emptyVariable
  | severalWords
  | variableNotClosed
  | emptyTag
  | unknownTag (word : String)
  | tagNotClosed (word : String)
  | noCondition (word : String)
  | noIterator
  | noIn
  | noIterable
  | noTarget
  | noAssign
  | noValue
  | unbalancedBody
  | noFallback
  | noOperand (operator : String)
  | noFilterName
  | noArgument (separator : String)
  | parenNotClosed
  | bracketNotClosed
  | emptyBrackets
  | emptyParens
deriving Repr, DecidableEq

def tagText (word : String) : String := "\x7b% " ++ word ++ " %\x7d"

def Mistake.message : Mistake → String
  | blocksTooDeep limit =>
    "Template nested too deeply: more than " ++ Nat.repr limit ++ " levels of blocks"
  | tooDeep => "Template nested too deeply"
  | strayTag word => "Unexpected " ++ tagText word ++ " - no matching opening tag"
  | unclosedBlock closer opener => "Missing " ++ tagText closer ++ " to close " ++ tagText opener
  | unexpectedCharacter c => "Unexpected character '" ++ c ++ "' in template"
  | unclosedString quote => "Unclosed string - missing closing " ++ quote
  | unexpectedEnd => "Unexpected end of template"
  | unexpectedToken value => "Unexpected \"" ++ value ++ "\" in template"
  | emptyVariable => "Empty variable - add a variable name between \x7b\x7b and \x7d\x7d"
  | severalWords =>
    "Multiple words without quotes - if this is a prompt, wrap it in quotes: " ++
      "\x7b\x7b\"your prompt here\"\x7d\x7d"
  | variableNotClosed => "Missing closing \x7d\x7d"
  | emptyTag => "Empty tag - add a statement between \x7b% and %\x7d"
  | unknownTag word => "Unknown tag: " ++ tagText word
  | tagNotClosed word => "Missing %\x7d to close " ++ tagText word
  | noCondition word => tagText word ++ " requires a condition"
  | noIterator =>
    tagText "for" ++ " requires a variable name, e.g. " ++ tagText "for item in items"
  | noIn => tagText "for" ++ " requires \"in\" keyword, e.g. " ++ tagText "for item in items"
  | noIterable => tagText "for" ++ " requires something to loop over after \"in\""
  | noTarget => tagText "set" ++ " requires a variable name, e.g. " ++ tagText "set name = value"
  | noAssign => tagText "set" ++ " requires \"=\" after variable name"
  | noValue => tagText "set" ++ " requires a value after \"=\""
  | unbalancedBody => "Unbalanced block body"
  | noFallback => "Missing fallback value after ??"
  | noOperand operator => "Missing value after \"" ++ operator ++ "\""
  | noFilterName => "Missing filter name after |"
  | noArgument separator => "Missing filter argument after \"" ++ separator ++ "\""
  | parenNotClosed => "Missing closing )"
  | bracketNotClosed => "Missing closing ]"
  | emptyBrackets => "Empty brackets [] - add an index or key"
  | emptyParens => "Empty parentheses () - add an expression"

/-- A mistake and where it is. -/
structure TemplateError where
  mistake : Mistake
  line : Nat
  column : Nat
deriving Repr, DecidableEq

namespace TemplateError

def atToken (mistake : Mistake) (token : Token) : TemplateError :=
  ⟨mistake, token.position.line, token.position.column⟩

/-- The message without the place. -/
def message (e : TemplateError) : String := e.mistake.message

/-- The message with the place. -/
def text (e : TemplateError) : String :=
  e.message ++ " at " ++ Nat.repr e.line ++ ":" ++ Nat.repr e.column

end TemplateError

end NoteTemplate
