import NoteTemplate.Value.Basic
import NoteTemplate.Decimal.Reader
import NoteTemplate.Decimal.Shortest

/-!
Writing values as JSON text. All characters outside ASCII are written as they are; of the ASCII
range the quote, the backslash and the control characters are escaped. An integer with too many
digits has no text, and a value with one in it has none either: what is written here is the text of
values that are `writable`.
-/

namespace NoteTemplate.Value.Json

/-- The spacing between the parts of a JSON text. -/
structure Spacing where
  /-- Between two items. -/
  comma : String
  /-- Between a key and its value. -/
  colon : String

/-- No blanks at all. -/
def compact : Spacing := ⟨",", ":"⟩

/-- One blank behind each comma and colon. -/
def spaced : Spacing := ⟨", ", ": "⟩

/-- A digit of a hexadecimal number in lower case. -/
def hexDigit (n : Nat) : Char := if n < 10 then Char.ofNat (48 + n) else Char.ofNat (87 + n)

/-- The four hexadecimal digits of a number below `2 ^ 16`. -/
def hexQuad (n : Nat) : List Char :=
  [hexDigit (n / 4096 % 16), hexDigit (n / 256 % 16), hexDigit (n / 16 % 16), hexDigit (n % 16)]

/-- The written form of a character inside quotes. -/
def escapeChar (c : Char) : List Char :=
  if c = '"' then ['\\', '"']
  else if c = '\\' then ['\\', '\\']
  else if c = '\n' then ['\\', 'n']
  else if c = '\r' then ['\\', 'r']
  else if c = '\t' then ['\\', 't']
  else if c.toNat = 8 then ['\\', 'b']
  else if c.toNat = 12 then ['\\', 'f']
  else if c.toNat < 32 then '\\' :: 'u' :: hexQuad c.toNat
  else [c]

def quoted (cs : List Char) : List Char := '"' :: (cs.flatMap escapeChar ++ ['"'])

/-- A floating-point number; the numbers without digits have names. -/
def floatText (x : Float) : String := Decimal.render Decimal.plainLayout ⟨"NaN", "Infinity"⟩ x

/-- An integer in decimal. -/
def intText (n : Int) : String := if n < 0 then "-" ++ Nat.repr n.natAbs else Nat.repr n.natAbs

/-- Texts with a separator between neighbours. -/
def separated (sep : List Char) : List (List Char) → List Char
  | [] => []
  | [text] => text
  | text :: rest => text ++ sep ++ separated sep rest

mutual

/-- The JSON text of a value. -/
def write (spacing : Spacing) : Value → List Char
  | .null => "null".toList
  | .bool b => if b then "true".toList else "false".toList
  | .int n => (intText n).toList
  | .float x => (floatText x).toList
  | .str s => quoted s.toList
  | .arr items => '[' :: (separated spacing.comma.toList (writeItems spacing items) ++ [']'])
  | .obj fields =>
    '\x7b' :: (separated spacing.comma.toList (writeFields spacing fields) ++ ['\x7d'])

/-- The texts of the items of an array. -/
def writeItems (spacing : Spacing) : List Value → List (List Char)
  | [] => []
  | item :: rest => write spacing item :: writeItems spacing rest

/-- The texts of the fields of an object. -/
def writeFields (spacing : Spacing) : List (String × Value) → List (List Char)
  | [] => []
  | (key, entry) :: rest =>
    (quoted key.toList ++ spacing.colon.toList ++ write spacing entry) :: writeFields spacing rest

end

/-- A line break and the indentation of a level. -/
def newLine (depth : Nat) : List Char := '\n' :: List.replicate (2 * depth) ' '

mutual

/-- The JSON text of a value over several lines, each level indented by two more blanks. -/
def writeIndented (depth : Nat) : Value → List Char
  | .arr [] => "[]".toList
  | .arr (item :: rest) =>
    '[' :: (separated [','] (indentItems (depth + 1) (item :: rest)) ++ newLine depth ++ [']'])
  | .obj [] => ['\x7b', '\x7d']
  | .obj (field :: rest) =>
    '\x7b' ::
      (separated [','] (indentFields (depth + 1) (field :: rest)) ++ newLine depth ++ ['\x7d'])
  | .null => write compact .null
  | .bool b => write compact (.bool b)
  | .int n => write compact (.int n)
  | .float x => write compact (.float x)
  | .str s => write compact (.str s)

/-- The items of an array, each on lines of its own. -/
def indentItems (depth : Nat) : List Value → List (List Char)
  | [] => []
  | item :: rest => (newLine depth ++ writeIndented depth item) :: indentItems depth rest

/-- The fields of an object, each on lines of its own. -/
def indentFields (depth : Nat) : List (String × Value) → List (List Char)
  | [] => []
  | (key, entry) :: rest =>
    (newLine depth ++ quoted key.toList ++ ": ".toList ++ writeIndented depth entry) ::
      indentFields depth rest

end

end NoteTemplate.Value.Json

namespace NoteTemplate.Value

mutual

/-- Whether all integers of a value have few enough digits to be written. -/
def writable : Value → Bool
  | null => true
  | bool _ => true
  | int n => n.natAbs < Decimal.digitLimit
  | float _ => true
  | str _ => true
  | arr items => itemsWritable items
  | obj fields => fieldsWritable fields

/-- Whether all items of an array can be written. -/
def itemsWritable : List Value → Bool
  | [] => true
  | item :: rest => writable item && itemsWritable rest

/-- Whether all fields of an object can be written. -/
def fieldsWritable : List (String × Value) → Bool
  | [] => true
  | (_, entry) :: rest => writable entry && fieldsWritable rest

end

theorem itemsWritable_iff {items : List Value} :
    itemsWritable items = true ↔ ∀ item ∈ items, item.writable = true := by
  induction items with
  | nil => simp [itemsWritable]
  | cons item rest ih => simp [itemsWritable, ih]

theorem fieldsWritable_iff {fields : List (String × Value)} :
    fieldsWritable fields = true ↔ ∀ field ∈ fields, field.2.writable = true := by
  induction fields with
  | nil => simp [fieldsWritable]
  | cons field rest ih => simp [fieldsWritable, ih]

theorem writable_texts (texts : List String) : (arr (texts.map str)).writable = true :=
  itemsWritable_iff.mpr (List.forall_mem_map.mpr fun _ _ => rfl)

/-- The text of a value, if its integers can be written. -/
def ifWritable (v : Value) (text : String) : Except Fault String :=
  if v.writable then .ok text else .error .integerTooLong

/-- The compact JSON text of a value. -/
def toJson (v : Value) : String := String.ofList (Json.write Json.compact v)

/-- The JSON text of a value with blanks behind commas and colons. -/
def toSpacedJson (v : Value) : String := String.ofList (Json.write Json.spaced v)

/-- The JSON text of a value over several lines. -/
def toIndentedJson (v : Value) : String := String.ofList (Json.writeIndented 0 v)

end NoteTemplate.Value
