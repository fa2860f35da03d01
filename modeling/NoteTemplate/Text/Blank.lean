/-!
Blank characters, and cutting them off the ends of a text.
-/

namespace NoteTemplate.Text

/-- The characters that count as space between words: the ASCII blanks, the four information
separators, and the spaces and line separators of Unicode. -/
def isBlank (c : Char) : Bool :=
  let n := c.toNat
  (9 ≤ n && n ≤ 13) || (28 ≤ n && n ≤ 32) || n == 0x85 || n == 0xA0 || n == 0x1680 ||
    (0x2000 ≤ n && n ≤ 0x200A) || n == 0x2028 || n == 0x2029 || n == 0x202F || n == 0x205F ||
    n == 0x3000

/-- Drop the leading characters of a class. -/
def trimStartBy (p : Char → Bool) (cs : List Char) : List Char := cs.dropWhile p

/-- Drop the trailing characters of a class. -/
def trimEndBy (p : Char → Bool) (cs : List Char) : List Char := (cs.reverse.dropWhile p).reverse

/-- Drop the characters of a class from both ends. -/
def trimBy (p : Char → Bool) (cs : List Char) : List Char := trimEndBy p (trimStartBy p cs)

def trimStart (cs : List Char) : List Char := trimStartBy isBlank cs

def trimEnd (cs : List Char) : List Char := trimEndBy isBlank cs

/-- Drop the blanks at both ends. -/
def trim (cs : List Char) : List Char := trimBy isBlank cs

/-- The text without the blanks at its ends. -/
def strip (s : String) : String := String.ofList (trim s.toList)

def isBlankText (s : String) : Bool := s.toList.all isBlank

/-- The words of a text: its maximal runs without blanks. -/
def words (cs : List Char) : List (List Char) :=
  (cs.foldr step [[]]).filter (· ≠ [])
where
  /-- A blank closes the word that follows it, any other character extends that word. -/
  step (c : Char) : List (List Char) → List (List Char)
    | [] => if isBlank c then [[]] else [[c]]
    | word :: rest => if isBlank c then [] :: word :: rest else (c :: word) :: rest

end NoteTemplate.Text
