import NoteTemplate.Text.Reference

/-!
Percent signs with two hexadecimal digits, which write the bytes of a text inside an address.
-/

namespace NoteTemplate.Text

def capitalHexDigit (n : Nat) : Char := if n < 10 then Char.ofNat (48 + n) else Char.ofNat (55 + n)

def utf8Bytes (cs : List Char) : List UInt8 := (String.ofList cs).toUTF8.toList

/-- The text that bytes in UTF-8 write, unless they write none. -/
def ofUtf8Bytes? (bytes : List UInt8) : Option (List Char) :=
  (String.fromUTF8? (ByteArray.mk bytes.toArray)).map String.toList

def percentByte (b : UInt8) : List Char :=
  ['%', capitalHexDigit (b.toNat / 16), capitalHexDigit (b.toNat % 16)]

/-- Whether a character can stand in an address as it is: a letter or digit of ASCII, or one of few
marks. -/
def isAddressChar (c : Char) : Bool :=
  isAsciiLetter c || isAsciiDigit c || "_.-~!*'()".toList.contains c

/-- A text for use in an address, all but a few characters behind percent signs. -/
def percentEncode (cs : List Char) : List Char :=
  cs.flatMap fun c => if isAddressChar c then [c] else (utf8Bytes [c]).flatMap percentByte

/-- The bytes that a text of ASCII characters writes; a percent sign without two hexadecimal digits
stands for itself. -/
def percentBytes : List Char → List UInt8
  | [] => []
  | '%' :: a :: b :: rest =>
    match hexDigitValue? a, hexDigitValue? b with
    | some high, some low => UInt8.ofNat (high * 16 + low) :: percentBytes rest
    | _, _ => UInt8.ofNat '%'.toNat :: percentBytes (a :: b :: rest)
  | c :: rest => UInt8.ofNat c.toNat :: percentBytes rest

def runsBy (p : Char → Bool) (cs : List Char) : List (List Char) :=
  cs.splitBy fun a b => p a == p b

/-- A text with percent signs resolved. There is none if bytes between other characters than those
of ASCII write no text. -/
def percentDecode? (cs : List Char) : Option (List Char) :=
  ((runsBy (fun c => c.toNat < 128) cs).mapM fun (run : List Char) =>
    if run.all (·.toNat < 128) then ofUtf8Bytes? (percentBytes run) else some run).map List.flatten

end NoteTemplate.Text
