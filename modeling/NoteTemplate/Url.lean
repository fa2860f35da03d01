import NoteTemplate.Text.Blank
import NoteTemplate.Text.Reference

/-!
Addresses of the web: their parts, and an address relative to another one.
-/

namespace NoteTemplate

open NoteTemplate.Text

/-- The parts of an address. A part that is missing is empty. -/
structure Url where
  scheme : List Char := []
  authority : List Char := []
  path : List Char := []
  /-- What follows a semicolon in the last step of the path. -/
  params : List Char := []
  query : List Char := []
  fragment : List Char := []
deriving Repr, DecidableEq

namespace Url

/-- The schemes whose addresses can be relative. No scheme is among them. -/
def relativeSchemes : List String := [
  "", "ftp", "http", "gopher", "nntp", "imap", "wais", "file", "https", "shttp", "mms", "prospero",
  "rtsp", "rtsps", "rtspu", "sftp", "svn", "svn+ssh", "ws", "wss"]

def hostSchemes : List String := [
  "", "ftp", "http", "gopher", "nntp", "telnet", "imap", "wais", "file", "mms", "https", "shttp",
  "snews", "prospero", "rtsp", "rtsps", "rtspu", "rsync", "svn", "svn+ssh", "sftp", "nfs", "git",
  "git+ssh", "ws", "wss"]

def paramSchemes : List String := [
  "", "ftp", "hdl", "prospero", "http", "imap", "https", "shttp", "rtsp", "rtsps", "rtspu", "sip",
  "sips", "mms", "sftp", "tel"]

def isIn (scheme : List Char) (schemes : List String) : Bool :=
  schemes.contains (String.ofList scheme)

def isSchemeChar (c : Char) : Bool :=
  isAsciiLetter c || isAsciiDigit c || c == '+' || c == '-' || c == '.'

/-- The scheme at the front of an address in small letters, and what follows its colon. -/
def cutScheme? (cs : List Char) : Option (List Char × List Char) :=
  match cutAtChar? ':' cs with
  | some (name, rest) =>
    match name with
    | c :: _ =>
      if isAsciiLetter c && name.all isSchemeChar then some (name.map Char.toLower, rest) else none
    | [] => none
  | none => none

/-- The groups that an address of the sixth version of the protocol writes as a dotted quadruple. -/
def isDottedQuad (cs : List Char) : Bool :=
  let parts := splitOnChar '.' cs
  parts.length == 4 && parts.all fun part =>
    part ≠ [] && part.all isAsciiDigit && part.length ≤ 3 && digitsValue part ≤ 255 &&
      (part.length == 1 || part.head? ≠ some '0')

/-- Whether a text is one group of an address: at most four hexadecimal digits. -/
def isHextet (cs : List Char) : Bool := cs ≠ [] && cs.length ≤ 4 && cs.all isHexDigit

/-- Whether the groups of an address are complete: eight of them, or fewer with one gap of at least
one group between two of them or at an end. -/
def areHextets (parts : List (List Char)) : Bool :=
  let inner := (parts.drop 1).dropLast
  match (inner.filter (· = [])).length with
  | 0 => parts.length == 8 && parts.all isHextet
  | 1 =>
    let gap := inner.takeWhile (· ≠ []) |>.length
    let front := parts.take (gap + 1)
    let back := parts.drop (gap + 2)
    let front := if front.head? = some [] then front.drop 1 else front
    let back := if back.getLast? = some [] then back.dropLast else back
    (parts.head? ≠ some [] || front = []) && (parts.getLast? ≠ some [] || back = []) &&
      front.length + back.length < 8 && front.all isHextet && back.all isHextet
  | _ => false

/-- Whether a text is an address of the sixth version of the protocol. -/
def isIpv6 (cs : List Char) : Bool :=
  let (address, zoned) := match cutAtChar? '%' cs with
    | some (address, zone) => (address, zone ≠ [] && !zone.contains '%')
    | none => (cs, true)
  let parts := splitOnChar ':' address
  let last := parts.getLast?.getD []
  let quad := last.contains '.'
  let parts' := if quad then parts.dropLast ++ [['0'], ['0']] else parts
  zoned && 3 ≤ parts.length && (!quad || isDottedQuad last) && parts'.length ≤ 9 && areHextets parts'

/-- Whether a text is an address of a later version: its number, a point and anything. -/
def isFutureIp (cs : List Char) : Bool :=
  match cutAtChar? '.' (cs.drop 1) with
  | some (version, rest) =>
    version ≠ [] && version.all isHexDigit && rest ≠ [] && !rest.contains '\n'
  | none => false

def isBracketedHost (cs : List Char) : Bool :=
  if cs.head? = some 'v' then isFutureIp cs else isIpv6 cs

/-- Characters that look like one of the marks between the parts of an address. -/
def markLookalikes : List Nat := [
  0x2047, 0x2048, 0x2049, 0x2100, 0x2101, 0x2105, 0x2106, 0x2A74, 0xFE13, 0xFE16, 0xFE55, 0xFE56,
  0xFE5F, 0xFE6B, 0xFF03, 0xFF0F, 0xFF1A, 0xFF1F, 0xFF20]

def isAuthority (cs : List Char) : Bool :=
  let brackets := match cutAtChar? '[' cs with
    | some (_, rest) => cs.contains ']' && isBracketedHost (rest.takeWhile (· ≠ ']'))
    | none => !cs.contains ']'
  brackets && cs.all fun c => !markLookalikes.contains c.toNat

/-- A text before and after a character; nothing after it when it is missing. -/
def cutOff (mark : Char) (cs : List Char) : List Char × List Char :=
  (cutAtChar? mark cs).getD (cs, [])

def cutParams (path : List Char) : List Char × List Char :=
  let back := path.reverse
  let file := (back.takeWhile (· ≠ '/')).reverse
  let folder := (back.dropWhile (· ≠ '/')).reverse
  match cutAtChar? ';' file with
  | some (name, params) => (folder ++ name, params)
  | none => (path, [])

/-- The parts of an address, where a scheme is given for one without. An authority that is not well
formed makes it no address. -/
def ofChars? (scheme : List Char) (cs : List Char) : Option Url :=
  let cs := (trimStartBy (·.toNat ≤ 32) cs).filter fun c => c ≠ '\t' && c ≠ '\r' && c ≠ '\n'
  let (scheme, rest) := (cutScheme? cs).getD (scheme, cs)
  let (authority, rest) := match rest with
    | '/' :: '/' :: rest =>
      let isEnd (c : Char) : Bool := c == '/' || c == '?' || c == '#'
      (rest.takeWhile fun c => !isEnd c, rest.dropWhile fun c => !isEnd c)
    | rest => ([], rest)
  let (rest, fragment) := cutOff '#' rest
  let (path, query) := cutOff '?' rest
  let (path, params) := if isIn scheme paramSchemes then cutParams path else (path, [])
  if isAuthority authority then some ⟨scheme, authority, path, params, query, fragment⟩ else none

def toChars (u : Url) : List Char :=
  let path := if u.params = [] then u.path else u.path ++ ';' :: u.params
  let path :=
    if u.authority ≠ [] || (u.scheme ≠ [] && isIn u.scheme hostSchemes) ||
        startsWith ['/', '/'] path then
      ['/', '/'] ++ u.authority ++ (if path ≠ [] && path.head? ≠ some '/' then '/' :: path else path)
    else path
  (if u.scheme = [] then path else u.scheme ++ ':' :: path) ++
    (if u.query = [] then [] else '?' :: u.query) ++
    (if u.fragment = [] then [] else '#' :: u.fragment)

/-- The steps of a path without the steps that lead nowhere or back. -/
def resolveSteps (steps : List (List Char)) : List (List Char) :=
  let done := steps.foldl (fun done step =>
    if step = ['.', '.'] then done.dropLast
    else if step = ['.'] then done
    else done ++ [step]) []
  match steps.getLast? with
  | some last => if last = ['.', '.'] || last = ['.'] then done ++ [[]] else done
  | none => done

def joinPath (base path : List Char) : List Char :=
  let own := splitOnChar '/' path
  let steps :=
    if path.head? = some '/' then own
    else
      let folder := splitOnChar '/' base
      let folder := if folder.getLast? = some [] then folder else folder.dropLast
      let steps := folder ++ own
      if steps.length ≤ 1 then steps
      else steps.take 1 ++ ((steps.drop 1).dropLast.filter (· ≠ [])) ++ (steps.getLast?.toList)
  let joined := List.intercalate ['/'] (resolveSteps steps)
  if joined = [] then ['/'] else joined

/-- An address as seen from a base address. There is none if one of them is not well formed. -/
def join? (base cs : List Char) : Option (List Char) := do
  if base = [] then return cs
  if cs = [] then return base
  let b ← ofChars? [] base
  let u ← ofChars? b.scheme cs
  if u.scheme ≠ b.scheme || !isIn u.scheme relativeSchemes then return cs
  let hosts := isIn u.scheme hostSchemes
  if hosts && u.authority ≠ [] then return toChars u
  let u := if hosts then { u with authority := b.authority } else u
  if u.path = [] && u.params = [] then
    return toChars { u with
      path := b.path, params := b.params, query := if u.query = [] then b.query else u.query }
  return toChars { u with path := joinPath b.path u.path }

end Url

end NoteTemplate
