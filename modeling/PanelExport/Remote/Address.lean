import PanelExport.Remote.Host
import PanelExport.Remote.Name
import PanelExport.Text.Base64
import PanelExport.Text.CharClass
import PanelExport.Text.Percent
import PanelExport.Text.Utf8

/-!
# Addresses

An address has a scheme, a host with what belongs to it, a path, a query and a fragment, and most of
them may be missing. It is kept in its normal form: small letters where case does not matter, no
points between the slashes of the path, and what may not stand as it is written as bytes.

* `Address.dropPoints_of_plain`: parts that are no points are kept.
-/

namespace PanelExport

/-- An address in its normal form. -/
structure Address where
  scheme : String
  /-- Who asks, with a password behind a colon; empty if nobody is named. -/
  user : String
  host : String
  portNumber? : Option Int
  path : String
  query? : Option String
  fragment? : Option String

/-- Why a text is no address. -/
inductive AddressFault where
  | tooLong
  | control (c : Char) (pos : Nat)
  | quad (host : String)
  | groups (host : String)
  | name (host : String)
  | portNumber (text : String)
  /-- Without a host and a scheme the path starts with two slashes. -/
  | slashes
  /-- Without a host and a scheme the path starts with a colon. -/
  | colon
  deriving DecidableEq

/-- The wording of a fault. -/
def AddressFault.message : AddressFault → String
  | .tooLong => "URL too long"
  | .control c pos =>
    "Invalid non-printable ASCII character in URL, " ++ quoted (String.singleton c) ++
      " at position " ++ toString pos ++ "."
  | .quad host => "Invalid IPv4 address: " ++ quoted host
  | .groups host => "Invalid IPv6 address: " ++ quoted host
  | .name host => "Invalid IDNA hostname: " ++ quoted host
  | .portNumber text => "Invalid port: " ++ quoted text
  | .slashes => "Relative URLs cannot have a path starting with '//'"
  | .colon => "Relative URLs cannot have a path starting with ':'"

namespace Address

/-! ## What stands for itself -/

/-- A printable character of the basic ones that is not among some others. -/
def isPlainBut (others : String) (c : Char) : Bool :=
  ' ' < c && c ≤ '~' && !others.toList.contains c

/-- A character that stands for itself in a path. -/
def isPathChar : Char → Bool := isPlainBut "\"#<>?`\x7b\x7d"

/-- A character that stands for itself in a query. -/
def isQueryChar : Char → Bool := isPlainBut "\"#<>"

/-- A character that stands for itself in a fragment. -/
def isFragmentChar : Char → Bool := isPlainBut "\"<>`"

/-- A character that stands for itself in the name of a user. -/
def isUserChar : Char → Bool := isPlainBut "\"#<>?`\x7b\x7d/;=@[\\]^|"

/-- A character that stands for itself in the name of a host. -/
def isHostChar (c : Char) : Bool :=
  isUnreserved c || "!$&'()*+,;=\"`\x7b\x7d%|\\".toList.contains c

/-! ## Reading -/

/-- The scheme in front of a colon, and what follows it. -/
def spanScheme (cs : List Char) : List Char × List Char :=
  match cs.span fun c => c.isAlphanum || c == '+' || c == '.' || c == '-' with
  | (name, ':' :: rest) => if name.head?.all Char.isAlpha then (name, rest) else ([], cs)
  | _ => ([], cs)

/-- What stands behind two slashes up to the path, and what follows it. -/
def spanAuthority : List Char → List Char × List Char
  | '/' :: '/' :: cs => cs.span fun c => c ≠ '/' && c ≠ '?' && c ≠ '#'
  | cs => ([], cs)

/-- The user in front of the last at sign, and what follows it. -/
def spanUser (cs : List Char) : List Char × List Char :=
  if cs.contains '@' then
    ((cs.reverse.dropWhile (· ≠ '@')).drop 1 |>.reverse, (cs.reverse.takeWhile (· ≠ '@')).reverse)
  else ([], cs)

/-- The host, in brackets or up to a colon, and what follows it. -/
def spanHost (cs : List Char) : List Char × List Char :=
  if cs.head? = some '[' ∧ cs.contains ']' then
    ((cs.reverse.dropWhile (· ≠ ']')).reverse, (cs.reverse.takeWhile (· ≠ ']')).reverse)
  else cs.span fun c => c ≠ ':' && c ≠ '@'

/-- A host in its normal form. -/
def readHost (cs : List Char) : Except AddressFault String :=
  let text := String.ofList cs
  if Host.looksQuad 3 false cs then if Host.isQuad cs then .ok text else .error (.quad text)
  else if 2 ≤ cs.length ∧ cs.head? = some '[' ∧ cs.getLast? = some ']' then
    let inner := (cs.drop 1).dropLast
    if Host.isGroups inner then .ok (String.ofList inner) else .error (.groups text)
  else if cs.all Punycode.isBasic then .ok (percentQuoted isHostChar text.toLower)
  else match Host.spelledName? cs with
    | some name => .ok (String.ofList name)
    | none => .error (.name text)

/-- The numbers that need not be named, by scheme. -/
def standardPortNumbers : List (String × Int) :=
  [("ftp", 21), ("http", 80), ("https", 443), ("ws", 80), ("wss", 443)]

/-- The number behind a host, unless it is the usual one of a scheme in small letters. -/
def readPortNumber (scheme : String) (cs : List Char) : Except AddressFault (Option Int) :=
  match cs with
  | [] => .ok none
  | _ =>
    match readInt? (trim (String.ofList cs)).toList with
    | none => .error (.portNumber (String.ofList cs))
    | some n => .ok (if standardPortNumbers.lookup scheme = some n then none else some n)

/-- The parts of a path between its slashes without the points among them: one point leads nowhere,
two lead back to the part before. -/
def dropPoints (kept : List (List Char)) : List (List Char) → List (List Char)
  | [] => kept
  | part :: parts =>
    if part = ['.'] then dropPoints kept parts
    else if part = ['.', '.'] then
      dropPoints (if kept = [] ∨ kept = [[]] then kept else kept.dropLast) parts
    else dropPoints (kept ++ [part]) parts

theorem dropPoints_of_plain (kept parts : List (List Char))
    (h : ∀ part ∈ parts, part ≠ ['.'] ∧ part ≠ ['.', '.']) :
    dropPoints kept parts = kept ++ parts := by
  induction parts generalizing kept with
  | nil => simp [dropPoints]
  | cons part parts ih =>
    have hp := h part (by simp)
    rw [dropPoints, if_neg hp.1, if_neg hp.2, ih _ fun p hm => h p (by simp [hm])]
    simp

/-- The path in its normal form. -/
def withoutPoints (path : List Char) : List Char :=
  ['/'].intercalate (dropPoints [] (path.splitOn '/'))

/-- What stands behind a mark, if the mark is there. -/
def behind? (mark : Char) : List Char → Option (List Char)
  | [] => none
  | c :: cs => if c = mark then some cs else none

/-- The longest text that is read as an address. -/
def lengthLimit : Nat := 65536

/-- A control character among the basic ones. -/
def isControl (c : Char) : Bool := c < ' ' || c = '\x7f'

/-- Why the characters of a text make no address. -/
def charFault? (cs : List Char) : Option AddressFault :=
  if lengthLimit < cs.length then some .tooLong
  else (cs.find? isControl).map fun c => .control c (runLength (!isControl ·) cs)

/-- Why a path cannot stand without a scheme and a host. -/
def pathFault? : List Char → Option AddressFault
  | '/' :: '/' :: _ => some .slashes
  | ':' :: _ => some .colon
  | _ => none

/-- The address that a text is. -/
def ofText (text : String) : Except AddressFault Address := do
  if let some fault := charFault? text.toList then throw fault
  let (scheme, cs) := spanScheme text.toList
  let (authority, cs) := spanAuthority cs
  let (path, cs) := cs.span fun c => c ≠ '?' && c ≠ '#'
  let (query, cs) := cs.span (· ≠ '#')
  let (user, authority) := spanUser authority
  let (host, rest) := spanHost authority
  let host ← readHost host
  let portNumber? ← readPortNumber (String.ofList scheme) ((behind? ':' rest).getD rest)
  let isRelative := scheme.isEmpty && user.isEmpty && host = "" && portNumber?.isNone
  if isRelative then
    if let some fault := pathFault? path then throw fault
  let path := if isRelative then path else withoutPoints path
  return {
    scheme := (String.ofList scheme).toLower
    user := percentQuoted isUserChar (String.ofList user)
    host
    portNumber?
    path := percentQuoted isPathChar (String.ofList path)
    query? := (behind? '?' query).map fun q => percentQuoted isQueryChar (String.ofList q)
    fragment? := (behind? '#' cs).map fun f => percentQuoted isFragmentChar (String.ofList f) }

/-! ## Use -/

/-- The address says where to go. -/
def isAbsolute (a : Address) : Bool := a.scheme ≠ "" && a.host ≠ ""

/-- The address as a place at a server that is not named: only its path and its query are kept. -/
def asPlace (a : Address) : Address where
  scheme := ""
  user := ""
  host := ""
  portNumber? := none
  path := "/" ++ String.ofList (a.path.toList.dropWhile (· == '/'))
  query? := a.query?
  fragment? := none

/-- The host with what belongs to it. -/
def authority (a : Address) : String :=
  (if a.user = "" then "" else a.user ++ "@") ++
    (if a.host.toList.contains ':' then "[" ++ a.host ++ "]" else a.host) ++
    a.portNumber?.elim "" fun n => ":" ++ toString n

/-- The address as a text. -/
def text (a : Address) : String :=
  (if a.scheme = "" then "" else a.scheme ++ ":") ++
    (if a.authority = "" then "" else "//" ++ a.authority) ++ a.path ++
    a.query?.elim "" ("?" ++ ·) ++ a.fragment?.elim "" ("#" ++ ·)

/-- What tells the server who asks, if the address names someone. -/
def credentials? (a : Address) : Option String :=
  let name := a.user.toList.takeWhile (· ≠ ':')
  let password := (a.user.toList.dropWhile (· ≠ ':')).drop 1
  let spelled (cs : List Char) : List UInt8 := (Utf8.lossy (percentBytes cs)).toUTF8.toList
  if name.isEmpty && password.isEmpty then none
  else some ("Basic " ++ String.ofList (base64 (spelled name ++ [0x3A] ++ spelled password)))

end Address

end PanelExport
