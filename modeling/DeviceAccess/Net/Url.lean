import DeviceAccess.Net.IpAddress

/-!
# Web addresses

A reader for absolute URLs.  The scheme decides the rest: `http`, `https`, `ws`, `wss` and
`ftp` need a host, `file` may have one, and any other scheme has either a host after `//`, a
path that starts with `/`, or an opaque path.  Paths are normalised: `.` and `..` segments are
resolved and characters that may not stand in a path are percent-encoded in UTF-8.

`Url.parse` reads a text, `Url.shown` writes the normal form, and `Url.filePath?` gives the
path of a local file.
-/

namespace DeviceAccess

/-- Why a text is not an absolute URL. -/
inductive UrlFault where
  | relativeWithoutBase
  | emptyHost
  | invalidPort
  | invalidIpv4
  | invalidIpv6
  | invalidDomainCharacter
  deriving DecidableEq, Repr

/-- The report of a fault. -/
def UrlFault.message : UrlFault → String
  | relativeWithoutBase => "relative URL without a base"
  | emptyHost => "empty host"
  | invalidPort => "invalid port number"
  | invalidIpv4 => "invalid IPv4 address"
  | invalidIpv6 => "invalid IPv6 address"
  | invalidDomainCharacter => "invalid domain character"

/-- The path of a URL. -/
inductive UrlPath where
  /-- A path of segments, as written after encoding. -/
  | rooted (text : String)
  /-- A path without structure. -/
  | unstructured (text : String)
  deriving DecidableEq, Repr

/-- The text of a path. -/
def UrlPath.text : UrlPath → String
  | rooted t => t
  | unstructured t => t

/-- An absolute URL in normal form. -/
structure Url where
  scheme : String
  userName : String
  password : Option String
  host : Option String
  port : Option Nat
  path : UrlPath
  query : Option String
  fragment : Option String
  deriving DecidableEq, Repr

namespace Url

/-! ### Percent-encoding -/

/-- A hexadecimal digit in capitals. -/
def hexDigit (n : Nat) : Char := "0123456789ABCDEF".toList.getD n '0'

/-- The UTF-8 bytes of a character, each percent-encoded. -/
def encodeChar (c : Char) : List Char :=
  (String.singleton c).toUTF8.toList.flatMap fun b =>
    ['%', hexDigit (b.toNat / 16), hexDigit (b.toNat % 16)]

/-- Encodes the characters outside printable ASCII and those of `reserved`. -/
def encode (reserved : List Char) (text : List Char) : List Char :=
  text.flatMap fun c =>
    if c.toNat < 32 || 126 < c.toNat || reserved.contains c then encodeChar c else [c]

/-- The characters that are encoded in fragments. -/
def fragmentReserved : List Char := [' ', '"', '<', '>', '\u0060']

/-- The characters that are encoded in paths. -/
def pathReserved : List Char := fragmentReserved ++ ['#', '?', '\x7b', '\x7d']

/-- The characters that are encoded in queries. -/
def queryReserved : List Char := [' ', '"', '#', '<', '>']

/-- The characters that are encoded in user names and passwords. -/
def userReserved : List Char :=
  pathReserved ++ ['/', ':', ';', '=', '@', '[', '\\', ']', '^', '|']

/-- Decodes percent-encoded bytes. -/
def decodeBytes : List UInt8 → List UInt8
  | 37 :: a :: b :: rest =>
    match IpAddress.hexValue? (Char.ofNat a.toNat), IpAddress.hexValue? (Char.ofNat b.toNat) with
    | some x, some y => UInt8.ofNat (x * 16 + y) :: decodeBytes rest
    | _, _ => 37 :: decodeBytes (a :: b :: rest)
  | b :: rest => b :: decodeBytes rest
  | [] => []

/-- Decodes a percent-encoded text; `none` if the bytes are not UTF-8. -/
def decode? (text : String) : Option String :=
  String.fromUTF8? (ByteArray.mk (decodeBytes text.toUTF8.toList).toArray)

/-! ### Hosts -/

/-- Reads a number of an IPv4 address in a URL: decimal, octal after `0`, or hexadecimal after
`0x`. -/
def ipv4Number? (text : List Char) : Option Nat :=
  let (base, digits) := match text with
    | '0' :: 'x' :: rest => (16, rest)
    | '0' :: 'X' :: rest => (16, rest)
    | '0' :: d :: rest => (8, d :: rest)
    | rest => (10, rest)
  if text.isEmpty then none
  else digits.foldlM (fun n c => do
    let d ← IpAddress.hexValue? c
    if d < base then some (n * base + d) else none) 0

/-- The labels of a host name; an empty last one is left out. -/
def labels (host : List Char) : List (List Char) :=
  let parts := IpAddress.splitOn '.' host
  if 1 < parts.length && parts.getLast? = some [] then parts.dropLast else parts

/-- Whether a host is meant to be an IPv4 address: its last label is a number. -/
def endsInNumber (host : List Char) : Bool :=
  match (labels host).getLast? with
  | none => false
  | some last =>
    !last.isEmpty && (last.all Char.isDigit ||
      (match last with
        | '0' :: 'x' :: _ => (ipv4Number? last).isSome
        | '0' :: 'X' :: _ => (ipv4Number? last).isSome
        | _ => false))

/-- Reads an IPv4 address of one to four numbers, the last of which fills what is left. -/
def ipv4? (host : List Char) : Option String := do
  let parts := labels host
  if 4 < parts.length then none
  else
    let numbers ← parts.mapM ipv4Number?
    let last ← numbers.getLast?
    let front := numbers.dropLast
    if front.any (255 < ·) || Nat.pow 256 (5 - numbers.length) ≤ last then none
    else
      let value := last + ((List.range front.length).map fun i =>
        front.getD i 0 * Nat.pow 256 (3 - i)).foldl (· + ·) 0
      some (IpAddress.shownBytes
        [value / 16777216, value / 65536 % 256, value / 256 % 256, value % 256])

/-- The characters that may not stand in the host of a scheme without rules of its own. -/
def hostForbidden : List Char :=
  ['\x00', '\t', '\n', '\r', ' ', '#', '/', ':', '<', '>', '?', '@', '[', '\\', ']', '^', '|']

/-- Reads an IPv6 address between brackets. -/
def bracketed? (host : List Char) : Option (Except UrlFault String) :=
  match host with
  | '[' :: rest =>
    some <| match rest.reverse with
      | ']' :: inner =>
        match IpAddress.eightGroups? inner.reverse with
        | some groups => .ok ("[" ++ (IpAddress.v6 groups).shown ++ "]")
        | none => .error .invalidIpv6
      | _ => .error .invalidIpv6
  | _ => none

/-- Reads the host of a scheme that names hosts of the Internet. -/
def domain (host : List Char) : Except UrlFault String :=
  match bracketed? host with
  | some r => r
  | none =>
    match decode? (String.ofList host) with
    | none => .error .invalidDomainCharacter
    | some decoded =>
      let name := decoded.toList.map Char.toLower
      if name.isEmpty then .error .emptyHost
      else if name.any fun c => c.toNat < 32 || c.toNat = 127 || c = '%' || hostForbidden.contains c
        then .error .invalidDomainCharacter
      else if endsInNumber name then
        match ipv4? name with
        | some a => .ok a
        | none => .error .invalidIpv4
      else .ok (String.ofList name)

/-- Reads the host of any other scheme. -/
def opaqueHost (host : List Char) : Except UrlFault String :=
  match bracketed? host with
  | some r => r
  | none =>
    if host.any hostForbidden.contains then .error .invalidDomainCharacter
    else .ok (String.ofList (encode [] host))

/-! ### Paths -/

/-- Whether a segment names the directory itself. -/
def isSingleDot (segment : String) : Bool := [".", "%2e", "%2E"].contains segment

/-- Whether a segment names the directory above. -/
def isDoubleDot (segment : String) : Bool :=
  ["..", "%2e%2e", "%2e%2E", "%2E%2e", "%2E%2E", "%2e.", "%2E.", ".%2e", ".%2E"].contains segment

/-- Whether a segment is a drive letter. -/
def isDrive (segment : String) : Bool :=
  match segment.toList with
  | [c, d] => c.isAlpha && (d = ':' || d = '|')
  | _ => false

/-- Resolves the segments that are still to come against those already there, last first. -/
def resolve (isFile : Bool) (done : List String) : List String → List String
  | [] => done.reverse
  | segment :: rest =>
    let isLast := rest.isEmpty
    if isDoubleDot segment then
      let kept := match done with
        | [only] => if isFile && isDrive only then [only] else []
        | _ :: above => above
        | [] => []
      resolve isFile (if isLast then "" :: kept else kept) rest
    else if isSingleDot segment then
      resolve isFile (if isLast then "" :: done else done) rest
    else if isFile && done.isEmpty && isDrive segment then
      resolve isFile [String.ofList (segment.toList.take 1) ++ ":"] rest
    else resolve isFile (segment :: done) rest

/-- The segments of a path text; a backslash separates too where `special`. -/
def segments (special : Bool) (text : List Char) : List String :=
  (IpAddress.splitOn '/' (text.map fun c => if special && c = '\\' then '/' else c)).map
    fun s => String.ofList (encode pathReserved s)

/-- The normal form of a path, which is given without its leading slash. -/
def rootedPath (special isFile : Bool) (text : List Char) : String :=
  let joined := "/".intercalate (resolve isFile [] (segments special text))
  if isFile then "/" ++ String.ofList (joined.toList.dropWhile (· = '/')) else "/" ++ joined

/-! ### The parts of a URL -/

/-- Splits a text before the first character that satisfies `p`. -/
def splitBefore (p : Char → Bool) (text : List Char) : List Char × List Char :=
  (text.takeWhile (!p ·), text.dropWhile (!p ·))

/-- The query and the fragment that a text is, if any. -/
def queryAndFragment (special : Bool) (text : List Char) : Option String × Option String :=
  let (front, back) := splitBefore (· = '#') text
  let fragment := match back with
    | _ :: f => some (String.ofList (encode fragmentReserved f))
    | [] => none
  let query := match front with
    | '?' :: q =>
      some (String.ofList (encode (if special then '\'' :: queryReserved else queryReserved) q))
    | _ => none
  (query, fragment)

/-- The schemes that name hosts of the Internet, with their ports. -/
def internetSchemes : List (String × Nat) :=
  [("http", 80), ("https", 443), ("ws", 80), ("wss", 443), ("ftp", 21)]

/-- Splits a text at its last `@`. -/
def splitAtLastAt (text : List Char) : Option (List Char × List Char) :=
  match splitBefore (· = '@') text.reverse with
  | (_, []) => none
  | (back, _ :: front) => some (front.reverse, back.reverse)

/-- Splits off the port: what follows the last `:` outside brackets. -/
def splitPort (text : List Char) : List Char × Option (List Char) :=
  match splitBefore (· = ':') text.reverse with
  | (back, _ :: front) =>
    if back.contains ']' then (text, none) else (front.reverse, some back.reverse)
  | (_, []) => (text, none)

/-- Reads a port; no digits mean the scheme's own, and so does its number. -/
def readPort (scheme : String) : Option (List Char) → Except UrlFault (Option Nat)
  | none => .ok none
  | some digits =>
    if !digits.all Char.isDigit then .error .invalidPort
    else if digits.isEmpty then .ok none
    else
      let n := digits.foldl (fun n c => n * 10 + (c.toNat - '0'.toNat)) 0
      if 65535 < n then .error .invalidPort
      else if internetSchemes.lookup scheme = some n then .ok none
      else .ok (some n)

/-- Reads what follows `//`. -/
def withAuthority (scheme : String) (special : Bool) (text : List Char) :
    Except UrlFault Url := do
  let ends := fun c => c = '/' || c = '?' || c = '#' || (special && c = '\\')
  let (authority, rest) := splitBefore ends text
  let (user, hostPort) := match splitAtLastAt authority with
    | some (u, h) => (some u, h)
    | none => (none, authority)
  let (userName, password) := match user with
    | none => ("", none)
    | some u =>
      match splitBefore (· = ':') u with
      | (name, _ :: secret) =>
        (String.ofList (encode userReserved name),
          if secret.isEmpty then none else some (String.ofList (encode userReserved secret)))
      | (name, []) => (String.ofList (encode userReserved name), none)
  let (hostText, portText) := splitPort hostPort
  if special && hostText.isEmpty then throw .emptyHost
  if !special && hostText.isEmpty && (user.isSome || portText.isSome) then throw .emptyHost
  let host ← if special then domain hostText else opaqueHost hostText
  let port ← readPort scheme portText
  let (pathText, tail) := splitBefore (fun c => c = '?' || c = '#') rest
  let (query, fragment) := queryAndFragment special tail
  let path := match pathText with
    | _ :: p => rootedPath special false p
    | [] => if special then "/" else ""
  return ⟨scheme, userName, password, some host, port, .rooted path, query, fragment⟩

/-- Reads what follows `file:`. -/
def file (text : List Char) : Except UrlFault Url := do
  let slash := fun c : Char => c = '/' || c = '\\'
  let (host, rest) ← match text with
    | a :: b :: after =>
      if slash a && slash b then do
        let (hostText, rest) := splitBefore (fun c => slash c || c = '?' || c = '#') after
        if isDrive (String.ofList hostText) then pure (none, after)
        else if hostText.isEmpty then pure (none, rest)
        else do
          let name ← domain hostText
          pure (if name = "localhost" then none else some name, rest)
      else pure (none, text)
    | _ => pure (none, text)
  let (pathText, tail) := splitBefore (fun c => c = '?' || c = '#') rest
  let (query, fragment) := queryAndFragment true tail
  let body := match pathText with
    | c :: p => if slash c then p else c :: p
    | [] => []
  return ⟨"file", "", none, host, none, .rooted (rootedPath true true body), query, fragment⟩

/-- Reads what follows any other scheme. -/
def generic (scheme : String) (text : List Char) : Except UrlFault Url :=
  match text with
  | '/' :: '/' :: rest => withAuthority scheme false rest
  | _ =>
    let (pathText, tail) := splitBefore (fun c => c = '?' || c = '#') text
    let (query, fragment) := queryAndFragment false tail
    let path := match pathText with
      | '/' :: p => UrlPath.rooted (rootedPath false false p)
      | p => UrlPath.unstructured (String.ofList (encode [] p))
    .ok ⟨scheme, "", none, none, none, path, query, fragment⟩

/-- Whether a character may stand in a scheme after its first letter. -/
def isSchemeChar (c : Char) : Bool := c.isAlphanum || c = '+' || c = '-' || c = '.'

/-- Whether a character is dropped at the ends of a URL. -/
def isPadding (c : Char) : Bool := c.toNat ≤ 32

/-- Reads an absolute URL. -/
def parse (text : String) : Except UrlFault Url :=
  let trimmed := ((text.toList.dropWhile isPadding).reverse.dropWhile isPadding).reverse
  let input := trimmed.filter fun c => c ≠ '\t' && c ≠ '\n' && c ≠ '\r'
  match splitBefore (!isSchemeChar ·) input with
  | (first :: others, ':' :: rest) =>
    if first.isAlpha then
      let scheme := String.ofList ((first :: others).map Char.toLower)
      if scheme = "file" then file rest
      else if (internetSchemes.lookup scheme).isSome then
        withAuthority scheme true (rest.dropWhile fun c => c = '/' || c = '\\')
      else generic scheme rest
    else .error .relativeWithoutBase
  | _ => .error .relativeWithoutBase

/-- The normal form of a URL. -/
def shown (u : Url) : String :=
  let credentials :=
    if u.userName = "" && u.password = none then ""
    else u.userName ++ (match u.password with | some p => ":" ++ p | none => "") ++ "@"
  let authority := match u.host with
    | some h => "//" ++ credentials ++ h ++
        (match u.port with | some p => ":" ++ Nat.repr p | none => "")
    | none => if u.scheme = "file" then "//" else ""
  u.scheme ++ ":" ++ authority ++ u.path.text ++
    (match u.query with | some q => "?" ++ q | none => "") ++
    (match u.fragment with | some f => "#" ++ f | none => "")

/-- The path of a local file, as bytes that have to be UTF-8. -/
def filePath? (u : Url) : Option String :=
  match u.host, u.path with
  | none, .rooted text => decode? text
  | _, _ => none

end Url

end DeviceAccess
