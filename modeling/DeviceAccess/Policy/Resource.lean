import DeviceAccess.Policy.Operation

/-!
# Resources

A resource is written `service:type:name`; the name is often a topic, a path of levels with
`/` between them.  A granted resource is a pattern with three wildcards:

* `*` stands for any text, also across levels;
* `+`, where it is a whole level, stands for one level of the request, which may be a
  requested `+` but not a requested `#`;
* `#`, where it is the whole last level, stands for all remaining levels; with the `/` before
  it, it stands for no level as well, so `a/#` covers `a`.

A level starts at the beginning of the pattern and after each `/` and `:`.  A wildcard
character anywhere else stands for itself.

`ResourcePattern.tokens` reads a pattern and `ResourcePattern.covers` decides it by a table
with one row per token: a row tells for every ending of the request whether the remaining
tokens fit it.
-/

namespace DeviceAccess

/-- A requested resource. -/
structure Resource where
  service : String
  kind : String
  name : String
  deriving DecidableEq, Repr

namespace Resource

/-- Whether a character may stand in a requested resource name: a letter, a numeral or a
printable ASCII character. -/
def isNameChar (c : Char) : Bool :=
  Text.isLetter c || Text.isNumeral c || (32 ≤ c.toNat && c.toNat ≤ 126)

/-- Reads `service:type:name`. -/
def parse? (resource : String) : Option Resource := do
  let (service, rest) ← splitAtFirst ':' resource.toList
  let (kind, name) ← splitAtFirst ':' rest
  if isServiceName service && isServiceName kind && !name.isEmpty && name.all isNameChar then
    some ⟨String.ofList service, String.ofList kind, String.ofList name⟩
  else none

end Resource

namespace ResourcePattern

/-- What one place of a pattern stands for. -/
inductive Token where
  /-- The character itself. -/
  | char (c : Char)
  /-- Any text. -/
  | anyText
  /-- One level. -/
  | level
  /-- The remaining levels. -/
  | rest
  deriving DecidableEq, Repr

/-- Whether a level starts after `before`, the character that stands before. -/
def startsLevel (before : Option Char) : Bool :=
  before = none || before = some '/' || before = some ':'

/-- Whether a level ends where `after` follows. -/
def endsLevel (after : List Char) : Bool :=
  match after with
  | [] => true
  | c :: _ => c = '/'

/-- Reads a pattern that follows the character `before`.  A run of `*` is one wildcard. -/
def tokensAfter (before : Option Char) : List Char → List Token
  | [] => []
  | c :: after =>
    let others := tokensAfter (some c) after
    if c = '*' then if before = some '*' then others else .anyText :: others
    else if c = '+' && startsLevel before && endsLevel after then .level :: others
    else if c = '#' && startsLevel before && after.isEmpty then .rest :: others
    else .char c :: others

/-- Reads a pattern. -/
def tokens (pattern : List Char) : List Token := tokensAfter none pattern

/-! ### The table

A row has one entry for each ending of the request, the longest first, so it is one longer
than the request.  Each of the following makes the row of a token from the row below it. -/

/-- The first entry of a row. -/
def here (row : List Bool) : Bool := row.headD false

/-- The row of `*`: it takes nothing, or one more character. -/
def anyTextRow : List Char → List Bool → List Bool
  | [], below => [here below]
  | _ :: text, below =>
    let row := anyTextRow text below.tail
    (here below || here row) :: row

/-- The entries of the row below at the end of the level that each ending starts in. -/
def levelEnds : List Char → List Bool → List Bool
  | [], below => [here below]
  | c :: text, below =>
    let row := levelEnds text below.tail
    (if c = '/' then here below else here row) :: row

/-- Whether the level that a text starts with is exactly `#`. -/
def startsWithRest : List Char → Bool
  | '#' :: text => endsLevel text
  | _ => false

/-- All endings of a text, the longest first. -/
def endings : List Char → List (List Char)
  | [] => [[]]
  | c :: text => (c :: text) :: endings text

/-- The row of `+`: it takes one level that is not `#`. -/
def levelRow (text : List Char) (below : List Bool) : List Bool :=
  (endings text).zipWith (fun ending fits => !startsWithRest ending && fits) (levelEnds text below)

/-- The row of a character; `atEnd` is its entry for the empty ending. -/
def charRow (c : Char) (atEnd : Bool) : List Char → List Bool → List Bool
  | [], _ => [atEnd]
  | d :: text, below => (d = c && here below.tail) :: charRow c atEnd text below.tail

/-- The row of a token that is followed by `next`. -/
def row (text : List Char) (below : List Bool) (next : Option Token) : Token → List Bool
  | .anyText => anyTextRow text below
  | .level => levelRow text below
  | .rest => List.replicate (text.length + 1) true
  | .char c => charRow c (c = '/' && next = some .rest) text below

/-- The topmost row of the table. -/
def table (text : List Char) : List Token → List Bool
  | [] => List.replicate text.length false ++ [true]
  | t :: ts => row text (table text ts) ts.head? t

/-- Whether the granted pattern covers the requested resource. -/
def covers (pattern resource : String) : Bool :=
  pattern = resource || here (table resource.toList (tokens pattern.toList))

end ResourcePattern

end DeviceAccess
