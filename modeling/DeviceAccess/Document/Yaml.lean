import DeviceAccess.Document

/-!
# YAML

A reader for one YAML document: block and flow collections, plain, quoted and block scalars,
comments, anchors and aliases, and the tags of the core types.  A plain scalar becomes
`Document.plain`, so that each reader may give it a type.

Block collections are read from the start of a line, with the least indentation that still
belongs to the node; the dash of a sequence entry is replaced by a space, so that what follows
it is read as a line of its own.  Every function that calls itself on the rest of a text takes
a bound on its depth, which `Yaml.parse` computes from the length of the text.
-/

namespace DeviceAccess.Yaml

/-- Why a text is not a YAML document. -/
inductive Fault where
  | unexpected (what : String)
  | unknownAnchor (name : String)
  | severalDocuments
  | tooDeep
  deriving DecidableEq, Repr

/-- The report of a fault. -/
def Fault.message : Fault → String
  | unexpected what => "unexpected " ++ what
  | unknownAnchor name => "unknown anchor " ++ name
  | severalDocuments => "more than one document"
  | tooDeep => "document too deep"

/-- Reading with the anchors seen so far. -/
abbrev Reader := StateT (List (String × Document)) (Except Fault)

/-- Ends reading. -/
def fail {α : Type} (what : String) : Reader α := throw (.unexpected what)

/-! ### Lines -/

/-- Whether a character separates words on a line. -/
def isSpace (c : Char) : Bool := c = ' ' || c = '\t'

/-- Whether a text is at a blank, a line end or its own end. -/
def atBlank : List Char → Bool
  | [] => true
  | c :: _ => isSpace c || c = '\n'

/-- The rest of a text after the line it is in. -/
def afterLine (s : List Char) : List Char := (s.dropWhile (· ≠ '\n')).drop 1

/-- Whether the rest of the line holds nothing but blanks and a comment. -/
def lineIsOver (s : List Char) : Bool :=
  match s.dropWhile isSpace with
  | [] => true
  | c :: _ => c = '\n' || c = '#'

/-- Leaves out the lines at the start that hold no content. -/
def skipEmptyLines : Nat → List Char → List Char
  | 0, s => s
  | fuel + 1, s =>
    if s.isEmpty then []
    else if lineIsOver s then skipEmptyLines fuel (afterLine s) else s

/-- The first line with content. -/
def toContent (s : List Char) : List Char := skipEmptyLines (s.length + 1) s

/-- The indentation of a line. -/
def indentation (s : List Char) : Nat := (s.takeWhile (· = ' ')).length

/-- Whether a line starts with a document marker. -/
def atMarker (marker : Char) : List Char → Bool
  | a :: b :: c :: rest => a = marker && b = marker && c = marker && atBlank rest
  | _ => false

/-- Whether a document ends here. -/
def atDocumentEnd (s : List Char) : Bool := s.isEmpty || atMarker '-' s || atMarker '.' s

/-- Whether the text is at an indicator that a blank follows. -/
def atIndicator (indicator : Char) : List Char → Bool
  | c :: rest => c = indicator && atBlank rest
  | [] => false

/-- The rest after a node that has to be the last on its line. -/
def endLine (s : List Char) : Reader (List Char) :=
  match s with
  | [] => pure []
  | c :: _ =>
    if c = '\n' || (isSpace c && lineIsOver s) then pure (afterLine s)
    else fail "text after a value"

/-! ### Plain scalars -/

/-- The characters that end plain scalars inside brackets. -/
def flowIndicators : List Char := [',', '[', ']', '\x7b', '\x7d']

/-- The characters that cannot start a plain scalar. -/
def indicators : List Char :=
  ['-', '?', ':', ',', '[', ']', '\x7b', '\x7d', '#', '&', '*', '!', '|', '>', '\'', '"', '%',
    '@', '\u0060']

/-- Whether a plain scalar starts here. -/
def startsPlain (inFlow : Bool) : List Char → Bool
  | [] => false
  | c :: rest =>
    if isSpace c || c = '\n' then false
    else if c = '-' then !atBlank rest
    else if c = '?' || c = ':' then !inFlow && !atBlank rest
    else !indicators.contains c

/-- Whether a character that belongs to the brackets comes next. -/
def beforeFlowIndicator : List Char → Bool
  | [] => false
  | c :: _ => flowIndicators.contains c || c = '?'

/-- The part of a plain scalar on one line, without the blanks at its end, and what follows. -/
def plainLine (inFlow : Bool) (afterBlank : Bool) : List Char → List Char × List Char
  | [] => ([], [])
  | c :: rest =>
    if c = '\n' || (c = ':' && (atBlank rest || (inFlow && beforeFlowIndicator rest)))
        || (c = '#' && afterBlank) || (inFlow && flowIndicators.contains c) then ([], c :: rest)
    else
      let (more, rest') := plainLine inFlow (isSpace c) rest
      if more.isEmpty && isSpace c then ([], c :: rest') else (c :: more, rest')

/-- Skips blanks and line ends; the number is that of the line ends. -/
def skipBreaks : List Char → Nat × List Char
  | [] => (0, [])
  | c :: rest =>
    if c = '\n' then let (n, s) := skipBreaks rest; (n + 1, s)
    else if isSpace c then skipBreaks rest
    else (0, c :: rest)

/-- What a run of line ends inside a scalar stands for: one is a space, more are one less. -/
def folded (breaks : Nat) : List Char :=
  if breaks ≤ 1 then [' '] else List.replicate (breaks - 1) '\n'

/-- Reads a plain scalar; outside brackets its later lines are indented by at least `least`. -/
def plain (inFlow : Bool) (least : Nat) : Nat → List Char → List Char × List Char
  | 0, s => ([], s)
  | fuel + 1, s =>
    let (line, rest) := plainLine inFlow false s
    let after := rest.dropWhile isSpace
    match after with
    | '\n' :: _ =>
      let (breaks, next) := skipBreaks after
      let column := (((after.take (after.length - next.length)).reverse).takeWhile (· ≠ '\n')).length
      let continues :=
        !next.isEmpty && next.head? ≠ some '#' && !(column = 0 && atDocumentEnd next)
          && (inFlow || least ≤ column) && startsPlainInside next
      if continues then
        let (more, rest') := plain inFlow least fuel next
        if more.isEmpty then (line, rest) else (line ++ folded breaks ++ more, rest')
      else (line, rest)
    | _ => (line, rest)
where
  /-- Whether a line may continue a plain scalar. -/
  startsPlainInside : List Char → Bool
    | [] => false
    | c :: rest => !(c = ':' && atBlank rest) && !(inFlow && flowIndicators.contains c)

/-! ### Quoted scalars -/

/-- Reads the rest of a single-quoted scalar. -/
def singleQuoted : Nat → List Char → Reader (List Char × List Char)
  | 0, _ => throw .tooDeep
  | _ + 1, [] => fail "end of text in a quoted scalar"
  | fuel + 1, '\'' :: '\'' :: rest => do
    let (more, rest) ← singleQuoted fuel rest
    return ('\'' :: more, rest)
  | _ + 1, '\'' :: rest => return ([], rest)
  | fuel + 1, c :: rest =>
    if isSpace c || c = '\n' then do
      let (breaks, next) := skipBreaks (c :: rest)
      let blanks := (c :: rest).takeWhile isSpace
      let (more, rest') ← singleQuoted fuel next
      return ((if breaks = 0 then blanks else folded breaks) ++ more, rest')
    else do
      let (more, rest') ← singleQuoted fuel rest
      return (c :: more, rest')

/-- The value of hexadecimal digits. -/
def hexChar? (digits : List Char) : Option Char := do
  let n ← Document.natOfDigits? 16 digits
  if n.isValidChar then some (Char.ofNat n) else none

/-- The character of an escape sequence of one letter. -/
def escaped? : Char → Option Char
  | '0' => some '\x00'
  | 'a' => some '\x07'
  | 'b' => some '\x08'
  | 't' => some '\t'
  | '\t' => some '\t'
  | 'n' => some '\n'
  | 'v' => some '\x0b'
  | 'f' => some '\x0c'
  | 'r' => some '\r'
  | 'e' => some '\x1b'
  | ' ' => some ' '
  | '"' => some '"'
  | '/' => some '/'
  | '\\' => some '\\'
  | 'N' => some '\u0085'
  | '_' => some '\u00a0'
  | 'L' => some '\u2028'
  | 'P' => some '\u2029'
  | _ => none

/-- How many hexadecimal digits follow the letter of an escape sequence. -/
def escapeDigits? : Char → Option Nat
  | 'x' => some 2
  | 'u' => some 4
  | 'U' => some 8
  | _ => none

/-- Reads the rest of a double-quoted scalar. -/
def doubleQuoted : Nat → List Char → Reader (List Char × List Char)
  | 0, _ => throw .tooDeep
  | _ + 1, [] => fail "end of text in a quoted scalar"
  | _ + 1, '"' :: rest => return ([], rest)
  | fuel + 1, '\\' :: '\n' :: rest => do
    doubleQuoted fuel (skipBreaks rest).2
  | fuel + 1, '\\' :: c :: rest =>
    match escaped? c, escapeDigits? c with
    | some d, _ => do
      let (more, rest') ← doubleQuoted fuel rest
      return (d :: more, rest')
    | none, some n =>
      match hexChar? (rest.take n) with
      | some d =>
        if (rest.take n).length = n then do
          let (more, rest') ← doubleQuoted fuel (rest.drop n)
          return (d :: more, rest')
        else fail "escape sequence"
      | none => fail "escape sequence"
    | none, none => fail "escape sequence"
  | fuel + 1, c :: rest =>
    if isSpace c || c = '\n' then do
      let (breaks, next) := skipBreaks (c :: rest)
      let blanks := (c :: rest).takeWhile isSpace
      let (more, rest') ← doubleQuoted fuel next
      return ((if breaks = 0 then blanks else folded breaks) ++ more, rest')
    else do
      let (more, rest') ← doubleQuoted fuel rest
      return (c :: more, rest')

/-- Reads a quoted scalar, if one starts here. -/
def quoted? (s : List Char) : Reader (Option (String × List Char)) := do
  match s with
  | '\'' :: rest =>
    let (text, rest) ← singleQuoted (rest.length + 1) rest
    return some (String.ofList text, rest)
  | '"' :: rest =>
    let (text, rest) ← doubleQuoted (rest.length + 1) rest
    return some (String.ofList text, rest)
  | _ => return none

/-! ### Properties -/

/-- The anchor and the tag of a node. -/
structure Properties where
  anchor : Option String
  tag : Option String

/-- A node without an anchor and a tag. -/
def Properties.none : Properties := ⟨Option.none, Option.none⟩

/-- Whether a node has neither anchor nor tag. -/
def Properties.isNone (p : Properties) : Bool := p.anchor.isNone && p.tag.isNone

/-- Whether a character may be in the name of an anchor. -/
def isAnchorChar (c : Char) : Bool := c.isAlphanum || c = '_' || c = '-'

/-- Reads the name of an anchor: letters, digits, `_` and `-`, before a blank or an indicator. -/
def anchorName (s : List Char) : Reader (String × List Char) :=
  let name := s.takeWhile isAnchorChar
  let rest := s.drop name.length
  let isClosed := atBlank rest || (rest.head?.any fun c =>
    ['?', ':', ',', ']', '\x7d', '%', '@', '\u0060'].contains c)
  if name.isEmpty || !isClosed then fail "character in an anchor"
  else return (String.ofList name, rest)

/-- Reads the anchor and the tag in front of a node, each at most once. -/
def properties : Nat → Properties → List Char → Reader (Properties × List Char)
  | 0, p, s => return (p, s)
  | fuel + 1, p, s => do
    match s, p.anchor, p.tag with
    | '&' :: rest, none, _ =>
      let (name, rest) ← anchorName rest
      properties fuel { p with anchor := some name } (rest.dropWhile isSpace)
    | '!' :: rest, _, none =>
      let name := rest.takeWhile fun c => !isSpace c && c ≠ '\n' && !flowIndicators.contains c
      properties fuel { p with tag := some (String.ofList ('!' :: name)) }
        ((rest.drop name.length).dropWhile isSpace)
    | _, _, _ => return (p, s)

/-- Gives a node the type that its tag names. -/
def applyTag : Option String → Document → Reader Document
  | none, d => return d
  | some tag, d =>
    let scalar := match d with
      | .plain s => some s
      | .text s => some s
      | _ => none
    match tag, scalar with
    | "!", some s => return .text s
    | "!!null", some s => if Document.isNullText s then return .null else fail "tagged value"
    | "!!bool", some s =>
      match Document.ofPlain s with
      | .bool b => return .bool b
      | _ => fail "tagged value"
    | "!!int", some s =>
      match Document.ofPlain s with
      | .int i => return .int i
      | _ => fail "tagged value"
    | "!!float", some s =>
      match Document.ofPlain s with
      | .float t => return .float t
      | .int _ => return .float s
      | _ => fail "tagged value"
    | _, _ =>
      if !"!!".isPrefixOf tag then fail ("tag " ++ tag)
      else match scalar with
        | some s => return .text s
        | none => return d

/-- Finishes a node: applies its tag and remembers its anchor. -/
def finish (p : Properties) (d : Document) : Reader Document := do
  let d ← applyTag p.tag d
  match p.anchor with
  | some name => modify fun anchors => (name, d) :: anchors
  | none => pure ()
  return d

/-- Reads an alias: a name after `*`. -/
def aliasNode (s : List Char) : Reader (Document × List Char) := do
  let (name, rest) ← anchorName s
  match (← get).lookup name with
  | some d => return (d, rest)
  | none => throw (.unknownAnchor name)

/-- Tries to read; where reading fails, nothing is read. -/
def attempt {α : Type} (reader : Reader α) : Reader (Option α) := fun anchors =>
  match reader.run anchors with
  | .ok (a, anchors') => .ok (some a, anchors')
  | .error _ => .ok (none, anchors)

/-! ### Flow collections -/

/-- Skips blanks, line ends and comments. -/
def skipFlow : Nat → Bool → List Char → List Char
  | 0, _, s => s
  | _ + 1, _, [] => []
  | fuel + 1, afterBlank, c :: rest =>
    if isSpace c || c = '\n' then skipFlow fuel true rest
    else if c = '#' && afterBlank then skipFlow fuel true (rest.dropWhile (· ≠ '\n'))
    else c :: rest

/-- Skips to the next token inside brackets. -/
def toToken (s : List Char) : List Char := skipFlow (s.length + 1) false s

/-- The key of a table. -/
def keyText : Document → Reader String
  | .text s => return s
  | .plain s => return s
  | _ => fail "key that is no scalar"

/-- The key of an entry inside brackets; after a plain one a blank has to follow the colon. -/
def flowKey (key : Document) (after : List Char) : Reader String := do
  match key with
  | .plain _ => if beforeFlowIndicator after then fail "colon" else keyText key
  | _ => keyText key

mutual

/-- Reads a node inside brackets. -/
def flowNode : Nat → List Char → Reader (Document × List Char)
  | 0, _ => throw .tooDeep
  | fuel + 1, s => do
    let (p, s) ← properties 2 .none s
    let s := toToken s
    match s with
    | '[' :: rest =>
      let (items, rest) ← flowItems fuel (toToken rest)
      return (← finish p (.list items), rest)
    | '\x7b' :: rest =>
      let (entries, rest) ← flowEntries fuel (toToken rest)
      return (← finish p (.table entries), rest)
    | '*' :: rest => if p.isNone then aliasNode rest else fail "alias"
    | _ =>
      match ← quoted? s with
      | some (text, rest) => return (← finish p (.text text), rest)
      | none =>
        if startsPlain true s then
          let (text, rest) := plain true 0 (s.length + 1) s
          return (← finish p (.plain (String.ofList text)), rest)
        else if !p.isNone then return (← finish p (.plain ""), s)
        else fail "character in a flow collection"

/-- Reads the items of a list up to its closing bracket. -/
def flowItems : Nat → List Char → Reader (List Document × List Char)
  | 0, _ => throw .tooDeep
  | fuel + 1, s =>
    match s with
    | [] => fail "end of text in a list"
    | ']' :: rest => return ([], rest)
    | _ => do
      let (first, rest, isKey) ← flowFirst fuel s
      let (item, rest) ← match rest, isKey with
        | ':' :: after, _ => do
          let key ← flowKey first after
          let (value, rest) ← flowValue fuel (toToken after)
          pure (Document.table [(key, value)], toToken rest)
        | _, true => do pure (Document.table [(← keyText first, .plain "")], rest)
        | _, false => pure (first, rest)
      match rest with
      | ',' :: after =>
        let (items, rest) ← flowItems fuel (toToken after)
        return (item :: items, rest)
      | ']' :: after => return ([item], after)
      | _ => fail "text in a list"

/-- Reads the entries of a table up to its closing brace. -/
def flowEntries : Nat → List Char → Reader (List (String × Document) × List Char)
  | 0, _ => throw .tooDeep
  | fuel + 1, s =>
    match s with
    | [] => fail "end of text in a table"
    | '\x7d' :: rest => return ([], rest)
    | _ => do
      let (first, rest, _) ← flowFirst fuel s
      let key ← keyText first
      let (value, rest) ← match rest with
        | ':' :: after => do
          let _ ← flowKey first after
          let (value, rest) ← flowValue fuel (toToken after)
          pure (value, toToken rest)
        | _ => pure (Document.plain "", rest)
      match rest with
      | ',' :: after =>
        let (entries, rest) ← flowEntries fuel (toToken after)
        return ((key, value) :: entries, rest)
      | '\x7d' :: after => return ([(key, value)], after)
      | _ => fail "text in a table"

/-- Reads a node and what separates it from the next token; a `?` in front says that it is a
key, which may be left out. -/
def flowFirst : Nat → List Char → Reader (Document × List Char × Bool)
  | 0, _ => throw .tooDeep
  | fuel + 1, s => do
    match s with
    | '?' :: rest =>
      let (key, rest) ← match toToken rest with
        | ':' :: after => pure (Document.plain "", ':' :: after)
        | next => flowValue fuel next
      return (key, toToken rest, true)
    | _ =>
      let (node, rest) ← flowNode fuel s
      return (node, toToken rest, false)

/-- Reads the value after a colon, which may be left out. -/
def flowValue : Nat → List Char → Reader (Document × List Char)
  | 0, _ => throw .tooDeep
  | fuel + 1, s =>
    match s with
    | ',' :: _ => return (.plain "", s)
    | ']' :: _ => return (.plain "", s)
    | '\x7d' :: _ => return (.plain "", s)
    | _ => flowNode fuel s

end

/-! ### Block scalars -/

/-- What happens to the line ends at the end of a block scalar. -/
inductive Chomping where
  | strip
  | clip
  | keep
  deriving DecidableEq

/-- Reads the indicators of a block scalar: its indentation and what happens at its end. -/
def blockHeader : List Char → Option Nat × Chomping × List Char
  | '-' :: d :: rest =>
    if d.isDigit then (some (d.toNat - '0'.toNat), .strip, rest) else (none, .strip, d :: rest)
  | '+' :: d :: rest =>
    if d.isDigit then (some (d.toNat - '0'.toNat), .keep, rest) else (none, .keep, d :: rest)
  | d :: rest =>
    if d.isDigit then
      match rest with
      | '-' :: rest' => (some (d.toNat - '0'.toNat), .strip, rest')
      | '+' :: rest' => (some (d.toNat - '0'.toNat), .keep, rest')
      | _ => (some (d.toNat - '0'.toNat), .clip, rest)
    else if d = '-' then (none, .strip, rest)
    else if d = '+' then (none, .keep, rest)
    else (none, .clip, d :: rest)
  | [] => (none, .clip, [])

/-- The indentation of the first line that is not empty. -/
def firstIndentation : Nat → List Char → Nat
  | 0, _ => 0
  | fuel + 1, s =>
    let n := indentation s
    match s.drop n with
    | '\n' :: rest => max n (firstIndentation fuel rest)
    | [] => n
    | _ => n

/-- The lines of a block scalar without their indentation, and what follows. -/
def blockLines (indent : Nat) : Nat → List Char → List (List Char) × List Char
  | 0, s => ([], s)
  | fuel + 1, s =>
    if s.isEmpty then ([], [])
    else
      let n := indentation s
      match s.drop n with
      | '\n' :: rest =>
        if n ≤ indent then
          let (lines, rest') := blockLines indent fuel rest
          ([] :: lines, rest')
        else
          let (lines, rest') := blockLines indent fuel rest
          (List.replicate (n - indent) ' ' :: lines, rest')
      | content =>
        if content.isEmpty then ([], [])
        else if n < indent || (n = 0 && atDocumentEnd s) then ([], s)
        else
          let line := (s.drop indent).takeWhile (· ≠ '\n')
          let (lines, rest') := blockLines indent fuel (afterLine s)
          (line :: lines, rest')

/-- Whether a line of a folded scalar keeps its line ends: it is empty or indented further. -/
def keepsBreaks (line : List Char) : Bool :=
  match line with
  | [] => false
  | c :: _ => isSpace c

/-- Joins the lines of a folded scalar, after the line `before`. -/
def foldLines (before : List Char) : List (List Char) → List Char
  | [] => before
  | line :: lines =>
    let empty := (line :: lines).takeWhile List.isEmpty
    match (line :: lines).dropWhile List.isEmpty with
    | [] => before ++ List.replicate empty.length '\n'
    | next :: rest =>
      let between :=
        if keepsBreaks before || keepsBreaks next then List.replicate (empty.length + 1) '\n'
        else if empty.isEmpty then [' '] else List.replicate empty.length '\n'
      if _h : rest.length < (line :: lines).length then before ++ between ++ foldLines next rest
      else before
termination_by lines => lines.length
decreasing_by
  simp only [List.length_cons] at *
  omega

/-- Reads a block scalar after its `|` or `>`, inside a node of indentation `parent`. -/
def blockScalar (isFolded : Bool) (least : Nat) (s : List Char) :
    Reader (Document × List Char) := do
  let (explicit, chomping, rest) := blockHeader s
  if !lineIsOver rest then fail "text after a block scalar's start"
  else
    let body := afterLine rest
    let indent := match explicit with
      | some n => least - 1 + n
      | none => max least (firstIndentation (body.length + 1) body)
    let (lines, rest) := blockLines indent (body.length + 1) body
    let trailing := (lines.reverse.takeWhile List.isEmpty).length
    let content := lines.take (lines.length - trailing)
    let text := match content with
      | [] => []
      | first :: others =>
        if isFolded then foldLines first others
        else List.intercalate ['\n'] content
    let ending := match chomping with
      | .strip => []
      | .clip => if content.isEmpty then [] else ['\n']
      | .keep => List.replicate (if content.isEmpty then trailing else trailing + 1) '\n'
    return (.text (String.ofList (text ++ ending)), rest)

/-! ### Block collections -/

/-- Reads a scalar or an alias that is a part of one line. -/
def lineScalar (p : Properties) (line : List Char) : Reader (Document × List Char) := do
  match line with
  | '*' :: rest => if p.isNone then aliasNode rest else fail "alias"
  | _ =>
    match ← quoted? line with
    | some (text, rest) => return (.text text, rest)
    | none =>
      if startsPlain false line then
        let (text, rest) := plainLine false false line
        return (.plain (String.ofList text), rest)
      else fail "character"

/-- Reads the key of a block table, up to and with its colon, if there is one on this line. -/
def key? (s : List Char) : Reader (Option (String × List Char)) := do
  let (p, s) ← properties 2 .none s
  let line := s.takeWhile (· ≠ '\n')
  match ← attempt (lineScalar p line) with
  | none => return none
  | some (node, rest) =>
    let after := (s.drop (line.length - rest.length)).dropWhile isSpace
    if atIndicator ':' after then
      return some (← keyText (← finish p node), after.drop 1)
    else return none

/-- Reads a scalar or a flow collection that starts on this line. -/
def inline (least : Nat) (s : List Char) : Reader (Document × List Char) := do
  let (node, rest) ← match s with
    | '[' :: _ => flowNode (4 * s.length + 4) s
    | '\x7b' :: _ => flowNode (4 * s.length + 4) s
    | '*' :: rest => aliasNode rest
    | _ => do
      match ← quoted? s with
      | some (text, rest) => pure (.text text, rest)
      | none =>
        if startsPlain false s then
          let (text, rest) := plain false least (s.length + 1) s
          pure (.plain (String.ofList text), rest)
        else fail "character"
  return (node, ← endLine rest)

mutual

/-- Reads the node whose lines are indented by at least `least`, from the start of a line. -/
def blockNode : Nat → Nat → List Char → Reader (Document × List Char)
  | 0, _, _ => throw .tooDeep
  | fuel + 1, least, s => do
    let s := toContent s
    let n := indentation s
    if s.isEmpty || n < least || (n = 0 && atDocumentEnd s) then return (.plain "", s)
    let content := s.drop n
    if atIndicator '-' content then
      let (items, rest) ← blockItems fuel n s
      return (.list items, rest)
    if atIndicator '?' content || (← key? content).isSome then
      let (entries, rest) ← blockEntries fuel n s
      return (.table entries, rest)
    else blockValue fuel least none content

/-- Reads the value that starts on this line; its other lines are indented by at least
`least`, except that a sequence may be indented by `sequence` exactly. -/
def blockValue : Nat → Nat → Option Nat → List Char → Reader (Document × List Char)
  | 0, _, _, _ => throw .tooDeep
  | fuel + 1, least, sequence, s => do
    let (p, s) ← properties 2 .none s
    if lineIsOver s then
      let (node, rest) ← blockBelow fuel least sequence (afterLine s)
      return (← finish p node, rest)
    else
      let (node, rest) ← match s with
        | '|' :: rest => blockScalar false least rest
        | '>' :: rest => blockScalar true least rest
        | '*' :: _ => if p.isNone then inline least s else fail "alias"
        | _ => inline least s
      return (← finish p node, rest)

/-- Reads the value on the lines that follow; its lines are indented as in `blockValue`. -/
def blockBelow : Nat → Nat → Option Nat → List Char → Reader (Document × List Char)
  | 0, _, _, _ => throw .tooDeep
  | fuel + 1, least, sequence, s => do
    let next := toContent s
    let n := indentation next
    if some n = sequence && atIndicator '-' (next.drop n) && !(n = 0 && atDocumentEnd next) then
      let (items, rest) ← blockItems fuel n next
      return (.list items, rest)
    else blockNode fuel least s

/-- Reads the items of a sequence that is indented by `n`. -/
def blockItems : Nat → Nat → List Char → Reader (List Document × List Char)
  | 0, _, _ => throw .tooDeep
  | fuel + 1, n, s => do
    let s := toContent s
    let content := s.drop (indentation s)
    if indentation s = n && atIndicator '-' content && !(n = 0 && atDocumentEnd s) then
      let (item, rest) ← blockNode fuel (n + 1) (List.replicate (n + 1) ' ' ++ content.drop 1)
      let (items, rest) ← blockItems fuel n rest
      return (item :: items, rest)
    else if n < indentation s && !s.isEmpty then fail "indentation"
    else return ([], s)

/-- Reads what follows the `?` or the `:` of an entry whose key has lines of its own. -/
def blockPart : Nat → Nat → List Char → Reader (Document × List Char)
  | 0, _, _ => throw .tooDeep
  | fuel + 1, n, content =>
    if lineIsOver (content.drop 1) then
      blockBelow fuel (n + 1) (some n) (afterLine content)
    else blockNode fuel (n + 1) (List.replicate (n + 1) ' ' ++ content.drop 1)

/-- Reads the entries of a table that is indented by `n`. -/
def blockEntries : Nat → Nat → List Char → Reader (List (String × Document) × List Char)
  | 0, _, _ => throw .tooDeep
  | fuel + 1, n, s => do
    let s := toContent s
    let content := s.drop (indentation s)
    if indentation s = n && atIndicator '?' content then
      let (first, rest) ← blockPart fuel n content
      let key ← keyText first
      let next := toContent rest
      let (value, rest) ←
        if indentation next = n && atIndicator ':' (next.drop n) then
          blockPart fuel n (next.drop n)
        else pure (Document.plain "", next)
      let (entries, rest) ← blockEntries fuel n rest
      return ((key, value) :: entries, rest)
    else if indentation s = n && !s.isEmpty && !(n = 0 && atDocumentEnd s) then
      match ← key? content with
      | some (key, rest) =>
        let (value, rest) ← blockValue fuel (n + 1) (some n) (rest.dropWhile isSpace)
        let (entries, rest) ← blockEntries fuel n rest
        return ((key, value) :: entries, rest)
      | none => fail "line without a key"
    else if n < indentation s && !s.isEmpty then fail "indentation"
    else return ([], s)

end

/-! ### Documents -/

/-- Line ends in one form. -/
def normalizeBreaks : List Char → List Char
  | '\r' :: '\n' :: rest => '\n' :: normalizeBreaks rest
  | '\r' :: rest => '\n' :: normalizeBreaks rest
  | c :: rest => c :: normalizeBreaks rest
  | [] => []

/-- Leaves out the directives in front of a document. -/
def skipDirectives : Nat → List Char → List Char
  | 0, s => s
  | fuel + 1, s =>
    match toContent s with
    | '%' :: rest => skipDirectives fuel (afterLine rest)
    | s => s

/-- Whether nothing but one end marker follows a document. -/
def isOver (s : List Char) : Except Fault Unit :=
  let rest := toContent s
  if rest.isEmpty then .ok ()
  else if atMarker '.' rest then
    if (toContent (afterLine rest)).isEmpty then .ok () else .error .severalDocuments
  else if atMarker '-' rest then .error .severalDocuments
  else .error (.unexpected "text after the document")

/-- Reads the only document of a text; `none` if the text holds no content. -/
def parse (text : String) : Except Fault (Option Document) := do
  let s := normalizeBreaks (match text.toList with
    | '\ufeff' :: rest => rest
    | chars => chars)
  let s := skipDirectives (s.length + 1) s
  let marked := atMarker '-' s
  let s := if marked then ' ' :: ' ' :: ' ' :: s.drop 3 else s
  let content := toContent s
  if content.isEmpty || atMarker '.' content then
    return (if marked then some (.plain "") else none)
  else
    let (node, rest) ←
      if marked && !lineIsOver s then do
        let ((node, rest), _) ← (blockValue (4 * s.length + 8) 0 none (s.dropWhile isSpace)).run []
        pure (node, rest)
      else do
        let ((node, rest), _) ← (blockNode (4 * s.length + 8) 0 content).run []
        pure (node, rest)
    isOver rest
    return some node

end DeviceAccess.Yaml
