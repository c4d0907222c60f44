import DeviceAccess.Text.Blank
import DeviceAccess.Identity.Session
import DeviceAccess.Policy.Glob

/-!
# Selection rules

A rule selects the sessions of a group by the name of their thing:

    rule  = terms, joined by OR
    terms = term, joined by AND
    term  = "thingName" ":" value
    value = ASCII letters, digits, "_", "-" and escaped colons "\:", then "*" or nothing

`AND` binds tighter than `OR`, and blanks may stand between any two tokens.  A rule is
therefore a list of alternatives, each a list of patterns that all have to accept the name.
`Rule.parse` reads a rule in two steps, `Rule.tokens` and `Rule.alternativesOf`, and reports
the first fault from the left.
-/

namespace DeviceAccess

/-- A selection rule: its text and what it means. -/
structure Rule where
  source : String
  /-- Of some alternative all patterns have to accept the thing's name. -/
  alternatives : List (List Glob)
  deriving DecidableEq, Repr

namespace Rule

/-- A token of a rule. -/
inductive Token where
  | word (text : List Char)
  | colon
  deriving DecidableEq, Repr

/-- A token as it is shown in reports. -/
def Token.shown : Token → String
  | word text => "`" ++ String.ofList text ++ "`"
  | colon => "`:`"

/-- A token, or the end of the rule, as it is shown in reports. -/
def shownOrEnd : Option Token → String
  | some t => t.shown
  | none => "end of rule"

/-- Why a text is not a rule. -/
inductive SyntaxFault where
  | badEscape (source : String)
  | unexpectedCharacter (c : Char) (source : String)
  | expectedKeyword (found : Option Token)
  | expectedColon
  | expectedValue (found : Option Token)
  | innerWildcard (value : String)
  | unexpectedToken (found : Token) (source : String)
  deriving DecidableEq, Repr

/-- The report of a syntax fault. -/
def SyntaxFault.message : SyntaxFault → String
  | badEscape source => "Invalid escape sequence in selection rule `" ++ source ++ "`"
  | unexpectedCharacter c source =>
    "Unexpected character `" ++ String.singleton c ++ "` in selection rule `" ++ source ++ "`"
  | expectedKeyword found => "Expected `thingName`, found " ++ shownOrEnd found
  | expectedColon => "Expected `:` after `thingName`"
  | expectedValue found => "Expected thing name, found " ++ shownOrEnd found
  | innerWildcard value =>
    "Wildcard is only allowed at the end of thing name `" ++ value ++ "`"
  | unexpectedToken found source =>
    "Unexpected " ++ found.shown ++ " in selection rule `" ++ source ++ "`"

/-! ### Tokens -/

/-- Whether a character may stand in a word without an escape. -/
def isWordChar (c : Char) : Bool := c.isAlphanum || c == '_' || c == '-' || c == '*'

/-- The tokens with the word in front that was read so far, if any. -/
def closeWord (word : List Char) (tokens : List Token) : List Token :=
  if word.isEmpty then tokens else .word word :: tokens

/-- Reads the tokens of a text inside which `word` has been read already. -/
def tokensWithin (source : String) (word : List Char) :
    List Char → Except SyntaxFault (List Token)
  | [] => .ok (closeWord word [])
  | '\\' :: ':' :: rest => tokensWithin source (word ++ [':']) rest
  | '\\' :: _ => .error (.badEscape source)
  | c :: rest =>
    if isWordChar c then tokensWithin source (word ++ [c]) rest
    else if Text.isBlank c then (tokensWithin source [] rest).map (closeWord word)
    else if c = ':' then
      (tokensWithin source [] rest).map fun tokens => closeWord word (.colon :: tokens)
    else .error (.unexpectedCharacter c source)

/-- The tokens of a rule. -/
def tokens (source : String) : Except SyntaxFault (List Token) :=
  tokensWithin source [] source.toList

/-! ### Terms -/

/-- The pattern of a value; a `*` may stand at its end only. -/
def valuePattern (value : List Char) : Except SyntaxFault Glob :=
  let body := if value.getLast? = some '*' then value.dropLast else value
  if body.contains '*' then .error (.innerWildcard (String.ofList value))
  else .ok (Glob.ofPattern (String.ofList value))

/-- Reads one term; the second part is what follows it. -/
def term : List Token → Except SyntaxFault (Glob × List Token)
  | .word keyword :: rest =>
    if keyword = "thingName".toList then
      match rest with
      | .colon :: .word value :: rest' => (valuePattern value).map fun glob => (glob, rest')
      | .colon :: rest' => .error (.expectedValue rest'.head?)
      | _ => .error .expectedColon
    else .error (.expectedKeyword (some (.word keyword)))
  | tokens => .error (.expectedKeyword tokens.head?)

theorem term_length {tokens rest : List Token} {glob : Glob}
    (h : term tokens = .ok (glob, rest)) : rest.length < tokens.length := by
  unfold term at h
  split at h
  · split at h
    · split at h
      · next value rest' =>
        cases hv : valuePattern value with
        | error e => simp [hv, Except.map] at h
        | ok g =>
          simp only [hv, Except.map, Except.ok.injEq, Prod.mk.injEq] at h
          obtain ⟨_, rfl⟩ := h
          simp only [List.length_cons]
          omega
      · exact nomatch h
      · exact nomatch h
    · exact nomatch h
  · exact nomatch h

/-- Reads terms joined by `AND` and `OR` up to the end, after the terms `pending` of the
alternative that is being read. -/
def alternativesAfter (source : String) (pending : List Glob) (tokens : List Token) :
    Except SyntaxFault (List (List Glob)) :=
  match _h : term tokens with
  | .error e => .error e
  | .ok (glob, rest) =>
    let terms := pending ++ [glob]
    match rest with
    | [] => .ok [terms]
    | t :: rest' =>
      if t = .word "AND".toList then alternativesAfter source terms rest'
      else if t = .word "OR".toList then
        (alternativesAfter source [] rest').map fun others => terms :: others
      else .error (.unexpectedToken t source)
termination_by tokens.length
decreasing_by
  all_goals
    have := term_length _h
    simp only [List.length_cons] at this
    omega

/-- The meaning of a list of tokens. -/
def alternativesOf (source : String) (tokens : List Token) :
    Except SyntaxFault (List (List Glob)) :=
  alternativesAfter source [] tokens

/-- Reads a rule, or reports the first fault. -/
def parse (source : String) : Except SyntaxFault Rule := do
  let tokens ← tokens source
  let alternatives ← alternativesOf source tokens
  return ⟨source, alternatives⟩

/-- Whether a thing's name satisfies the rule. -/
def accepts (r : Rule) (name : String) : Bool :=
  r.alternatives.any fun globs => globs.all fun glob => glob.accepts name

/-- Whether the rule selects a session; one without a thing is never selected. -/
def selects (r : Rule) (session : Session) : Bool :=
  match session.thingName? with
  | some name => r.accepts name
  | none => false

end Rule

end DeviceAccess
