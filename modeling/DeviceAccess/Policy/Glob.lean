/-!
# Simple patterns for names

A pattern text has at most two wildcards: a `*` at its start and a `*` at its end, each of
which stands for any text.  `Glob.ofPattern` compiles it, `Glob.accepts` decides it.
-/

namespace DeviceAccess

/-- A compiled pattern for names. -/
inductive Glob where
  /-- Every name. -/
  | any
  | exactly (text : String)
  | startingWith (head : String)
  | endingWith (tail : String)
  | containing (part : String)
  deriving DecidableEq, Repr

/-- Whether `part` occurs in `text` without gaps. -/
def occursIn (part : List Char) : List Char → Bool
  | [] => part.isEmpty
  | c :: cs => part.isPrefixOf (c :: cs) || occursIn part cs

namespace Glob

/-- Compiles a pattern text; only a `*` at either end is special. -/
def ofPattern (pattern : String) : Glob :=
  let text := pattern.toList
  if text = ['*'] then any
  else
    let opened := text.head? = some '*'
    let body := if opened then text.tail else text
    let closed := body.getLast? = some '*'
    let inner := String.ofList (if closed then body.dropLast else body)
    match decide opened, decide closed with
    | true, true => if inner = "" then any else containing inner
    | true, false => endingWith inner
    | false, true => startingWith inner
    | false, false => exactly inner

/-- Whether a name fits the pattern. -/
def accepts : Glob → String → Bool
  | any, _ => true
  | exactly text, name => name = text
  | startingWith head, name => head.toList.isPrefixOf name.toList
  | endingWith tail, name => tail.toList.isSuffixOf name.toList
  | containing part, name => occursIn part.toList name.toList

end Glob

end DeviceAccess
