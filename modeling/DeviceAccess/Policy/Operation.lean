import DeviceAccess.Text.Letter
import DeviceAccess.Text.Numeral

/-!
# Operations

An operation is written `service:action`, such as `mqtt:publish`.  A granted operation is a
pattern: a text that ends in `*` covers every operation that starts with what stands before
it, any other text covers itself only (`Operation.covers`).  A requested operation has to be
well formed (`Operation.parse?`).
-/

namespace DeviceAccess

/-- The parts of `text` before and after the first `sep`. -/
def splitAtFirst (sep : Char) (text : List Char) : Option (List Char × List Char) :=
  match text.dropWhile (· ≠ sep) with
  | [] => none
  | _ :: rest => some (text.takeWhile (· ≠ sep), rest)

/-- Whether a text is a service name: letters only, and at least one. -/
def isServiceName (text : List Char) : Bool := !text.isEmpty && text.all Text.isLetter

/-- A requested operation. -/
structure Operation where
  service : String
  action : String
  deriving DecidableEq, Repr

namespace Operation

/-- Whether a character may stand in an action. -/
def isActionChar (c : Char) : Bool :=
  Text.isLetter c || Text.isNumeral c || c == '_' || c == '-'

/-- Reads `service:action`. -/
def parse? (operation : String) : Option Operation :=
  match splitAtFirst ':' operation.toList with
  | none => none
  | some (service, action) =>
    if isServiceName service && !action.isEmpty && action.all isActionChar then
      some ⟨String.ofList service, String.ofList action⟩
    else none

/-- Whether a granted operation covers the requested one. -/
def covers (granted requested : String) : Bool :=
  let text := granted.toList
  if text.getLast? = some '*' then text.dropLast.isPrefixOf requested.toList
  else granted = requested

end Operation

end DeviceAccess
