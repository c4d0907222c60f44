import DeviceAccess.Encoding.Base64
import DeviceAccess.Text.Blank

/-!
# PEM texts

Binary objects in texts: a block has a line `-----BEGIN label-----`, the object in base64, and a
line `-----END label-----`.

`Pem.certificates?` reads every certificate of a text line by line.  Text between blocks and
blocks of other kinds are passed over; objects of the known kinds have to be readable all the
same, and every block has to be closed.  A line that opens a block within a block renames the
block and keeps what was read of it.

`Pem.key?` reads the first block of a text, of whatever label, by a stricter rule.
-/

namespace DeviceAccess

namespace Pem

/-! ### Writing -/

/-- The label of a certificate. -/
def certificateLabel : String := "CERTIFICATE"

/-- The label of a private key. -/
def privateKeyLabel : String := "PRIVATE KEY"

/-- The greatest number of characters on a line of base64. -/
def lineWidth : Nat := 64

/-- Breaks a text into lines of at most `lineWidth` characters, each with its end. -/
def wrap (text : List Char) : List Char :=
  if text.isEmpty then []
  else text.take lineWidth ++ '\n' :: wrap (text.drop lineWidth)
termination_by text.length
decreasing_by
  cases text with
  | nil => simp_all
  | cons c cs =>
    simp only [lineWidth, List.length_drop, List.length_cons]
    omega

/-- The line that opens a block. -/
def opening (label : String) : String := "-----BEGIN " ++ label ++ "-----"

/-- The line that closes a block. -/
def closing (label : String) : String := "-----END " ++ label ++ "-----"

/-- A block. -/
def write (label : String) (content : Bytes) : String :=
  opening label ++ "\n" ++ String.ofList (wrap (Base64.encode content)) ++ closing label ++ "\n"

/-- A certificate block. -/
def ofCertificate (content : Bytes) : String := write certificateLabel content

/-! ### Reading certificates -/

/-- Why a text cannot be read. -/
inductive Fault where
  | badOpening
  | unclosed (label : String)
  | badBase64 (label : String)
  deriving DecidableEq, Repr

/-- The report of a fault. -/
def Fault.message : Fault → String
  | badOpening => "illegal section start"
  | unclosed label => "section end for " ++ label ++ " not found"
  | badBase64 label => "invalid base64 in section " ++ label

/-- The lines of a text; either line break ends a line. -/
def lines : List Char → List (List Char)
  | [] => [[]]
  | c :: rest =>
    if c = '\n' ∨ c = '\r' then [] :: lines rest
    else
      match lines rest with
      | line :: more => (c :: line) :: more
      | [] => [[c]]

/-- What a line that opens a block starts with. -/
def openingStart : List Char := "-----BEGIN ".toList

/-- Whether a line opens a block. -/
def opens (line : List Char) : Bool := openingStart.isPrefixOf line

/-- The label on a line that opens a block: it ends in five dashes, blanks aside. -/
def label? (line : List Char) : Option (List Char) :=
  let tail := line.reverse.takeWhile fun c => c = '-' || c = ' '
  if (tail.filter (· = '-')).length = 5 then
    some ((line.take (line.length - (tail.reverse.dropWhile (· ≠ '-')).length)).drop
      openingStart.length)
  else none

/-- Whether a line closes the block of a label. -/
def closes (label line : List Char) : Bool :=
  (closing (String.ofList label)).toList.isPrefixOf line

/-- The labels of the objects that are known. -/
def knownLabels : List String := [
  "CERTIFICATE", "PUBLIC KEY", "RSA PRIVATE KEY", "PRIVATE KEY", "EC PRIVATE KEY", "X509 CRL",
  "CERTIFICATE REQUEST", "ECHCONFIG"]

/-- An object with its label. -/
structure Block where
  label : String
  content : Bytes
  deriving DecidableEq

/-- The known objects on the lines of a text, where `current` is the label of the block that
is open and `body` is what was read of it.  The first fault comes last. -/
def blocks (current : Option (List Char)) (body : List Char) :
    List (List Char) → List (Except Fault Block)
  | [] =>
    match current with
    | none => []
    | some label => [.error (.unclosed (String.ofList label))]
  | line :: rest =>
    if opens line then
      match label? line with
      | none => [.error .badOpening]
      | some label => blocks (some label) body rest
    else
      match current with
      | none => blocks none [] rest
      | some label =>
        if closes label line then
          let name := String.ofList label
          if knownLabels.contains name then
            match Base64.decodeLoose? body with
            | none => [.error (.badBase64 name)]
            | some content => .ok ⟨name, content⟩ :: blocks none [] rest
          else blocks none [] rest
        else blocks current (body ++ line) rest

/-- The certificates of a text, up to the first fault. -/
def certificateItems (text : String) : List (Except Fault Bytes) :=
  (blocks none [] (lines text.toList)).filterMap fun
    | .error e => some (.error e)
    | .ok b => if b.label = certificateLabel then some (.ok b.content) else none

/-- The certificates of a text. -/
def certificates? (text : String) : Except Fault (List Bytes) := (certificateItems text).mapM id

/-- The first certificate of a text; what comes after it does not matter. -/
def firstCertificate? (text : String) : Option Bytes :=
  match certificateItems text with
  | .ok b :: _ => some b
  | _ => none

/-! ### Reading a key -/

/-- Splits a text at the first place where `mark` stands. -/
def splitAt? (mark : List Char) : List Char → Option (List Char × List Char)
  | [] => if mark.isEmpty then some ([], []) else none
  | c :: rest =>
    if mark.isPrefixOf (c :: rest) then some ([], (c :: rest).drop mark.length)
    else (splitAt? mark rest).map fun (before, after) => (c :: before, after)

/-- Whether a character may stand between a label and a body. -/
def isGap (c : Char) : Bool := c = ' ' || c = '\t' || c = '\n' || c = '\r'

/-- The headers and the data of a body: an empty line divides them. -/
def headersAndData (body : List Char) : List Char × List Char :=
  match splitAt? "\n\n".toList body with
  | some parts => parts
  | none => (splitAt? "\r\n\r\n".toList body).getD ([], body)

/-- Whether every line of a header has a colon. -/
def headersOk (headers : List Char) : Bool :=
  (lines headers).all fun line => line.isEmpty || line.contains ':'

/-- The object of the first block of a text, whose two labels have to agree. -/
def key? (text : String) : Option Bytes := do
  let (_, rest) ← splitAt? openingStart text.toList
  let (label, rest) ← splitAt? "-----".toList rest
  let (body, rest) ← splitAt? "-----END ".toList (rest.dropWhile isGap)
  let (label', _) ← splitAt? "-----".toList rest
  let (headers, data) := headersAndData body
  if label.isEmpty || label ≠ label' || !headersOk headers then none
  else Base64.decode? (data.filter fun c => !Text.isBlank c)

end Pem

end DeviceAccess
