import DeviceAccess.Config.Coding
import DeviceAccess.Config.EnvFile
import DeviceAccess.Config.EnvValue
import DeviceAccess.Disk.Basic
import DeviceAccess.Document.Yaml

/-!
# Loading settings

Settings come from a YAML file, over which variables of the environment are laid: the variable
`EDGE_TRUST_SESSION__CAPACITY` is the key `capacity` in the section `session`, in any letter
case.  After that the environment files that the settings name are loaded, and `${NAME}` and
`${NAME:-default}` are replaced in the working directory, the authority's URIs and the
directories of outputs; a leading `~` is the home directory.  Only names in capitals are
replaced, so policy variables stay as they are.
-/

namespace DeviceAccess

namespace Settings

/-- What the names of variables that override settings start with. -/
def variableStart : String := "EDGE_TRUST_"

/-- A text cut at each `__`. -/
def cutAtDoubleUnderscore : List Char → List (List Char)
  | '_' :: '_' :: rest => [] :: cutAtDoubleUnderscore rest
  | c :: rest =>
    match cutAtDoubleUnderscore rest with
    | part :: parts => (c :: part) :: parts
    | [] => [[c]]
  | [] => [[]]

/-- The path of keys that a variable's name stands for, if it overrides a setting. -/
def overridePath? (name : String) : Option (List String) :=
  let chars := (Text.trimBlanks name.toList).map Char.toLower
  let start := variableStart.toList.map Char.toLower
  if !start.isPrefixOf chars then none
  else
    let rest := Text.trimBlanks (chars.drop start.length)
    let keys := (cutAtDoubleUnderscore rest).flatMap fun part =>
      (String.ofList part).splitOn "."
    if keys.any (· = "") then none else some keys

/-- The settings that variables override. -/
def overrides (env : Environment) : Document :=
  env.entries.foldl (fun d e =>
    match overridePath? e.1 with
    | some keys => d.overlay (Document.nested keys (EnvValue.parse e.2))
    | none => d) (.table [])

/-! ### Expansion -/

/-- Splits a text after a leading `${NAME}` or `${NAME:-default}`; the second part is the
default, empty if there is none. -/
def reference? (text : List Char) : Option (List Char × List Char × List Char) :=
  let isStart := fun (c : Char) => c.isUpper || c = '_'
  let isPart := fun (c : Char) => c.isUpper || c.isDigit || c = '_'
  match text with
  | '$' :: '\x7b' :: c :: body =>
    if isStart c then
      let name := c :: body.takeWhile isPart
      match body.dropWhile isPart with
      | '\x7d' :: rest => some (name, [], rest)
      | ':' :: '-' :: after =>
        let fallback := after.takeWhile (· ≠ '\x7d')
        match after.dropWhile (· ≠ '\x7d') with
        | _ :: rest => some (name, fallback, rest)
        | [] => none
      | _ => none
    else none
  | _ => none

theorem reference?_length {text name fallback rest : List Char}
    (h : reference? text = some (name, fallback, rest)) : rest.length < text.length := by
  have drop_le : ∀ (p : Char → Bool) (l : List Char), (l.dropWhile p).length ≤ l.length :=
    fun p l => (List.dropWhile_suffix p).length_le
  unfold reference? at h
  split at h
  · next c body =>
    simp only at h
    split at h
    · split at h
      · next rest' hb =>
        simp only [Option.some.injEq, Prod.mk.injEq] at h
        obtain ⟨_, _, rfl⟩ := h
        have := drop_le (fun c => c.isUpper || c.isDigit || c = '_') body
        rw [hb] at this
        simp only [List.length_cons] at this ⊢
        omega
      · next after hb =>
        split at h
        · next x rest' ha =>
          simp only [Option.some.injEq, Prod.mk.injEq] at h
          obtain ⟨_, _, rfl⟩ := h
          have h1 := drop_le (fun c => c.isUpper || c.isDigit || c = '_') body
          have h2 := drop_le (fun c => decide (c ≠ '\x7d')) after
          rw [hb] at h1
          rw [ha] at h2
          simp only [List.length_cons] at h1 h2 ⊢
          omega
        · exact nomatch h
      · exact nomatch h
    · exact nomatch h
  · exact nomatch h

/-- Replaces the references in a text. -/
def expandChars (env : Environment) (text : List Char) : List Char :=
  match _h : reference? text with
  | some (name, fallback, rest) =>
    (match env.get? (String.ofList name) with
      | some v => v.toList
      | none => fallback) ++ expandChars env rest
  | none =>
    match text with
    | [] => []
    | c :: rest => c :: expandChars env rest
termination_by text.length
decreasing_by
  · exact reference?_length _h
  · simp

/-- Replaces the references in a text. -/
def expandText (env : Environment) (text : String) : String :=
  String.ofList (expandChars env text.toList)

/-- Puts the home directory in the place of a leading `~`. -/
def expandHome (env : Environment) (text : String) : String :=
  match text.toList, env.get? "HOME" with
  | '~' :: rest, some home => if home = "" then text else home ++ String.ofList rest
  | _, _ => text

/-- The settings with references and `~` replaced. -/
def expand (s : Settings) (env : Environment) : Settings :=
  let path := fun (p : Path) => (⟨expandHome env (expandText env p.text)⟩ : Path)
  { s with
    workDir := path s.workDir
    authority := { s.authority with
      privateKeyUri := s.authority.privateKeyUri.map (expandText env)
      certificateUri := s.authority.certificateUri.map (expandText env) }
    outputs := s.outputs.map fun o => { o with directory := path o.directory } }

/-! ### Loading -/

/-- The environment after the files that the settings name were loaded, in their order. -/
def loadEnvFiles (s : Settings) (disk : Disk) (env : Environment) : Environment :=
  s.envFiles.foldl (fun env file =>
    match disk.readText ⟨expandHome env file⟩ with
    | .ok text => EnvFile.load env text
    | .error _ => env) env

/-- The document of a settings file; a directory counts as an empty file. -/
def readFile (disk : Disk) (path : Path) : Except Fault Document :=
  if !disk.holds path then .error (.configuration ("Config file not found: " ++ path.text))
  else if !disk.isFile path then .ok (.table [])
  else match disk.readText path with
    | .error e => .error (.configuration e.message)
    | .ok text =>
      match Yaml.parse text with
      | .error e => .error (.configuration e.message)
      | .ok none => .ok (.table [])
      | .ok (some (.table entries)) => .ok (Document.table entries).settled
      | .ok (some (.plain "")) => .ok (.table [])
      | .ok (some _) => .error (.configuration "invalid type: expected a map")

/-- Loads settings from a file, if one is given, and the environment.  The second part is the
environment with the variables of environment files. -/
def load (disk : Disk) (env : Environment) (path : Option Path) :
    Except Fault (Settings × Environment) := do
  let file ← match path with
    | some p => readFile disk p
    | none => pure (.table [])
  match read (file.overlay (overrides env)) with
  | .error e => throw (.configuration e.message)
  | .ok s =>
    let env := s.loadEnvFiles disk env
    return (s.expand env, env)

end Settings

end DeviceAccess
