import FetchNow.Audit.Requirements

/-!
# Env files

`load_env_file`, the allowlisted runtime configuration, and the env file that a rollback of it
writes. A file is what its UTF-8 decodes to.
-/
namespace FetchNow.EnvFile

open Audit (splitlines)

/-- A `dict` of texts, in its order. -/
abbrev Values := List (List Char × List Char)

def Values.keys (values : Values) : List (List Char) := values.map Prod.fst

/-! ## Reading -/

inductive EnvFileError where
  | missingEquals (lineno : ℕ)
  | invalidKey (lineno : ℕ) (key : List Char)
  | duplicateKey (key : List Char)
  deriving DecidableEq, Repr

/-- What reading in text mode does to the ends of lines. -/
def universalNewlines : List Char → List Char
  | [] => []
  | '\r' :: '\n' :: rest => '\n' :: universalNewlines rest
  | '\r' :: rest => '\n' :: universalNewlines rest
  | c :: rest => c :: universalNewlines rest

def isKeyStart (c : Char) : Bool := c.isAlpha || c = '_'

def isKeyChar (c : Char) : Bool := c.isAlphanum || c = '_'

/-- `_KEY_RE.fullmatch(key)`. -/
def isKey : List Char → Bool
  | [] => false
  | c :: rest => isKeyStart c && rest.all isKeyChar

def isQuote (c : Char) : Bool := c = '"' || c = '\''

/-- Surrounding quotes, without escapes. -/
def unquote (value : List Char) : List Char :=
  if 2 ≤ value.length ∧ value.head? = value.getLast? ∧ value.head?.any isQuote then
    value.tail.dropLast
  else value

/-- What a line says, if anything. -/
def readLine (lineno : ℕ) (raw : List Char) :
    Except EnvFileError (Option (List Char × List Char)) :=
  let line := strip raw
  if line = [] ∨ line.head? = some '#' then .ok none
  else if '=' ∉ line then .error (.missingEquals lineno)
  else
    let key := strip (line.takeWhile (· ≠ '='))
    if isKey key then .ok (some (key, unquote (line.dropWhile (· ≠ '=')).tail))
    else .error (.invalidKey lineno key)

/-- The loop of `load_env_file`. -/
def readLines (lineno : ℕ) (values : Values) : List (List Char) → Except EnvFileError Values
  | [] => .ok values
  | raw :: rest =>
    match readLine lineno raw with
    | .error e => .error e
    | .ok none => readLines (lineno + 1) values rest
    | .ok (some item) =>
      if item.1 ∈ values.keys then .error (.duplicateKey item.1)
      else readLines (lineno + 1) (values ++ [item]) rest

/-- `load_env_file`, on the text of a file that it opens. -/
def loadEnvFile (file : List Char) : Except EnvFileError Values :=
  readLines 1 [] (splitlines (universalNewlines file))

/-! ## The reviewed runtime configuration -/

inductive Kind where
  | boolean
  | integer (minimum maximum : ℕ)
  deriving DecidableEq, Repr

def RUNTIME_CONFIG_ALLOWLIST : List (String × Kind) :=
  [("PREMIUM_TEST_CHECKOUT_VISIBLE", .boolean),
    ("FREE_DOWNLOAD_QUOTA_ENABLED", .boolean),
    ("FREE_DOWNLOAD_QUOTA_READY_COMPATIBILITY_MODE", .boolean),
    ("FREE_DELIVERY_RATE_LIMIT_ENABLED", .boolean),
    ("FREE_DELIVERY_RATE_BYTES_PER_SECOND", .integer 262144 67108864)]

inductive ConfigContractError where
  | keys
  | boolean (key : String)
  | unsignedInteger (key : String)
  | canonicalForm (key : String)
  | belowMinimum (key : String)
  | aboveMaximum (key : String)
  deriving DecidableEq, Repr

/-- `str.lower`. No letter past ASCII has a lower case that occurs in `true` or `false`. -/
def lower (s : List Char) : List Char := s.map Char.toLower

def normalizeBoolean (key : String) (value : List Char) :
    Except ConfigContractError (List Char) :=
  let normalized := lower (strip value)
  if normalized = "true".toList ∨ normalized = "false".toList then .ok normalized
  else .error (.boolean key)

/-- The number that ASCII digits stand for. -/
def numberOf (digits : List Char) : ℕ := digits.foldl (fun n c => 10 * n + (c.toNat - 48)) 0

def normalizeInteger (key : String) (minimum maximum : ℕ) (value : List Char) :
    Except ConfigContractError (List Char) :=
  let raw := strip value
  if raw = [] ∨ raw.all Char.isDigit = false then .error (.unsignedInteger key)
  else if 1 < raw.length ∧ raw.head? = some '0' then .error (.canonicalForm key)
  else if numberOf raw < minimum then .error (.belowMinimum key)
  else if maximum < numberOf raw then .error (.aboveMaximum key)
  else .ok raw

def normalizeValue (key : String) (value : List Char) :
    Kind → Except ConfigContractError (List Char)
  | .boolean => normalizeBoolean key value
  | .integer minimum maximum => normalizeInteger key minimum maximum value

/-- The values in the order of the specifications; `sorted` only decides which error comes first. -/
def normalizeEach (values : Values) :
    List (String × Kind) → Except ConfigContractError Values
  | [] => .ok []
  | (key, kind) :: specs =>
    match values.lookup key.toList with
    | none => .error .keys
    | some value => do
      let normalized ← normalizeValue key value kind
      let rest ← normalizeEach values specs
      return (key.toList, normalized) :: rest

/-- What `runtime_config_fingerprint` takes its digest of. -/
def normalizeRuntimeValues (values : Values) : Except ConfigContractError Values :=
  if values.keys.all (· ∈ RUNTIME_CONFIG_ALLOWLIST.map fun spec => spec.1.toList) then
    normalizeEach values RUNTIME_CONFIG_ALLOWLIST
  else .error .keys

/-! ## The env file of a rollback -/

/-- `duplicate env key blocks rollback`. -/
structure ConfigRolloutError where
  key : List Char
  deriving DecidableEq, Repr

def assignment (key value : List Char) : List Char := key ++ '=' :: value

/-- Where `(?m)^KEY=.*$` matches. Such a match ends with its line, before a line feed; a key has no
characters that a pattern would read otherwise. -/
def begins (key line : List Char) : Bool := (assignment key []).isPrefixOf line

/-- `pattern.sub(replacement, text, count=1)`, by lines. No value that is allowed has a backslash. -/
def subFirst (key value : List Char) : List (List Char) → List (List Char)
  | [] => []
  | line :: rest =>
    if begins key line then assignment key value :: rest else line :: subFirst key value rest

/-- One turn of the loop of `_rollback_env_file`. -/
def setKey (text key value : List Char) : Except ConfigRolloutError (List Char) :=
  let lines := text.splitOn '\n'
  let found := lines.filter (begins key)
  if 1 < found.length then .error ⟨key⟩
  else if found ≠ [] then .ok (['\n'].intercalate (subFirst key value lines))
  else
    let text := if text ≠ [] ∧ text.getLast? ≠ some '\n' then text ++ ['\n'] else text
    .ok (text ++ (assignment key value ++ ['\n']))

def setKeys (text : List Char) : Values → Except ConfigRolloutError (List Char)
  | [] => .ok text
  | (key, value) :: previous => (setKey text key value).bind fun text => setKeys text previous

/-- `_rollback_env_file`: what is written. -/
def rollbackEnvFile (file : List Char) (previous : Values) :
    Except ConfigRolloutError (List Char) :=
  setKeys (universalNewlines file) previous

end FetchNow.EnvFile
