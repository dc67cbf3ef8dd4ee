import FetchNow.Downloads.Models
import FetchNow.Downloads.Rfc8187
import FetchNow.Theory.Separators
import Mathlib.Data.List.DropRight

/-!
# Suggested filenames

The attachment name that is made of a title, the check a stored name has to pass, and the header
that carries it.
-/
namespace FetchNow

open Text Transactions Separators

namespace Filename

/-! ## Unicode -/

def blank : ℕ := 32

def dot : ℕ := 46

def bidi : List ℕ :=
  [0x061C, 0x200E, 0x200F, 0x202A, 0x202B, 0x202C, 0x202D, 0x202E, 0x2066, 0x2067, 0x2068, 0x2069]

def forbidden : List ℕ := codePoints "\\/:*?\"<>|" ++ [0]

/-- A scalar value: a code point that is no surrogate. -/
def isScalar (c : ℕ) : Bool := c < 0xD800 || 0xDFFF < c && c < 0x110000

/-- What becomes of a code point, given whether its category starts with a `C`. -/
def cleanPoint (isOther : ℕ → Bool) (c : ℕ) : Option ℕ :=
  if c ∈ bidi ∨ c ∈ forbidden then none
  else if isOther c then none
  else if Text.isSpace c then some blank
  else some c

/-- Nothing in the text is removed or replaced. -/
def Clean (isOther : ℕ → Bool) (s : Str) : Prop := ∀ c ∈ s, cleanPoint isOther c = some c

/-- `unicodedata` and `str.upper`. Controls and surrogates have a category of `C`, printable ASCII
has not. Normalization is idempotent, parts of normalized texts are normalized, ASCII is; it brings
nothing into a clean text that would be removed, and blanks and full stops, which compose with
nothing, stay where they are. -/
structure UnicodeData where
  nfc : Str → Str
  isOther : ℕ → Bool
  upper : Str → Str
  other_control : ∀ c, c < 32 ∨ 127 ≤ c ∧ c < 160 → isOther c = true
  other_not_scalar : ∀ c, isScalar c = false → isOther c = true
  other_printable : ∀ c, 32 ≤ c → c < 127 → isOther c = false
  nfc_nfc : ∀ s, nfc (nfc s) = nfc s
  nfc_infix : ∀ s t, nfc s = s → t <:+: s → nfc t = t
  nfc_ascii : ∀ s, (∀ c ∈ s, c < 128) → nfc s = s
  nfc_clean : ∀ s, Clean isOther s → Clean isOther (nfc s)
  nfc_blank : ActsBetween nfc blank
  nfc_dot : ActsBetween nfc dot

variable (data : UnicodeData)

/-! ## The stem -/

def reserved : List Str :=
  ["CON", "PRN", "AUX", "NUL", "COM1", "COM2", "COM3", "COM4", "COM5", "COM6", "COM7", "COM8",
    "COM9", "LPT1", "LPT2", "LPT3", "LPT4", "LPT5", "LPT6", "LPT7", "LPT8", "LPT9"].map codePoints

def maxStemChars : ℕ := 80

def maxStemUtf8Bytes : ℕ := 180

def maxFilenameChars : ℕ := 255

def maxFilenameUtf8Bytes : ℕ := 240

def cleaned (s : Str) : Str := s.filterMap (cleanPoint data.isOther)

/-- `_WHITESPACE.sub(" ", s)`, after white space or not. -/
def collapseFrom : Bool → Str → Str
  | _, [] => []
  | within, c :: s =>
    if Text.isSpace c then
      if within then collapseFrom true s else blank :: collapseFrom true s
    else c :: collapseFrom false s

def isEnd (c : ℕ) : Bool := c = blank || c = dot

/-- `s.rstrip(" .")` -/
def rstripEnds (s : Str) : Str := s.rdropWhile isEnd

/-- `s.strip(" .")` -/
def stripEnds (s : Str) : Str := rstripEnds (s.dropWhile isEnd)

/-- `_CONTROL.sub("", s)` -/
def removeControls (s : Str) : Str := s.filter fun c => !(c < 32 || 127 ≤ c && c < 160)

/-- The bytes a scalar value takes in UTF-8. -/
def utf8Bytes (c : ℕ) : ℕ :=
  if c < 0x80 then 1 else if c < 0x800 then 2 else if c < 0x10000 then 3 else 4

def utf8Size (s : Str) : ℕ := (s.map utf8Bytes).sum

/-- The first bytes of the encoded text, decoded without what is incomplete at their end. -/
def takeBytes : ℕ → Str → Str
  | _, [] => []
  | limit, c :: s => if utf8Bytes c ≤ limit then c :: takeBytes (limit - utf8Bytes c) s else []

/-- A title without what a filename must not have. -/
def reduced (raw : Str) : Str :=
  removeControls (stripEnds (collapseFrom false (cleaned data (data.nfc raw))))

def cutChars (s : Str) : Str :=
  if maxStemChars < s.length then rstripEnds (s.take maxStemChars) else s

def cutBytes (s : Str) : Str :=
  if maxStemUtf8Bytes < utf8Size s then rstripEnds (takeBytes maxStemUtf8Bytes s) else s

def isNoName (s : Str) : Bool := s = [] || s = [dot] || s = [dot, dot]

def isReserved (name : Str) : Bool := reserved.contains (data.upper name)

def sanitizeStem (raw : Option Str) : Option Str :=
  raw.bind fun raw =>
    let collapsed := reduced data raw
    if isNoName collapsed then none
    else if isReserved data (collapsed.takeWhile (· ≠ dot)) then none
    else
      let collapsed := cutBytes (cutChars collapsed)
      if isNoName collapsed then none
      else if isReserved data collapsed then none
      else some collapsed

/-! ## The name -/

/-- What the functions raise; all of these are `ValueError`s. -/
inductive FilenameError
  | unsafeContainer
  | unsafeAsciiFallback
  | unsafeAsciiFilename
  | unsafeUnicodeFilename
  | headerInjection
  | unicodeEncodeError
  deriving DecidableEq, Repr

/-- The id of a download job, as its hexadecimal digits. -/
structure JobUuid where
  digits : List ℕ
  length : digits.length = 32
  hex : ∀ d ∈ digits, d < 16

def lowerHexDigit (n : ℕ) : ℕ := if n < 10 then 48 + n else 87 + n

/-- `str(download_job_id)` -/
def JobUuid.text (id : JobUuid) : Str :=
  let hex := id.digits.map lowerHexDigit
  hex.take 8 ++ codePoint '-' :: (hex.drop 8).take 4 ++ codePoint '-' :: (hex.drop 12).take 4 ++
    codePoint '-' :: (hex.drop 16).take 4 ++ codePoint '-' :: hex.drop 20

def allowedContainers : List Str :=
  ["mp4", "webm", "mkv", "m4a", "mp3", "ogg", "opus", "aac"].map codePoints

/-- `_CONTAINER_RE.fullmatch` -/
def matchesContainer (ext : Str) : Bool :=
  2 ≤ ext.length && ext.length ≤ 8 && ext.all fun c => 97 ≤ c && c ≤ 122 || isAsciiDigit c

def validatedContainer (container : Str) : Except FilenameError Str := do
  let ext := lower (stripped container)
  require (matchesContainer ext = true ∧ ext ∈ allowedContainers) .unsafeContainer
  return ext

def fallbackFilename (id : JobUuid) (container : Str) : Except FilenameError Str := do
  let ext ← validatedContainer container
  return codePoints "fetchnow-" ++ id.text ++ dot :: ext

/-- Surrogates cannot be encoded. -/
def filenameBoundsOk (name : Str) : Except FilenameError Bool := do
  if name = [] ∨ maxFilenameChars < name.length then return false
  require (name.all isScalar = true) .unicodeEncodeError
  return 1 ≤ utf8Size name && utf8Size name ≤ maxFilenameUtf8Bytes

def kindSuffix : MediaKind → Str
  | .normalVideo => []
  | .videoOnly => codePoints "-video"
  | .audioOnly => codePoints "-audio"

/-- The stem with the suffix of its kind. -/
def suffixedStem (stem : Str) (kind : MediaKind) : Option Str :=
  if kindSuffix kind = [] then some stem
  else sanitizeStem data (some (stem ++ kindSuffix kind))

def suggestedFilenameFor (title : Option Str) (container : Str) (id : JobUuid) (kind : MediaKind) :
    Except FilenameError Str := do
  let ext ← validatedContainer container
  let fallback ← fallbackFilename id ext
  match sanitizeStem data title with
  | none => return fallback
  | some stem =>
    match suffixedStem data stem kind with
    | none => return fallback
    | some stem => do
      let name := stem ++ dot :: ext
      if ← filenameBoundsOk name then return name else return fallback

/-! ## The check of a stored name -/

/-- One test for each character, and what is left behind them. -/
def matchEach : List (ℕ → Bool) → Str → Option Str
  | [], s => some s
  | _ :: _, [] => none
  | p :: ps, c :: s => if p c then matchEach ps s else none

def isCaseless (letter c : ℕ) : Bool := c = letter || 97 ≤ letter && letter ≤ 122 && c + 32 = letter

def isHexDigit (c : ℕ) : Bool := isAsciiDigit c || 65 ≤ c && c ≤ 70 || 97 ≤ c && c ≤ 102

/-- `[a-z0-9]` without regard to case, with the four letters past ASCII that this admits. -/
def isExtensionChar (c : ℕ) : Bool :=
  isAsciiDigit c || 65 ≤ c && c ≤ 90 || 97 ≤ c && c ≤ 122 ||
    [0x130, 0x131, 0x17F, 0x212A].contains c

def uuidFallbackTests : List (ℕ → Bool) :=
  (codePoints "fetchnow-").map isCaseless ++ List.replicate 8 isHexDigit ++
    isCaseless 45 :: List.replicate 4 isHexDigit ++ isCaseless 45 :: List.replicate 4 isHexDigit ++
    isCaseless 45 :: List.replicate 4 isHexDigit ++ isCaseless 45 :: List.replicate 12 isHexDigit ++
    [isCaseless dot]

/-- `_UUID_FALLBACK.fullmatch` -/
def matchesUuidFallback (name : Str) : Bool :=
  (matchEach uuidFallbackTests name).any fun ext =>
    2 ≤ ext.length && ext.length ≤ 8 && ext.all isExtensionChar

def isSafeSuggestedFilename (name container : Str) : Except FilenameError Bool := do
  let ext ← validatedContainer container
  if ¬ dot :: ext <:+ name then return false
  if !(← filenameBoundsOk name) then return false
  if name.any fun c => forbidden.contains c || c = 13 || c = 10 then return false
  let stem := name.take (name.length - (ext.length + 1))
  if some stem ≠ sanitizeStem data (some stem) then return matchesUuidFallback name
  return true

/-! ## The header -/

def isAsciiToken (value : Str) : Bool :=
  value ≠ [] && value.all fun c => c < 128 && 32 ≤ c && c ≤ 126 &&
    !(codePoints "\"\\\r\n").contains c

def asciiFilenameParameter (name fallback : Str) : Except FilenameError Str := do
  if isAsciiToken name then return name
  require (isAsciiToken fallback = true) .unsafeAsciiFallback
  return fallback

/-- The text as a string of scalar values, if it is one. -/
def asString (s : Str) : Except FilenameError String := do
  require (s.all isScalar = true) .unicodeEncodeError
  return String.ofList (s.map Char.ofNat)

def contentDispositionHeader (filename asciiFallback : Str) : Except FilenameError Str := do
  let asciiName ← asciiFilenameParameter filename asciiFallback
  require (¬ asciiName.any (codePoints "\"\\\r\n").contains) .unsafeAsciiFilename
  require (¬ filename.any [13, 10, 0].contains) .unsafeUnicodeFilename
  let text ← asString filename
  let header := codePoints "attachment; filename=\"" ++ asciiName ++
    codePoints "\"; filename*=" ++ encodeRfc8187 text
  require (¬ header.any [13, 10, 0].contains) .headerInjection
  return header

/-- The check constraint of the column. -/
def CheckSuggestedFilename (name : Str) : Prop :=
  1 ≤ name.length ∧ name.length ≤ 255 ∧ codePoint '/' ∉ name ∧ codePoint '\\' ∉ name ∧
    10 ∉ name ∧ 13 ∉ name

end Filename

end FetchNow
