import FetchNow.Downloads.Filename
import FetchNow.MediaFlow.EcmaScript

/-!
# Suggested filenames in the browser

The check that a name of the server has to pass there, and the header that it is read from.
-/
namespace FetchNow.WebFilename

open EcmaScript

/-- The tables of the Unicode version that both runtimes have. The byte order mark is a format
character, and normalization makes no surrogates. -/
structure SharedUnicode extends Filename.UnicodeData where
  other_mark : isOther 0xFEFF = true
  nfc_scalar : ∀ s, (∀ c ∈ s, Utf16.Scalar c) → ∀ c ∈ nfc s, Utf16.Scalar c

variable (data : SharedUnicode)

/-- `s.normalize("NFC")`. -/
def normalize (s : JsString) : JsString := Utf16.encode (data.nfc (Utf16.decode s))

def toUpperCase (s : JsString) : JsString := Utf16.encode (data.upper (Utf16.decode s))

/-! ## The stem -/

def FORBIDDEN_FILENAME_CHARS : List ℕ := codePoints "/\\:*?\"<>|" ++ [0]

def BIDI_CODEPOINTS : List ℕ :=
  [0x061c, 0x200e, 0x200f, 0x202a, 0x202b, 0x202c, 0x202d, 0x202e, 0x2066, 0x2067, 0x2068, 0x2069]

def WINDOWS_RESERVED : List JsString :=
  ["CON", "PRN", "AUX", "NUL"].map codePoints ++
    (List.range 9).map (fun i => codePoints "COM" ++ [49 + i]) ++
    (List.range 9).map (fun i => codePoints "LPT" ++ [49 + i])

def MAX_FILENAME_CHARS : ℕ := 255

def MAX_FILENAME_UTF8_BYTES : ℕ := 240

def MAX_STEM_CHARS : ℕ := 80

def MAX_STEM_UTF8_BYTES : ℕ := 180

def ALLOWED_CONTAINERS : List JsString :=
  ["mp4", "webm", "mkv", "m4a", "mp3", "ogg", "opus", "aac"].map codePoints

/-- What the loop over the characters makes of one. -/
def cleanChar (code : ℕ) : Option ℕ :=
  if BIDI_CODEPOINTS.contains code || FORBIDDEN_FILENAME_CHARS.contains code then none
  else if 0xd800 ≤ code && code ≤ 0xdfff then none
  else if data.isOther code then none
  else if isWhiteSpace code then some 32
  else some code

def cleaned (text : JsString) : JsString :=
  Utf16.encode ((Utf16.decode text).filterMap (cleanChar data))

def isEnd (u : ℕ) : Bool := u == 32 || u == 46

/-- `.replace(/[ .]+$/g, "")`. -/
def stripEnd (s : JsString) : JsString := s.rdropWhile isEnd

/-- `.replace(/^[ .]+|[ .]+$/g, "")`. -/
def stripEnds (s : JsString) : JsString := stripEnd (s.dropWhile isEnd)

def unicodeCharCount (text : JsString) : ℕ := (Utf16.decode text).length

def unicodePrefix (text : JsString) (maxChars : ℕ) : JsString :=
  let chars := Utf16.decode text
  if chars.length ≤ maxChars then text else Utf16.encode (chars.take maxChars)

/-- The loop of `decodeUtf8IgnoreIncomplete`. -/
def decodeFrom (bytes : List UInt8) : ℕ → JsString
  | 0 => []
  | n + 1 =>
    match textDecode (bytes.take (n + 1)) with
    | some text => text
    | none => decodeFrom bytes n

def decodeUtf8IgnoreIncomplete (bytes : List UInt8) : JsString := decodeFrom bytes bytes.length

def isNoName (s : JsString) : Bool := s == [] || s == [46] || s == [46, 46]

def cutChars (collapsed : JsString) : JsString :=
  if MAX_STEM_CHARS < unicodeCharCount collapsed then
    stripEnd (unicodePrefix collapsed MAX_STEM_CHARS)
  else collapsed

def cutBytes (collapsed : JsString) : JsString :=
  let encoded := textEncode collapsed
  if MAX_STEM_UTF8_BYTES < encoded.length then
    stripEnd (decodeUtf8IgnoreIncomplete (encoded.take MAX_STEM_UTF8_BYTES))
  else collapsed

def sanitizeFilenameStem (raw : Option JsString) : Option JsString :=
  raw.bind fun raw =>
    let text := normalize data raw
    let collapsed := stripEnds (joinSpaces (cleaned data text))
    if isNoName collapsed then none
    else if WINDOWS_RESERVED.contains (toUpperCase data (collapsed.takeWhile (· ≠ 46))) then none
    else
      let collapsed := cutBytes (cutChars collapsed)
      if isNoName collapsed then none
      else if WINDOWS_RESERVED.contains (toUpperCase data collapsed) then none
      else some collapsed

/-! ## The check -/

/-- `[a-z0-9]` without regard to case, which admits nothing past ASCII here. -/
def isExtensionUnit (u : ℕ) : Bool :=
  Text.isAsciiDigit u || 65 ≤ u && u ≤ 90 || 97 ≤ u && u ≤ 122

/-- `UUID_FALLBACK_NAME`; each of its tests but the last one is that of the server's pattern. -/
def UUID_FALLBACK_NAME (name : JsString) : Bool :=
  (Filename.matchEach Filename.uuidFallbackTests name).any fun ext =>
    2 ≤ ext.length && ext.length ≤ 8 && ext.all isExtensionUnit

def isSafeSuggestedFilename (name container : JsString) : Bool :=
  if !ALLOWED_CONTAINERS.contains container then false
  else
    let suffix := 46 :: container
    let count := unicodeCharCount name
    let utf8 := textEncode name
    let chars := Utf16.decode name
    if ¬ suffix <:+ name then false
    else if count < 1 ∨ MAX_FILENAME_CHARS < count then false
    else if utf8.length < 1 ∨ MAX_FILENAME_UTF8_BYTES < utf8.length then false
    else if chars.any FORBIDDEN_FILENAME_CHARS.contains || name.contains 13 || name.contains 10 then
      false
    else
      let stem := Utf16.encode (chars.take (chars.length - suffix.length))
      if some stem ≠ sanitizeFilenameStem data (some stem) then UUID_FALLBACK_NAME name else true

/-! ## The header -/

/-- The bytes of a raw value, unless it is malformed. -/
def rawBytes : JsString → Option (List UInt8)
  | [] => some []
  | c :: rest =>
    if c = Filename.percent then
      match rest with
      | x :: y :: rest =>
        match Text.digitValue 16 x, Text.digitValue 16 y with
        | some a, some b => (rawBytes rest).map (UInt8.ofNat (a * 16 + b) :: ·)
        | _, _ => none
      | _ => none
    else if Filename.isAttrChar c then (rawBytes rest).map (UInt8.ofNat c :: ·)
    else none

def decodeRfc8187 (value : JsString) : Option JsString :=
  if ¬ Filename.extPrefix <+: value then none
  else
    let raw := value.drop 7
    if raw = [] then none else (rawBytes raw).bind textDecode

/-- A part that is not blank is added. -/
def pushPart (parts : List JsString) (buf : JsString) : List JsString :=
  let trimmed := trim buf
  if trimmed ≠ [] then parts ++ [trimmed] else parts

/-- The loop of `splitHeaderParts`. -/
def splitFrom : JsString → List JsString → JsString → Bool → Option (List JsString)
  | [], parts, buf, inQuotes => if inQuotes then none else some (pushPart parts buf)
  | c :: rest, parts, buf, inQuotes =>
    if c = 92 ∧ inQuotes then none
    else if c = 34 then splitFrom rest parts (buf ++ [c]) !inQuotes
    else if c = 59 ∧ !inQuotes then splitFrom rest (pushPart parts buf) [] inQuotes
    else splitFrom rest parts (buf ++ [c]) inQuotes

def splitHeaderParts (header : JsString) : Option (List JsString) :=
  if header.any [13, 10, 0].contains then none else splitFrom header [] [] false

/-- The name in quotes of a `filename` part. -/
def quotedName (rawValue : JsString) : Option JsString :=
  if rawValue.head? ≠ some 34 ∨ rawValue.getLast? ≠ some 34 ∨ rawValue.length < 2 then none
  else
    let asciiName := (rawValue.drop 1).dropLast
    if asciiName.any [13, 10, 0, 34, 92].contains ∨ ¬ asciiName.all fun u => 32 ≤ u && u ≤ 126 then
      none
    else some asciiName

/-- The loop over the parts behind the first one. -/
def readParts : List JsString → Option JsString → Option JsString → Option JsString
  | [], asciiName, encoded => if asciiName = none then none else encoded
  | part :: rest, asciiName, encoded =>
    match Text.splitOnce 61 part with
    | none => none
    | some (before, after) =>
      let key := Text.lower (trim before)
      let rawValue := trim after
      if before = [] then none
      else if key = codePoints "filename" then
        if asciiName ≠ none then none
        else (quotedName rawValue).bind fun asciiName => readParts rest (some asciiName) encoded
      else if key = codePoints "filename*" then
        if encoded ≠ none then none else readParts rest asciiName (some rawValue)
      else none

def parseContentDispositionFilename (header : Option JsString) (expected : JsString) :
    Option JsString :=
  match header with
  | none | some [] => none
  | some header =>
    match splitHeaderParts (trim header) with
    | some (first :: second :: third :: rest) =>
      if Text.lower first ≠ codePoints "attachment" then none
      else
        (readParts (second :: third :: rest) none none).bind fun encoded =>
          let decoded := decodeRfc8187 encoded
          if decoded ≠ some expected then none else decoded
    | _ => none

end FetchNow.WebFilename
