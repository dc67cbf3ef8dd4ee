import FetchNow.MediaFlow.EcmaScript
import FetchNow.Theory.Comparators
import FetchNow.Theory.Grouping

/-!
# Quality rows

Formats of the same quality are grouped, and each group is shown as one row.
-/
namespace FetchNow.Quality

open EcmaScript Comparators Grouping

/-! ## Formats -/

def isHexDigit (c : ℕ) : Bool := 48 ≤ c && c ≤ 57 || 97 ≤ c && c ≤ 102

/-- `FORMAT_OPTION_RE`. -/
def isFormatOptionId (s : JsString) : Bool :=
  s.take 4 == codePoints "fmt_" && s.length == 32 && (s.drop 4).all isHexDigit

/-- An identifier that `parseMediaFormat` has accepted. -/
abbrev FormatOptionId := {s : JsString // isFormatOptionId s = true}

def isContainer (s : JsString) : Bool :=
  2 ≤ s.length && s.length ≤ 8 && s.all fun c => 48 ≤ c && c ≤ 57 || 97 ≤ c && c ≤ 122

/-- A container that `parseMediaFormat` has accepted. No property of every object has such a name,
so that a lookup in `CONTAINER_RANK` finds its own entries only. -/
abbrev Container := {s : JsString // isContainer s = true}

inductive FormatCategory where
  | progressive
  | videoOnly
  | audioOnly
  deriving DecidableEq, Repr

inductive MediaKind where
  | normalVideo
  | videoOnly
  | audioOnly
  deriving DecidableEq, Repr

def MediaKind.value : MediaKind → JsString
  | normalVideo => codePoints "normal_video"
  | videoOnly => codePoints "video_only"
  | audioOnly => codePoints "audio_only"

structure MediaFormat where
  formatOptionId : FormatOptionId
  container : Container
  height : Option Number
  fps : Option Number
  hasVideo : Bool
  hasAudio : Bool
  category : FormatCategory
  videoCodec : JsString
  audioCodec : JsString
  approxBytes : Option Number
  qualityLabel : JsString
  freeTierEligible : Bool
  mediaKind : MediaKind
  bitrateKbps : Option Number
  deriving DecidableEq

/-- The functions of the runtime that read tables or write numbers. `localeCompare` compares by a
sort key, which tells identifiers of formats apart; integers below `10 ^ 21` are written in plain
digits, so that `parseInt` reads them back. -/
structure Runtime where
  toLowerCase : JsString → JsString
  sortKey : JsString → List ℕ
  numberText : Number → JsString
  parseInt : JsString → Option Number
  sortKey_ids : ∀ a b : FormatOptionId, sortKey a.1 = sortKey b.1 → a = b
  numberText_inj : ∀ a b, numberText a = numberText b → a = b
  parseInt_text : ∀ x : Number, 0 ≤ x.1 → x.1 < 10 ^ 21 → trunc x = x →
    parseInt (numberText x) = some x

structure QualityOption where
  key : JsString
  representative : MediaFormat
  members : List MediaFormat
  label : JsString
  eligible : Bool
  deriving DecidableEq

structure QualityGroupingOptions where
  muxingBlocked : Bool := false
  selectedFormatId : Option JsString := none

/-- `Number` of a boolean. -/
def number (b : Bool) : ℕ := b.toNat

def isDownloadEligible (format : MediaFormat) : Bool :=
  format.category = .progressive && format.hasVideo && format.hasAudio &&
    format.freeTierEligible && isFormatOptionId format.formatOptionId.1

def isDisplayableFormat (format : MediaFormat) : Bool :=
  format.category = .progressive && format.hasVideo && format.hasAudio

def isSelectableFormat (format : MediaFormat) (muxingBlocked : Bool) : Bool :=
  !muxingBlocked && isDownloadEligible format

/-! ## Keys and labels -/

def CONTAINER_RANK : List (JsString × ℕ) := [(codePoints "mp4", 0), (codePoints "webm", 1)]

def UNKNOWN_CONTAINER_RANK : ℕ := 2

def containerRank (container : Container) : ℕ :=
  (CONTAINER_RANK.lookup container.1).getD UNKNOWN_CONTAINER_RANK

def positive (x : Option Number) : Option Number := x.filter fun x => decide (0 < x.1)

def finiteHeight (format : MediaFormat) : Option Number := (positive format.height).map trunc

variable (rt : Runtime)

def normalizeQualityLabel (label : JsString) : JsString := joinSpaces (rt.toLowerCase (trim label))

def qualityGroupKey (format : MediaFormat) : JsString :=
  match finiteHeight format with
  | some height => codePoints "h:" ++ rt.numberText height
  | none => codePoints "l:" ++ normalizeQualityLabel rt format.qualityLabel

def isDigit (c : ℕ) : Bool := 48 ≤ c && c ≤ 57

/-- The height of a label such as `p720`. -/
def shorthandHeight (label : JsString) : Option Number :=
  match trim label with
  | [] => none
  | c :: digits =>
    if (c = 112 ∨ c = 80) ∧ digits ≠ [] ∧ digits.all isDigit then positive (rt.parseInt digits)
    else none

def qualityTierLabel (format : MediaFormat) : JsString :=
  match (finiteHeight format).orElse fun _ => shorthandHeight rt format.qualityLabel with
  | none => codePoints "Качество"
  | some height =>
    if 720 ≤ height.1 then codePoints "Высокое"
    else if 480 ≤ height.1 then codePoints "Среднее"
    else codePoints "Низкое"

def qualityTechnicalLabel (format : MediaFormat) : JsString :=
  match finiteHeight format with
  | some height => rt.numberText height ++ codePoints "p"
  | none =>
    let label := trim format.qualityLabel
    match shorthandHeight rt label with
    | some inferredHeight => rt.numberText inferredHeight ++ codePoints "p"
    | none => if label ≠ [] then label else codePoints "Неизвестное качество"

def qualityDisplayLabel (format : MediaFormat) : JsString :=
  qualityTierLabel rt format ++ codePoints " (" ++ qualityTechnicalLabel rt format ++ codePoints ")"

/-! ## Rankings -/

def localeCompare (a b : JsString) : Ordering := cmp (rt.sortKey a) (rt.sortKey b)

/-- The higher number first, an unknown one last. -/
def higherFirst : Option Number → Option Number → Ordering := nullsLast fun a b => cmp b a

/-- The lower number first, an unknown one last. -/
def lowerFirst : Option Number → Option Number → Ordering := nullsLast cmp

def compareRepresentatives (options : QualityGroupingOptions) (left right : MediaFormat) :
    Ordering :=
  let muxingBlocked := options.muxingBlocked
  let selectedFormatId := options.selectedFormatId
  (cmp (number !(isSelectableFormat left muxingBlocked))
      (number !(isSelectableFormat right muxingBlocked))).then <|
    (cmp (number (some left.formatOptionId.1 ≠ selectedFormatId))
      (number (some right.formatOptionId.1 ≠ selectedFormatId))).then <|
    (cmp (containerRank left.container) (containerRank right.container)).then <|
    (cmp left.container.1 right.container.1).then <|
    (higherFirst left.fps right.fps).then <|
    (lowerFirst left.approxBytes right.approxBytes).then <|
    localeCompare rt left.formatOptionId.1 right.formatOptionId.1

def groupHeight (key : JsString) : Option Number :=
  if codePoints "h:" <+: key then rt.parseInt (key.drop 2) else none

def compareOptions (left right : QualityOption) : Ordering :=
  (higherFirst (groupHeight rt left.key) (groupHeight rt right.key)).then <|
    (cmp left.key right.key).then <|
    localeCompare rt left.representative.formatOptionId.1 right.representative.formatOptionId.1

/-! ## Rows -/

/-- The row of a group. -/
def qualityRow (options : QualityGroupingOptions) (group : JsString × List MediaFormat) :
    Option QualityOption :=
  let ordered := sortBy (compareRepresentatives rt options) group.2
  ordered.head?.map fun representative =>
    { key := group.1, representative, members := ordered
      label := qualityDisplayLabel rt representative
      eligible := isSelectableFormat representative options.muxingBlocked }

def groupQualityOptions (formats : List MediaFormat) (options : QualityGroupingOptions) :
    List QualityOption :=
  let groups := groupBy (qualityGroupKey rt) (formats.filter isDisplayableFormat)
  sortBy (compareOptions rt) (groups.filterMap (qualityRow rt options))

def pickHighestEligibleFormat (formats : List MediaFormat) (options : QualityGroupingOptions) :
    Option JsString :=
  match (groupQualityOptions rt formats options).filter (·.eligible) with
  | [] => none
  | row :: _ => some row.representative.formatOptionId.1

def reconcileSelectedFormatId (formats : List MediaFormat) (selectedFormatId : Option JsString)
    (options : QualityGroupingOptions) : Option JsString :=
  match selectedFormatId with
  | none | some [] => none
  | some selectedFormatId =>
    (formats.find? fun format => format.formatOptionId.1 = selectedFormatId &&
      isDisplayableFormat format && isSelectableFormat format options.muxingBlocked).map
        (·.formatOptionId.1)

/-! ## Standalone rows -/

def metric (format : MediaFormat) : Option Number :=
  positive (if format.mediaKind = .videoOnly then format.height else format.bitrateKbps)

def metricOr (format : MediaFormat) : ℚ := (metric format).elim (-1) (·.1)

def standaloneKey (format : MediaFormat) : JsString :=
  format.mediaKind.value ++ codePoints ":" ++
    match metric format with
    | some n => rt.numberText n
    | none => normalizeQualityLabel rt format.qualityLabel

def compareMembers (selectedFormatId : Option JsString) (a b : MediaFormat) : Ordering :=
  (cmp (number (some b.formatOptionId.1 = selectedFormatId))
      (number (some a.formatOptionId.1 = selectedFormatId))).then <|
    (cmp (number (b.container.1 = codePoints "mp4"))
      (number (a.container.1 = codePoints "mp4"))).then <|
    (localeCompare rt a.container.1 b.container.1).then <|
    (localeCompare rt a.audioCodec b.audioCodec).then <|
    (localeCompare rt a.videoCodec b.videoCodec).then <|
    localeCompare rt a.formatOptionId.1 b.formatOptionId.1

def compareStandalone (a b : QualityOption) : Ordering :=
  (localeCompare rt a.representative.mediaKind.value b.representative.mediaKind.value).then <|
    (cmp (metricOr b.representative) (metricOr a.representative)).then <|
    (localeCompare rt a.key b.key).then <|
    localeCompare rt a.representative.formatOptionId.1 b.representative.formatOptionId.1

def standaloneRow (premiumActive : Bool) (selectedFormatId : Option JsString)
    (group : JsString × List MediaFormat) : Option QualityOption :=
  let members := sortBy (compareMembers rt selectedFormatId) group.2
  members.head?.map fun representative =>
    { key := group.1, representative, members, label := representative.qualityLabel
      eligible := premiumActive }

def groupStandaloneOptions (formats : List MediaFormat) (premiumActive : Bool)
    (selectedFormatId : Option JsString) : List QualityOption :=
  let groups := groupBy (standaloneKey rt) (formats.filter fun f => f.mediaKind ≠ .normalVideo)
  sortBy (compareStandalone rt) (groups.filterMap (standaloneRow rt premiumActive selectedFormatId))

end FetchNow.Quality
