import FetchNow.Downloads.States
import FetchNow.Jobs.Models

/-!
# What the browser keeps of the backend's answers

Identifiers, access tokens and format options are values that the client's grammar checks accept,
so a type stands for the check. Times are in milliseconds.
-/
namespace FetchNow.MediaFlow

abbrev AccessToken := Nat

/-- A `formatOptionId`. -/
abbrev OptionId := Nat

/-- A `FlowError`, without its message, which its code determines. -/
structure FlowError where
  code : String
  retryable : Bool
  deriving DecidableEq, Repr

/-- What a promise of the flow may be rejected with. -/
inductive Thrown where
  | flow (err : FlowError)
  /-- An `AbortError`. -/
  | abort
  /-- A `TypeError` or an `IllegalTransitionError`. -/
  | other
  deriving DecidableEq, Repr

/-- `MESSAGES` without the texts: the known codes, and whether a retry may help. -/
def MESSAGES : List (String × Bool) :=
  [("INVALID_URL", false), ("UNSUPPORTED_SCHEME", false), ("UNSUPPORTED_PROVIDER", false),
    ("BLOCKED_DESTINATION", false), ("WRAPPER_UNSUPPORTED", false),
    ("WRAPPER_UNRESOLVED", false), ("RESOLVED_PROVIDER_UNSUPPORTED", false),
    ("RESOLUTION_LOOP", false), ("RESOLUTION_LIMIT_EXCEEDED", false),
    ("UNSAFE_RESOLUTION_TARGET", false), ("MEDIA_INSPECTION_FAILED", false),
    ("CAPACITY_UNAVAILABLE", true), ("RATE_LIMITED", true), ("FREE_QUOTA_DISABLED", true),
    ("FREE_QUOTA_IDENTITY_REQUIRED", true), ("FREE_DOWNLOAD_QUOTA_EXHAUSTED", false),
    ("JOB_NOT_FOUND", false), ("JOB_EXPIRED", false), ("INVALID_ACCESS_TOKEN", false),
    ("IDEMPOTENCY_CONFLICT", false), ("DOWNLOADS_DISABLED", true), ("DELIVERY_DISABLED", true),
    ("DOWNLOAD_JOB_NOT_FOUND", false), ("PARENT_JOB_NOT_READY", true),
    ("FORMAT_NOT_FOUND", false), ("FORMAT_NOT_ELIGIBLE", false),
    ("MEDIA_CAPABILITY_REQUIRES_PREMIUM", false), ("MEDIA_CAPABILITY_UNAVAILABLE", false),
    ("PAYMENTS_DISABLED", false), ("PAYMENT_IDENTITY_REQUIRED", true),
    ("PAYMENT_ORDER_NOT_FOUND", false), ("FORMAT_UNAVAILABLE", false),
    ("MUXING_UNAVAILABLE", false), ("MUXING_FAILED", true), ("MUXING_TIMEOUT", true),
    ("MUXED_OUTPUT_INVALID", false), ("DOWNLOAD_TIMEOUT", true), ("DOWNLOAD_TOO_LARGE", false),
    ("DOWNLOAD_TOOL_FAILED", true), ("DOWNLOAD_INVALID_OUTPUT", false),
    ("DOWNLOAD_STORAGE_UNAVAILABLE", true), ("DOWNLOAD_EXPIRED", false),
    ("DOWNLOAD_CANCELLED", false), ("DOWNLOAD_NOT_READY", true), ("DELIVERY_IN_PROGRESS", true),
    ("QUOTA_STATE_INCOHERENT", false), ("FILE_TOO_LARGE", false), ("DURATION_TOO_LONG", false),
    ("INTERNAL_ERROR", true), ("SOURCE_UNAVAILABLE", true), ("SOURCE_TIMEOUT", true),
    ("NETWORK_ERROR", true), ("HTTPS_REQUIRED", false), ("CONTRACT", false)]

def flowErrorFromCode (code : Option String) : FlowError :=
  let resolved := (code.filter fun code => (MESSAGES.lookup code).isSome).getD "CONTRACT"
  ⟨resolved, (MESSAGES.lookup resolved).getD false⟩

/-- The error whose message is shown. -/
def Thrown.mapped : Thrown → FlowError
  | .flow err => err
  | _ => flowErrorFromCode (some "INTERNAL_ERROR")

/-- `errorText`: the message of an error code, or the text about a lapsed Premium. -/
inductive ErrorText where
  | message (code : String)
  | premiumLapsed
  deriving DecidableEq, Repr

/-! ## Capabilities and formats -/

inductive CapabilityState where
  | enabled
  | disabled
  | planned
  deriving DecidableEq, Repr

/-- The operations of `ProviderCapabilities` that the flow reads. -/
structure ProviderCapabilities where
  downloadVideo : CapabilityState
  extractAudio : CapabilityState
  selectQuality : CapabilityState
  deriving DecidableEq, Repr

/-- `undefined` (an old backend), `null` (no public profile), or a profile. -/
inductive Capabilities where
  | legacy
  | missing
  | profile (capabilities : ProviderCapabilities)
  deriving DecidableEq, Repr

/-- `enabledOrLegacy`. -/
def Capabilities.enabledOrLegacy (state : ProviderCapabilities → CapabilityState) :
    Capabilities → Bool
  | legacy => true
  | missing => false
  | profile capabilities => state capabilities = .enabled

/-- The fields of `projectCapabilityUi` that the flow reads. -/
def Capabilities.canDownloadVideo : Capabilities → Bool := enabledOrLegacy (·.downloadVideo)
def Capabilities.canExtractAudio : Capabilities → Bool := enabledOrLegacy (·.extractAudio)
def Capabilities.canSelectQuality : Capabilities → Bool := enabledOrLegacy (·.selectQuality)

inductive FormatCategory where
  | progressive
  | videoOnly
  | audioOnly
  deriving DecidableEq, Repr

inductive MediaKind where
  | normalVideo
  | videoOnly
  | audioOnly
  deriving DecidableEq, Repr

/-- `MediaFormat`, as far as the flow reads it. -/
structure MediaFormat where
  formatOptionId : OptionId
  category : FormatCategory
  hasVideo : Bool
  hasAudio : Bool
  freeTierEligible : Bool
  mediaKind : MediaKind
  requiresPremium : Bool
  deriving DecidableEq, Repr

namespace MediaFormat

def isDownloadEligible (format : MediaFormat) : Bool :=
  format.category = .progressive && format.hasVideo && format.hasAudio && format.freeTierEligible

def isDisplayableFormat (format : MediaFormat) : Bool :=
  format.category = .progressive && format.hasVideo && format.hasAudio

def isSelectableFormat (muxingBlocked : Bool) (format : MediaFormat) : Bool :=
  !muxingBlocked && format.isDownloadEligible

def canUseFormat (premiumActive : Bool) (format : MediaFormat) : Bool :=
  match format.mediaKind with
  | .normalVideo => format.isDownloadEligible
  | .videoOnly =>
    premiumActive && format.requiresPremium && (format.hasVideo && !format.hasAudio)
  | .audioOnly =>
    premiumActive && format.requiresPremium && (format.hasAudio && !format.hasVideo)

end MediaFormat

def reconcileSelectedFormatId (formats : List MediaFormat) (muxingBlocked : Bool) :
    Option OptionId → Option OptionId
  | none => none
  | some id =>
    (formats.find? fun format => format.formatOptionId = id && format.isDisplayableFormat &&
      format.isSelectableFormat muxingBlocked).map (·.formatOptionId)

/-! ## Jobs, grants and quota -/

structure InspectionResult where
  formats : List MediaFormat
  muxingRequired : Bool
  deriving DecidableEq, Repr

structure InspectionJob where
  id : Uuid
  state : Jobs.MediaJobState
  expiresAt : Int
  errorCode : Option String
  result : Option InspectionResult
  providerCapabilities : Capabilities
  deriving DecidableEq, Repr

namespace InspectionJob

def formats (job : InspectionJob) : List MediaFormat :=
  (job.result.map (·.formats)).getD []

def muxingRequired (job : InspectionJob) : Bool :=
  (job.result.map (·.muxingRequired)).getD false

/-- `isTerminal` of the inspection poll. -/
def isTerminal (job : InspectionJob) : Bool :=
  job.state = .inspected || job.state = .failed || job.state = .expired

end InspectionJob

structure DownloadJob where
  id : Uuid
  state : MediaDownloadJobState
  formatOptionId : OptionId
  updatedAt : Int
  expiresAt : Int
  errorCode : Option String
  progressStage : DownloadProgressStage
  progressPercent : Option Nat
  attempt : Nat
  cancellable : Bool
  deriving DecidableEq, Repr

namespace DownloadJob

/-- `isTerminal` of the download poll. -/
def isTerminal (job : DownloadJob) : Bool :=
  job.state = .ready || job.state = .failed || job.state = .cancelled || job.state = .expired

def isStaleDownloadPoll (incoming current : DownloadJob) : Bool :=
  if incoming.attempt < current.attempt then true
  else if current.attempt < incoming.attempt then false
  else if incoming.updatedAt < current.updatedAt then true
  else if current.updatedAt < incoming.updatedAt then false
  else
    match incoming.progressPercent, current.progressPercent with
    | some percent, some known =>
      incoming.progressStage = current.progressStage && decide (percent < known)
    | _, _ => false

end DownloadJob

structure BrowserGrant where
  downloadPath : String
  expiresAt : Int
  deriving DecidableEq, Repr

/-- `FreeQuota`, as far as the flow reads it. -/
inductive FreeQuota where
  | free (downloadsRemaining : Nat)
  | premium
  deriving DecidableEq, Repr

/-- Re-arm browser grants this many milliseconds before they expire. -/
def GRANT_REISSUE_BUFFER_MS : Int := 30000

def MIN_GRANT_REFRESH_DELAY_MS : Int := 5000

def GRANT_HANDOFF_SAFETY_MS : Int := 2000

def MAX_GRANT_TIMER_MS : Int := 2147483647

/-- `none` when the grant has expired. -/
def computeGrantRefreshDelayMs (expiresAtMs nowMs : Int) : Option Int :=
  let remaining := expiresAtMs - nowMs
  if remaining ≤ 0 then none
  else
    let ideal := remaining - GRANT_REISSUE_BUFFER_MS
    if MIN_GRANT_REFRESH_DELAY_MS ≤ ideal then some (min ideal MAX_GRANT_TIMER_MS)
    else
      let fallback := max MIN_GRANT_REFRESH_DELAY_MS (remaining / 2)
      let delay := min (remaining - 1) fallback
      some (max 1 (min delay MAX_GRANT_TIMER_MS))

end FetchNow.MediaFlow
