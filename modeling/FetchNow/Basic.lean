import FetchNow.Theory.Transactions

/-! Identifiers, database time and the errors the backend raises. -/
namespace FetchNow

instance listCharLawful : LawfulBEq (List Char) := inferInstance

/-! ## ASCII letters and digits -/

theorem isUpper_iff {c : Char} : c.isUpper = true ↔ 65 ≤ c.toNat ∧ c.toNat ≤ 90 :=
  decide_eq_true_iff

theorem isLower_iff {c : Char} : c.isLower = true ↔ 97 ≤ c.toNat ∧ c.toNat ≤ 122 := by
  show (decide (97 ≤ c.toNat) && decide (c.toNat ≤ 122)) = true ↔ _
  rw [Bool.and_eq_true, decide_eq_true_eq, decide_eq_true_eq]

theorem isAlpha_iff {c : Char} :
    c.isAlpha = true ↔ (65 ≤ c.toNat ∧ c.toNat ≤ 90) ∨ (97 ≤ c.toNat ∧ c.toNat ≤ 122) :=
  (Bool.or_eq_true c.isUpper c.isLower).to_iff.trans (or_congr isUpper_iff isLower_iff)

theorem isAlphanum_iff {c : Char} :
    c.isAlphanum = true ↔ ((65 ≤ c.toNat ∧ c.toNat ≤ 90) ∨ (97 ≤ c.toNat ∧ c.toNat ≤ 122)) ∨
      (48 ≤ c.toNat ∧ c.toNat ≤ 57) :=
  (Bool.or_eq_true c.isAlpha c.isDigit).to_iff.trans (or_congr isAlpha_iff Char.isDigit_iff_toNat)

theorem toLower_eq_self {c : Char} (h : c.isUpper = false) : c.toLower = c :=
  dif_neg fun hrange => Bool.eq_false_iff.mp h (isUpper_iff.mpr hrange)

theorem toLower_toNat {c : Char} (h : c.isUpper = true) : c.toLower.toNat = c.toNat + 32 := by
  have hrange := isUpper_iff.mp h
  have hval : c.toLower.val = c.val + 32 := congrArg Char.val (dif_pos (isUpper_iff.mp h))
  have hnat : c.toLower.toNat = (c.toNat + 32) % 2 ^ 32 := by
    show c.toLower.val.toNat = _
    rw [hval, UInt32.toNat_add]
    rfl
  omega

/-- `timestamptz` values and intervals, in microseconds. -/
abbrev Timestamp := Int

abbrev Uuid := Nat

/-- The successive values of `clock_timestamp()` that one call reads, in source order. -/
abbrev Clock := Nat → Timestamp

/-- `timedelta(seconds=n)`. -/
def seconds (n : Int) : Timestamp := n * 1000000

/-- `fetchnow.downloads.errors.DownloadErrorCode`. -/
inductive DownloadErrorCode where
  | downloadsDisabled
  | downloadJobNotFound
  | parentJobNotReady
  | formatNotFound
  | formatNotEligible
  | formatUnavailable
  | mediaCapabilityRequiresPremium
  | mediaCapabilityUnavailable
  | providerCapabilityDisabled
  | downloadTimeout
  | downloadTooLarge
  | downloadToolFailed
  | downloadInvalidOutput
  | downloadStorageUnavailable
  | downloadExpired
  | deliveryDisabled
  | downloadNotReady
  | muxingUnavailable
  | muxingFailed
  | muxingTimeout
  | muxedOutputInvalid
  | deliveryInProgress
  | quotaStateIncoherent
  | internalError
  deriving DecidableEq, Repr

/-- The text the database column `public_error_code` stores. -/
def DownloadErrorCode.value : DownloadErrorCode → String
  | downloadsDisabled => "DOWNLOADS_DISABLED"
  | downloadJobNotFound => "DOWNLOAD_JOB_NOT_FOUND"
  | parentJobNotReady => "PARENT_JOB_NOT_READY"
  | formatNotFound => "FORMAT_NOT_FOUND"
  | formatNotEligible => "FORMAT_NOT_ELIGIBLE"
  | formatUnavailable => "FORMAT_UNAVAILABLE"
  | mediaCapabilityRequiresPremium => "MEDIA_CAPABILITY_REQUIRES_PREMIUM"
  | mediaCapabilityUnavailable => "MEDIA_CAPABILITY_UNAVAILABLE"
  | providerCapabilityDisabled => "PROVIDER_CAPABILITY_DISABLED"
  | downloadTimeout => "DOWNLOAD_TIMEOUT"
  | downloadTooLarge => "DOWNLOAD_TOO_LARGE"
  | downloadToolFailed => "DOWNLOAD_TOOL_FAILED"
  | downloadInvalidOutput => "DOWNLOAD_INVALID_OUTPUT"
  | downloadStorageUnavailable => "DOWNLOAD_STORAGE_UNAVAILABLE"
  | downloadExpired => "DOWNLOAD_EXPIRED"
  | deliveryDisabled => "DELIVERY_DISABLED"
  | downloadNotReady => "DOWNLOAD_NOT_READY"
  | muxingUnavailable => "MUXING_UNAVAILABLE"
  | muxingFailed => "MUXING_FAILED"
  | muxingTimeout => "MUXING_TIMEOUT"
  | muxedOutputInvalid => "MUXED_OUTPUT_INVALID"
  | deliveryInProgress => "DELIVERY_IN_PROGRESS"
  | quotaStateIncoherent => "QUOTA_STATE_INCOHERENT"
  | internalError => "INTERNAL_ERROR"

/-- Every code fits the length that the `result_state` constraint demands of a stored code. -/
theorem DownloadErrorCode.value_length (code : DownloadErrorCode) :
    1 ≤ code.value.length ∧ code.value.length ≤ 64 := by
  cases code <;> decide

/-- The constraints of the schema that a statement of the model can violate. -/
inductive Constraint where
  | publicState
  | leaseState
  | resultState
  | artifactBytesPositive
  | progressState
  | cancelRequested
  | progressPercent
  | attemptCountNonneg
  | maxAttemptsPositive
  | canonicalNoQueryFragment
  | schemaVersion
  | terminalTransport
  | suggestedFilename
  | parentFormat
  | entryExpiry
  | entryLifecycle
  | rangeArtifactBytesPositive
  | rangeRequest
  | rangeServed
  | rangeLifecycle
  | rangePrimaryKey
  | orderClient
  | entitlementClient
  | entryClient
  | orderLifecycle
  deriving DecidableEq, Repr

/-- What a `DownloadError` carries. -/
structure DownloadError where
  code : DownloadErrorCode
  internalReason : String
  deriving DecidableEq, Repr

/-- The subclasses of `fetchnow.payments.errors.PaymentError` that are raised. -/
inductive PaymentErrorKind where
  | paymentsDisabled
  | unknownProduct
  | invalidIdempotencyKey
  | idempotencyConflict
  | invalidCallback
  | paymentInvariant
  deriving DecidableEq, Repr

/-- `fetchnow.media_inspection.errors.InspectionErrorKind`. -/
inductive InspectionErrorKind where
  | inspectionUnsupportedProvider
  | inspectionToolUnavailable
  | inspectionTimeout
  | inspectionOutputLimitExceeded
  | inspectionInvalidOutput
  | inspectionProviderMismatch
  | inspectionMediaUnavailable
  | inspectionPolicyRejected
  | inspectionCancelled
  | internalInspectionError
  deriving DecidableEq, Repr

/-- Exceptions that leave a transaction. -/
inductive Raised where
  | downloadError (code : DownloadErrorCode) (internalReason : String)
  | inspectionError (kind : InspectionErrorKind) (internalReason : String)
  | paymentError (kind : PaymentErrorKind)
  | premiumEntitlementInvariantError
  | quotaInvariantError (message : String)
  | integrityError (violated : Constraint)
  | anonymousIdentityRequired
  | freeQuotaExceeded
  | valueError (message : String)
  deriving DecidableEq, Repr

def DownloadError.raised (e : DownloadError) : Raised := .downloadError e.code e.internalReason

/-- What `str.strip` removes. -/
def isSpace (c : Char) : Bool :=
  let n := c.toNat
  (9 ≤ n && n ≤ 13) || (28 ≤ n && n ≤ 32) || n = 0x85 || n = 0xa0 || n = 0x1680 ||
    (0x2000 ≤ n && n ≤ 0x200a) || n = 0x2028 || n = 0x2029 || n = 0x202f || n = 0x205f || n = 0x3000

def rstrip (cs : List Char) : List Char := (cs.reverse.dropWhile isSpace).reverse

def strip (cs : List Char) : List Char := rstrip (cs.dropWhile isSpace)

theorem dropWhile_isSpace {cs : List Char} (h : ∀ c ∈ cs, isSpace c = false) :
    cs.dropWhile isSpace = cs := by
  cases cs with
  | nil => rfl
  | cons c cs => exact List.dropWhile_cons_of_neg (by simp [h c List.mem_cons_self])

theorem strip_eq_self {cs : List Char} (h : ∀ c ∈ cs, isSpace c = false) : strip cs = cs := by
  rw [strip, dropWhile_isSpace h, rstrip, dropWhile_isSpace (by simpa using h), List.reverse_reverse]

variable {p : Char → Bool} {c : Char} {s t : List Char}

theorem dropWhile_append_stop (hc : p c = false) :
    (s ++ c :: t).dropWhile p = s.dropWhile p ++ c :: t := by
  induction s with
  | nil => exact List.dropWhile_cons_of_neg (by simp [hc])
  | cons d s ih =>
    by_cases hd : p d = true
    · rw [List.cons_append, List.dropWhile_cons_of_pos hd, ih, List.dropWhile_cons_of_pos hd]
    · rw [List.cons_append, List.dropWhile_cons_of_neg hd, List.dropWhile_cons_of_neg hd]
      rfl

theorem rstrip_append (hc : isSpace c = false) : rstrip (s ++ c :: t) = s ++ c :: rstrip t := by
  have hreverse : (s ++ c :: t).reverse = t.reverse ++ c :: s.reverse := by simp
  rw [rstrip, hreverse, dropWhile_append_stop hc]
  simp [rstrip]

/-- What `rstrip` removes is white space. -/
theorem rstrip_spec (s : List Char) : ∃ v, s = rstrip s ++ v ∧ ∀ c ∈ v, isSpace c = true := by
  refine ⟨(s.reverse.takeWhile isSpace).reverse, ?_, ?_⟩
  · rw [rstrip, ← List.reverse_append, List.takeWhile_append_dropWhile, List.reverse_reverse]
  · intro c hc
    exact List.all_eq_true.mp List.all_takeWhile c (List.mem_reverse.mp hc)

theorem length_rstrip_lt (hlast : c ∈ t.getLast?) (hspace : isSpace c = true) :
    (rstrip t).length < t.length := by
  obtain ⟨front, rfl⟩ := List.getLast?_eq_some_iff.mp hlast
  have hdrop : rstrip (front ++ [c]) = rstrip front := by
    rw [rstrip, List.reverse_append, List.reverse_singleton, List.singleton_append,
      List.dropWhile_cons_of_pos hspace, rstrip]
  have hle : (rstrip front).length ≤ front.length := by
    rw [rstrip, List.length_reverse]
    exact Nat.le_trans (List.dropWhile_sublist _).length_le (by simp)
  rw [hdrop, List.length_append, List.length_singleton]
  omega

theorem rstrip_eq_self (h : ∀ c ∈ t.getLast?, isSpace c = false) : rstrip t = t := by
  rcases List.eq_nil_or_concat t with rfl | ⟨front, c, rfl⟩
  · rfl
  · rw [List.concat_eq_append] at *
    have hc := h c (by simp)
    rw [rstrip, List.reverse_append, List.reverse_singleton, List.singleton_append,
      List.dropWhile_cons_of_neg (by simp [hc])]
    simp

end FetchNow
