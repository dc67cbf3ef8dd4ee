import FetchNow.Downloads.Models
import FetchNow.Quota.Models
import FetchNow.Theory.SlidingWindows

/-! The rolling window of the Free quota, and when it has room again. -/
namespace FetchNow

open Transactions SlidingWindows

structure QuotaStatus where
  tier : Tier
  downloadLimit : Option Nat
  downloadsUsed : Option Nat
  downloadsReserved : Option Nat
  downloadsRemaining : Option Nat
  resetAt : Option Timestamp
  windowSeconds : Option Nat
  premiumExpiresAt : Option Timestamp
  deriving DecidableEq, Repr

/-- The times of a client's consumed entries. -/
def consumedTimes (entries : List FreeDownloadQuotaEntry) (clientId : Uuid) : List Timestamp :=
  (entries.filter fun entry =>
    decide (entry.anonymousClientId = clientId) && decide (entry.state = .consumed)).filterMap
      (·.consumedAt)

def statusLocked (entries : List FreeDownloadQuotaEntry) (clientId : Uuid) (now : Timestamp)
    (policy : EffectiveDownloadPolicy) : Except Raised QuotaStatus :=
  match policy.downloadLimit, policy.quotaWindowSeconds with
  | some limit, some window =>
    let cutoff := now - seconds window
    let used := (inside cutoff now (consumedTimes entries clientId)).length
    let reserved := (entries.filter fun entry => decide (entry.anonymousClientId = clientId) &&
      decide (entry.state = .reserved) && decide (now < entry.reservationExpiresAt)).length
    -- `ORDER BY consumed_at ASC OFFSET used - limit LIMIT 1`
    let resetAt := if limit ≤ used then
      (releasing cutoff now limit (consumedTimes entries clientId)).map (· + seconds window) else none
    .ok
      { tier := policy.tier, downloadLimit := some limit, downloadsUsed := some used
        downloadsReserved := some reserved, downloadsRemaining := some (limit - used - reserved)
        resetAt, windowSeconds := some window, premiumExpiresAt := none }
  | _, _ => .error (.quotaInvariantError "unlimited policy cannot enter Free accounting")

/-- The number of downloads that count against the quota at a time. -/
def consumedWithin (entries : List FreeDownloadQuotaEntry) (clientId : Uuid) (window : Nat)
    (t : Timestamp) : Nat :=
  (inside (t - seconds window) t (consumedTimes entries clientId)).length

variable {entries : List FreeDownloadQuotaEntry} {clientId : Uuid} {now : Timestamp}
  {policy : EffectiveDownloadPolicy} {limit window : Nat}

/-- A reset time is published exactly if the quota is used up, and it is the first time at which
there is room, unless more is consumed. -/
theorem reset_at_exact (hlimit : policy.downloadLimit = some limit)
    (hwindow : policy.quotaWindowSeconds = some window) (hpos : 1 ≤ limit) :
    ∃ status, statusLocked entries clientId now policy = .ok status ∧
      (status.resetAt.isSome = true ↔ limit ≤ consumedWithin entries clientId window now) ∧
      ∀ resetAt ∈ status.resetAt, now < resetAt ∧
        (∀ t, now ≤ t → t < resetAt → limit ≤ consumedWithin entries clientId window t) ∧
        ((∀ t ∈ consumedTimes entries clientId, t ≤ now) →
          consumedWithin entries clientId window resetAt < limit) := by
  rw [statusLocked, hlimit, hwindow]
  refine ⟨_, rfl, ?_, ?_⟩
  · simp only [consumedWithin]
    constructor
    · intro hsome
      by_contra hroom
      rw [if_neg hroom] at hsome
      cases hsome
    · intro hfull
      obtain ⟨k, hk⟩ := exists_releasing hpos hfull
      rw [if_pos hfull, hk]
      rfl
  · intro resetAt hreset
    simp only at hreset
    split at hreset
    case isFalse => cases hreset
    case isTrue hfull =>
      obtain ⟨k, hk, rfl⟩ := Option.map_eq_some_iff.mp hreset
      obtain ⟨hcutoff, -⟩ := releasing_mem hk
      refine ⟨Int.sub_lt_iff.mp hcutoff, ?_, ?_⟩
      · intro t hnow ht
        exact full_before hfull hk (Int.sub_lt_iff.mpr ht) hnow
      · intro hlast
        rw [consumedWithin, Int.add_sub_cancel]
        exact not_full_after hfull hk hlast

/-- Three downloads of a client, two of them at one time. -/
def threeDownloads : List FreeDownloadQuotaEntry :=
  [⟨1, 7, .consumed, 0, 100, some 10, none⟩, ⟨2, 7, .consumed, 0, 100, some 20, none⟩,
    ⟨3, 7, .consumed, 0, 100, some 20, none⟩]

def twoADay : EffectiveDownloadPolicy :=
  ⟨.free, some 2, some 86400, none, none, true, false, false⟩

theorem reset_at_exact_sample :
    ∃ status, statusLocked threeDownloads 7 30 twoADay = .ok status ∧
      (status.resetAt.isSome = true ↔ 2 ≤ consumedWithin threeDownloads 7 86400 30) ∧
      ∀ resetAt ∈ status.resetAt, (30 : Timestamp) < resetAt ∧
        (∀ t, 30 ≤ t → t < resetAt → 2 ≤ consumedWithin threeDownloads 7 86400 t) ∧
        ((∀ t ∈ consumedTimes threeDownloads 7, t ≤ 30) →
          consumedWithin threeDownloads 7 86400 resetAt < 2) :=
  reset_at_exact rfl rfl (by decide)

example : (statusLocked threeDownloads 7 30 twoADay).toOption.bind (·.resetAt) =
    some (20 + seconds 86400) := by decide

end FetchNow
