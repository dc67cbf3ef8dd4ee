import FetchNow.Downloads.Models
import FetchNow.Payments.Models

/-! The settings that quota code reads and the effective download policy. -/
namespace FetchNow

open Transactions

/-- The part of `Settings` that the quota and promotion code reads. -/
structure QuotaSettings where
  freeDownloadQuotaEnabled : Bool
  freeDownloadLimit : Nat
  freeDownloadWindowSeconds : Nat
  freeDeliveryRateLimitEnabled : Bool
  freeDeliveryRateBytesPerSecond : Nat
  freeDownloadQuotaReadyCompatibilityMode : Bool
  freeDownloadQuotaRetentionSeconds : Nat
  deriving DecidableEq, Repr

/-- The single effective server-side download policy. -/
def effectiveDownloadPolicy (settings : QuotaSettings) (capability : Option PremiumCapability) :
    Except Raised EffectiveDownloadPolicy :=
  match capability.filter (·.isPremium) with
  | some premium => do
    require premium.premiumExpiresAt.isSome
      (.valueError "active Premium capability requires an expiry")
    .ok
      { tier := .premium, downloadLimit := none, quotaWindowSeconds := none,
        deliveryRateBytesPerSecond := none, premiumExpiresAt := premium.premiumExpiresAt,
        allowCombined := true, allowAudioOnly := true, allowVideoOnly := true }
  | none =>
    .ok
      { tier := .free, downloadLimit := some settings.freeDownloadLimit,
        quotaWindowSeconds := some settings.freeDownloadWindowSeconds,
        deliveryRateBytesPerSecond :=
          if settings.freeDeliveryRateLimitEnabled then
            some settings.freeDeliveryRateBytesPerSecond else none,
        premiumExpiresAt := none, allowCombined := true, allowAudioOnly := false,
        allowVideoOnly := false }

/-- A capability that is in force projects to the Premium tier, any other to the Free tier. -/
theorem effectiveDownloadPolicy_tier {settings : QuotaSettings}
    {capability : Option PremiumCapability} {policy : EffectiveDownloadPolicy}
    (h : effectiveDownloadPolicy settings capability = .ok policy) :
    policy.tier = .premium ↔ ∃ premium ∈ capability, premium.isPremium = true := by
  unfold effectiveDownloadPolicy at h
  split at h
  · rename_i premium hpremium
    obtain ⟨hcapability, hactive⟩ := Option.filter_eq_some_iff.mp hpremium
    simp only [bind_eq_ok, require_eq_ok] at h
    obtain ⟨_, _, h⟩ := h
    cases h
    exact iff_of_true rfl ⟨premium, hcapability, hactive⟩
  · rename_i hnone
    cases h
    simpa using Option.filter_eq_none_iff.mp hnone

end FetchNow
