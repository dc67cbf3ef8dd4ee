import FetchNow.Downloads.Coherence

/-! Workers write a job only under the lease of its latest claim. -/
namespace FetchNow

open Transactions

open Leases (Respects Exclusive)

variable {rows rows' rows₀ : DownloadRows} {quota quota' : Option QuotaRows} {actor : Actor}
  {now : Timestamp} {clock : Clock} {compat : Bool} {owner : String} {fence : Nat}
  {log : List (Commit Actor DownloadRows)}

/-- The lease that a job row shows. -/
def lease : Leases.View DownloadRows String Nat where
  token rows := rows.job.fenceToken
  owner rows := if rows.job.publicState = .downloading then rows.job.leaseOwner else none

theorem lease_owner_eq_some :
    lease.owner rows = some owner ↔
      rows.job.publicState = .downloading ∧ rows.job.leaseOwner = some owner := by
  simp [lease]

theorem lease_owner_eq_none (h : rows.job.publicState ≠ .downloading) :
    lease.owner rows = none := by
  simp [lease, h]

theorem Fenced.lease (h : Fenced owner fence rows.job) :
    lease.owner rows = some owner ∧ lease.token rows = fence :=
  ⟨lease_owner_eq_some.mpr ⟨h.1, h.2.1⟩, h.2.2⟩

/-- Some call on behalf of `actor` commits. -/
def CommitsAs (compat : Bool) (actor : Actor) (rows rows' : DownloadRows) : Prop :=
  ∃ call : Call, call.actor = actor ∧ call.run compat rows = .ok rows'

/-! ## What a step does to the lease -/

/-- A write by the holder of the lease. -/
theorem respects_of_fenced (hfenced : Fenced owner fence rows.job)
    (hfence : rows'.job.fenceToken = rows.job.fenceToken)
    (howner : rows'.job.publicState = .downloading → rows'.job.leaseOwner = rows.job.leaseOwner) :
    Respects lease (.holder owner fence) rows rows' where
  token_le := hfence.ge
  claimer h := by cases h
  holder h := by
    cases h
    exact .inr hfenced.lease
  kept h := by
    obtain ⟨hstate, howner'⟩ := lease_owner_eq_some.mp h
    refine .inr ⟨lease_owner_eq_some.mpr ⟨hfenced.1, ?_⟩, hfence⟩
    rw [← howner hstate, howner']

/-- A write of the system that ends the lease or leaves it alone. -/
theorem respects_of_system (hfence : rows.job.fenceToken ≤ rows'.job.fenceToken)
    (hkept : rows'.job.publicState = .downloading →
      rows.job.publicState = .downloading ∧ rows'.job.leaseOwner = rows.job.leaseOwner ∧
        rows'.job.fenceToken = rows.job.fenceToken) :
    Respects lease .system rows rows' where
  token_le := hfence
  claimer h := by cases h
  holder h := by cases h
  kept h := by
    obtain ⟨hstate, howner⟩ := lease_owner_eq_some.mp h
    obtain ⟨hbefore, hsame, htoken⟩ := hkept hstate
    exact .inr ⟨lease_owner_eq_some.mpr ⟨hbefore, hsame ▸ howner⟩, htoken⟩

theorem respects_of_job_eq (h : rows'.job = rows.job) : Respects lease .system rows rows' :=
  respects_of_system (by rw [h]) fun hstate => by simp_all

theorem LedgerFrame.job_eq (h : LedgerFrame now rows rows') : rows'.job = rows.job := by
  cases h <;> rfl

theorem Step.respects (h : Step compat actor rows rows') : Respects lease actor rows rows' := by
  cases h with
  | idle => exact .refl _ _
  | claim hclaimable =>
    refine ⟨Nat.le_succ _, ?_, by rintro _ _ ⟨⟩, fun _ => .inl ⟨_, rfl, fun heq => ?_⟩⟩
    · rintro _ ⟨⟩
      refine .inr ⟨lease_owner_eq_none (by simp [hclaimable.1]), ?_, Nat.lt_succ_self _⟩
      exact lease_owner_eq_some.mpr ⟨rfl, rfl⟩
    · have hstate := congrArg (·.job.publicState) heq
      simp [claimedJob, hclaimable.1] at hstate
  | renew hfenced => exact respects_of_fenced hfenced rfl fun _ => rfl
  | stage hfenced => exact respects_of_fenced hfenced rfl fun _ => rfl
  | percent hfenced => exact respects_of_fenced hfenced rfl fun _ => rfl
  | ready hfenced => exact respects_of_fenced hfenced rfl nofun
  | fail hfenced => exact respects_of_fenced hfenced rfl nofun
  | cancel hfenced => exact respects_of_fenced hfenced rfl nofun
  | retry hfenced => exact respects_of_fenced hfenced rfl nofun
  | release hfenced => exact respects_of_fenced hfenced rfl nofun
  | cancelQueued => exact respects_of_system le_rfl nofun
  | requestCancel => exact respects_of_system le_rfl fun hstate => ⟨hstate, rfl, rfl⟩
  | reclaimCancel => exact respects_of_system (Nat.le_succ _) nofun
  | reclaimExhausted => exact respects_of_system (Nat.le_succ _) nofun
  | reclaim => exact respects_of_system (Nat.le_succ _) nofun
  | expire => exact respects_of_system (Nat.le_succ _) nofun
  | settle => exact respects_of_job_eq rfl
  | charge => exact respects_of_job_eq rfl
  | ledger hframe => exact respects_of_job_eq hframe.job_eq
  | prune => exact respects_of_job_eq rfl
  | promote => exact respects_of_system le_rfl fun hstate => ⟨hstate, rfl, rfl⟩

theorem Steps.respects (h : Steps compat actor rows rows') : Respects lease actor rows rows' :=
  related_run (I := fun _ => True) (.refl actor) (fun h h' => h.trans h') (fun _ _ => trivial)
    (fun _ hstep => hstep.respects) h trivial

theorem CommitsAs.respects (h : CommitsAs compat actor rows rows') :
    Respects lease actor rows rows' := by
  obtain ⟨call, rfl, hcall⟩ := h
  exact (Call.run_steps hcall).respects

/-! ## Publication -/

/-- A job that has ended never becomes pending again. -/
theorem Step.pending (h : Step compat actor rows rows') (hpending : rows'.job.Pending) :
    rows.job.Pending := by
  cases h with
  | claim hclaimable => exact .inl hclaimable.1
  | renew hfenced => exact .inr hfenced.1
  | stage hfenced => exact .inr hfenced.1
  | percent hfenced => exact .inr hfenced.1
  | ready hfenced => exact .inr hfenced.1
  | fail hfenced => exact .inr hfenced.1
  | cancel hfenced => exact .inr hfenced.1
  | retry hfenced => exact .inr hfenced.1
  | release hfenced => exact .inr hfenced.1
  | reclaimCancel hreclaimable => exact .inr hreclaimable.1
  | reclaimExhausted hreclaimable => exact .inr hreclaimable.1
  | reclaim hreclaimable => exact .inr hreclaimable.1
  | cancelQueued | expire => rcases hpending with hstate | hstate <;> cases hstate
  | ledger hframe => rwa [hframe.job_eq] at hpending
  | idle | requestCancel | settle | charge | prune | promote => exact hpending

/-- Only a pending job becomes ready. -/
theorem Step.ready_from (h : Step compat actor rows rows')
    (hready : rows'.job.publicState = .ready) :
    rows.job.publicState = .ready ∨ rows.job.Pending := by
  cases h with
  | ready hfenced => exact .inr (.inr hfenced.1)
  | claim | fail | cancel | retry | release | cancelQueued | reclaimCancel | reclaimExhausted
  | reclaim | expire => cases hready
  | ledger hframe => exact .inl (hframe.job_eq ▸ hready)
  | idle | renew | stage | percent | requestCancel | settle | charge | prune | promote =>
    exact .inl hready

theorem CommitsAs.pending (h : CommitsAs compat actor rows rows') (hpending : rows'.job.Pending) :
    rows.job.Pending := by
  obtain ⟨call, _, hcall⟩ := h
  by_contra hended
  exact Call.run_invariant (I := fun rows => ¬ rows.job.Pending)
    (fun h hstep hpending => h (hstep.pending hpending)) hcall hended hpending

theorem CommitsAs.ready_from (h : CommitsAs compat actor rows rows')
    (hready : rows'.job.publicState = .ready) :
    rows.job.publicState = .ready ∨ rows.job.Pending := by
  obtain ⟨call, _, hcall⟩ := h
  by_contra hended
  rw [not_or] at hended
  refine (Call.run_invariant
    (I := fun rows => rows.job.publicState ≠ .ready ∧ ¬ rows.job.Pending) ?_ hcall hended).1 hready
  rintro _ _ _ ⟨hnever, hended⟩ hstep
  refine ⟨fun hready => ?_, fun hpending => hended (hstep.pending hpending)⟩
  rcases hstep.ready_from hready with hstate | hpending
  · exact hnever hstate
  · exact hended hpending

/-- The commit moves the job to READY. -/
def Publishes (commit : Commit Actor DownloadRows) : Prop :=
  commit.before.job.publicState ≠ .ready ∧ commit.after.job.publicState = .ready

/-- Fencing of download workers: the lease of a job is exclusive over every run, and at most one
commit publishes the job. -/
theorem download_fencing (hqueued : Enqueued rows₀) (hrun : Run (CommitsAs compat) rows₀ log rows) :
    Exclusive lease log rows ∧
      log.Pairwise fun later earlier => Publishes earlier → ¬ Publishes later := by
  have hfree : lease.owner rows₀ = none := lease_owner_eq_none (by simp [hqueued.fresh.queued])
  refine ⟨Leases.exclusive_run CommitsAs.respects hfree hrun, ?_⟩
  refine hrun.entered_once (P := fun rows => rows.job.publicState = .ready)
    (Q := fun rows => rows.job.Pending) CommitsAs.pending CommitsAs.ready_from ?_
  rintro rows hready (hstate | hstate) <;> simp [hready] at hstate

/-- A sample run: a claim at time 5, published at time 10. -/
theorem sample_run : Run (CommitsAs false) sampleRows
    [⟨.holder "w" 1, sampleClaimed, sampleReady⟩, ⟨.claimer "w", sampleRows, sampleClaimed⟩]
    sampleReady :=
  .commit (.commit .start ⟨.claimNext "w" 20 5 fun _ => 5, rfl, by decide +kernel⟩)
    ⟨.worker "w" 1 (.completeReady ⟨7, 8, "video/mp4", "mp4"⟩ fun _ => 10), rfl, by decide +kernel⟩

theorem download_fencing_sample : Exclusive lease
      [⟨.holder "w" 1, sampleClaimed, sampleReady⟩, ⟨.claimer "w", sampleRows, sampleClaimed⟩]
      sampleReady ∧
    List.Pairwise (fun later earlier => Publishes earlier → ¬ Publishes later)
      [⟨.holder "w" 1, sampleClaimed, sampleReady⟩, ⟨.claimer "w", sampleRows, sampleClaimed⟩] :=
  download_fencing (.reserved sampleRows_created) sample_run

end FetchNow
