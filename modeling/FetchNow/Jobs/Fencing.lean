import FetchNow.Jobs.Repository
import FetchNow.Theory.Leases
import Mathlib.Data.Int.Order.Basic
import Mathlib.Data.Nat.Basic

/-!
# Inspection jobs over any run

A world is the row of one credential with every version it had and the time of the last commit.
-/
namespace FetchNow.Jobs

open Transactions MediaJob

open Leases (Respects Exclusive)

variable {μ : Type}

/-! ## What a call does to a row -/

/-- The writes by the owner of a lease. -/
inductive OwnerWrite (r : Reading) (job : MediaJob μ) : WorkerCall μ → MediaJob μ → Prop
  | complete (metadata : μ) : OwnerWrite r job (.complete metadata) (inspectedJob metadata r job)
  | fail (code : String) : OwnerWrite r job (.failPermanent code) (failedJob code r job)
  | exhaust (read : MediaJob μ) (backoff : Timestamp) (code : String) :
      OwnerWrite r job (.failRetry (some read) backoff code) (failedJob code r job)
  | retry (read : MediaJob μ) (backoff : Timestamp) (code : String)
      (hread : read.publicState = .inspecting ∧ read.fenceToken = job.fenceToken ∧
        read.attemptCount < read.maxAttempts) :
      OwnerWrite r job (.failRetry (some read) backoff code) (retriedJob backoff r job)
  | release : OwnerWrite r job .releaseToQueued (releasedJob r job)
  | renew (lease : Timestamp) : OwnerWrite r job (.renewLease lease) (renewedJob lease r job)

/-- Everything a call may do to a row. -/
inductive Step (r : Reading) : Call μ → Option (MediaJob μ) → Option (MediaJob μ) → Prop
  | idle {call row} : Step r call row row
  | enqueue {request} (hinserted : (queuedJob request r.now : MediaJob μ).Inserted) :
      Step r (.enqueueOrGet request) none (some (queuedJob request r.now))
  | claim {workerId lease job} (hclaimable : Claimable r.clock job) :
      Step r (.claimNext workerId lease) (some job) (some (claimedJob workerId lease r.now job))
  | owner {owner fence call job job'} (hleased : Leased owner fence r.clock job)
      (hwrite : OwnerWrite r job call job') :
      Step r (.worker owner fence call) (some job) (some job')
  | exhaust {job} (hreclaimable : Reclaimable r.clock job)
      (hexhausted : job.maxAttempts ≤ job.attemptCount) :
      Step r .reclaimExpiredLeases (some job)
        (some { reclaimedJob .failed r.now job with
          publicErrorCode := some JobErrorCode.mediaInspectionFailed.value,
          completedAt := some r.now })
  | requeue {job} (hreclaimable : Reclaimable r.clock job)
      (hleft : job.attemptCount < job.maxAttempts) :
      Step r .reclaimExpiredLeases (some job) (some (reclaimedJob .queued r.now job))
  | expire {job} (hdue : Due r.clock job) :
      Step r .expireDueJobs (some job) (some (expiredJob r.now job))

variable {row row' : Option (MediaJob μ)} {job : MediaJob μ} {r : Reading}
  {owner : String} {fence : Nat}

theorem updateLeased_eq_ok {write : MediaJob μ → MediaJob μ} {job' : MediaJob μ} {applied : Bool}
    (h : updateLeased owner fence r write job = .ok (job', applied)) :
    job' = job ∨ Leased owner fence r.clock job ∧ job' = write job := by
  unfold updateLeased at h
  split at h
  · next hleased =>
    obtain ⟨flushed, hflush, h⟩ := bind_eq_ok.mp h
    obtain ⟨_, rfl⟩ := flushJob_eq_ok.mp hflush
    obtain ⟨rfl, _⟩ : write job = job' ∧ true = applied := by simpa using h
    exact .inr ⟨hleased, rfl⟩
  · obtain ⟨rfl, _⟩ : job = job' ∧ false = applied := by simpa using h
    exact .inl rfl

theorem WorkerCall.run_eq_ok {call : WorkerCall μ} {job' : MediaJob μ} {applied : Bool}
    (h : call.run owner fence r job = .ok (job', applied)) :
    job' = job ∨ Leased owner fence r.clock job ∧ OwnerWrite r job call job' := by
  cases call with
  | complete metadata =>
    exact (updateLeased_eq_ok h).imp_right fun ⟨hleased, heq⟩ => ⟨hleased, heq ▸ .complete _⟩
  | failPermanent code =>
    exact (updateLeased_eq_ok h).imp_right fun ⟨hleased, heq⟩ => ⟨hleased, heq ▸ .fail _⟩
  | releaseToQueued =>
    exact (updateLeased_eq_ok h).imp_right fun ⟨hleased, heq⟩ => ⟨hleased, heq ▸ .release⟩
  | renewLease lease =>
    exact (updateLeased_eq_ok h).imp_right fun ⟨hleased, heq⟩ => ⟨hleased, heq ▸ .renew _⟩
  | failRetry seen backoff code =>
    cases seen with
    | none =>
      obtain ⟨rfl, _⟩ : job = job' ∧ false = applied := by simpa [run, Jobs.failRetry] using h
      exact .inl rfl
    | some read =>
      simp only [run, Jobs.failRetry] at h
      split at h
      · obtain ⟨rfl, _⟩ : job = job' ∧ false = applied := by simpa using h
        exact .inl rfl
      · next hmatch =>
        simp only [not_or, ne_eq, not_not] at hmatch
        split at h
        · exact (updateLeased_eq_ok h).imp_right fun ⟨hleased, heq⟩ =>
            ⟨hleased, heq ▸ .exhaust read backoff code⟩
        · next hleft =>
          refine (updateLeased_eq_ok h).imp_right fun ⟨hleased, heq⟩ => ⟨hleased, heq ▸ ?_⟩
          exact .retry read backoff code
            ⟨hmatch.1, hmatch.2.2.trans hleased.1.2.2.symm, by omega⟩

theorem map_eq_ok {ε α β : Type} {f : α → β} {x : Except ε α} {b : β} :
    x.map f = .ok b ↔ ∃ a, x = .ok a ∧ f a = b := by
  cases x <;> simp [Except.map]

theorem Call.run_eq_ok {call : Call μ} (h : call.run r row = .ok row') : Step r call row row' := by
  cases call with
  | enqueueOrGet request =>
    obtain ⟨⟨job, created⟩, hrun, rfl⟩ := map_eq_ok.mp h
    simp only [Jobs.enqueueOrGet, bind_eq_ok, require_eq_ok] at hrun
    obtain ⟨_, _, _, _, hrun⟩ := hrun
    cases row with
    | some existing =>
      simp only [bind_eq_ok, require_eq_ok, Except.ok.injEq, Prod.mk.injEq] at hrun
      obtain ⟨_, _, rfl, _⟩ := hrun
      exact .idle
    | none =>
      simp only at hrun
      split at hrun
      · next inserted hinsert =>
        obtain ⟨rfl, _⟩ : inserted = job ∧ true = created := by simpa using hrun
        obtain ⟨_, hinserted, hflush⟩ := bind_eq_ok.mp hinsert
        obtain ⟨_, rfl⟩ := flushJob_eq_ok.mp hflush
        exact .enqueue (require_eq_ok.mp hinserted)
      · cases hrun
  | claimNext workerId lease =>
    cases row with
    | none => cases h; exact .idle
    | some job =>
      obtain ⟨job', hrun, rfl⟩ := map_eq_ok.mp h
      obtain ⟨_, _, hrun⟩ := bind_eq_ok.mp hrun
      split at hrun
      · next hclaimable =>
        obtain ⟨_, _, hflush⟩ := bind_eq_ok.mp hrun
        obtain ⟨_, rfl⟩ := flushJob_eq_ok.mp hflush
        exact .claim hclaimable
      · obtain rfl : job = job' := by simpa using hrun
        exact .idle
  | worker owner fence call =>
    cases row with
    | none => cases h; exact .idle
    | some job =>
      obtain ⟨⟨job', applied⟩, hrun, rfl⟩ := map_eq_ok.mp h
      rcases WorkerCall.run_eq_ok hrun with rfl | ⟨hleased, hwrite⟩
      · exact .idle
      · exact .owner hleased hwrite
  | reclaimExpiredLeases =>
    cases row with
    | none => cases h; exact .idle
    | some job =>
      obtain ⟨job', hrun, rfl⟩ := map_eq_ok.mp h
      unfold Jobs.reclaimExpiredLeases at hrun
      split at hrun
      · next hreclaimable =>
        split at hrun
        · next hexhausted =>
          obtain ⟨_, _, hflush⟩ := bind_eq_ok.mp hrun
          obtain ⟨_, rfl⟩ := flushJob_eq_ok.mp hflush
          exact .exhaust hreclaimable hexhausted
        · next hleft =>
          obtain ⟨_, _, hflush⟩ := bind_eq_ok.mp hrun
          obtain ⟨_, rfl⟩ := flushJob_eq_ok.mp hflush
          exact .requeue hreclaimable (by omega)
      · obtain rfl : job = job' := by simpa using hrun
        exact .idle
  | expireDueJobs =>
    cases row with
    | none => cases h; exact .idle
    | some job =>
      obtain ⟨job', hrun, rfl⟩ := map_eq_ok.mp h
      unfold Jobs.expireDueJobs at hrun
      split at hrun
      · next hdue =>
        obtain ⟨_, _, hflush⟩ := bind_eq_ok.mp hrun
        obtain ⟨_, rfl⟩ := flushJob_eq_ok.mp hflush
        exact .expire hdue
      · obtain rfl : job = job' := by simpa using hrun
        exact .idle

/-! ## Sound rows -/

/-- What holds of every stored row. -/
structure Sound (job : MediaJob μ) : Prop where
  checked : job.Checked
  attempts : job.attemptCount ≤ job.maxAttempts
  claimed : job.publicState = .inspecting → 1 ≤ job.attemptCount
  queued : job.publicState = .queued → job.attemptCount < job.maxAttempts

/-- An earlier version of the row, as far as the current one remembers it. -/
structure Recalls (job read : MediaJob μ) : Prop where
  fence_le : read.fenceToken ≤ job.fenceToken
  maxAttempts : read.maxAttempts = job.maxAttempts
  attemptCount : read.publicState = .inspecting → job.publicState = .inspecting →
    read.fenceToken = job.fenceToken → read.attemptCount = job.attemptCount

/-- The versions of a row that a call may have read before. -/
def Call.Reads : Call μ → Option (MediaJob μ) → Prop
  | .worker _ _ (.failRetry seen _ _), read => seen = read
  | _, _ => False

/-- Before it ends a job has no result. -/
theorem Sound.blank (h : Sound job)
    (hpending : job.publicState = .queued ∨ job.publicState = .inspecting) :
    job.resultMetadata.isNone ∧ job.publicErrorCode.isNone := by
  have hresult := h.checked.resultState
  rcases hpending with hstate | hstate <;> simpa [CkResultState, hstate] using hresult

theorem Sound.of_queued (hstate : job.publicState = .queued)
    (hlease : job.leaseOwner.isNone ∧ job.leaseExpiresAt.isNone)
    (hblank : job.resultMetadata.isNone ∧ job.publicErrorCode.isNone)
    (hcount : 0 ≤ job.attemptCount) (hversion : 0 ≤ job.resultVersion)
    (hleft : job.attemptCount < job.maxAttempts) : Sound job where
  checked := ⟨hcount, hversion, .inr ⟨by simp [hstate], hlease⟩,
    .inr (.inr ⟨by simp [hstate], hblank⟩)⟩
  attempts := hleft.le
  claimed := by simp [hstate]
  queued := fun _ => hleft

theorem Sound.of_inspecting (hstate : job.publicState = .inspecting)
    (hlease : job.leaseOwner.isSome ∧ job.leaseExpiresAt.isSome)
    (hblank : job.resultMetadata.isNone ∧ job.publicErrorCode.isNone)
    (hcount : 1 ≤ job.attemptCount) (hversion : 0 ≤ job.resultVersion)
    (hle : job.attemptCount ≤ job.maxAttempts) : Sound job where
  checked := ⟨by omega, hversion, .inl ⟨hstate, hlease⟩, .inr (.inr ⟨by simp [hstate], hblank⟩)⟩
  attempts := hle
  claimed := fun _ => hcount
  queued := by simp [hstate]

/-- A job that has ended. -/
theorem Sound.of_ended (hstate : job.publicState ≠ .queued ∧ job.publicState ≠ .inspecting)
    (hlease : job.leaseOwner.isNone ∧ job.leaseExpiresAt.isNone) (hresult : job.CkResultState)
    (hcount : 0 ≤ job.attemptCount) (hversion : 0 ≤ job.resultVersion)
    (hle : job.attemptCount ≤ job.maxAttempts) : Sound job where
  checked := ⟨hcount, hversion, .inr ⟨hstate.2, hlease⟩, hresult⟩
  attempts := hle
  claimed := fun h => absurd h hstate.2
  queued := fun h => absurd h hstate.1

theorem OwnerWrite.sound {call : WorkerCall μ} {job' : MediaJob μ} (h : Sound job)
    (hstate : job.publicState = .inspecting)
    (hrecalls : ∀ read backoff code, call = .failRetry (some read) backoff code →
      Recalls job read)
    (hwrite : OwnerWrite r job call job') : Sound job' := by
  have hblank := h.blank (.inr hstate)
  have hcount := h.claimed hstate
  cases hwrite with
  | complete =>
    exact .of_ended ⟨nofun, nofun⟩ ⟨rfl, rfl⟩ (.inl ⟨rfl, rfl, rfl, rfl⟩) h.checked.attemptCount
      Int.one_nonneg h.attempts
  | fail code =>
    exact .of_ended ⟨nofun, nofun⟩ ⟨rfl, rfl⟩ (.inr (.inl ⟨rfl, rfl, rfl, rfl⟩))
      h.checked.attemptCount h.checked.resultVersion h.attempts
  | exhaust read backoff code =>
    exact .of_ended ⟨nofun, nofun⟩ ⟨rfl, rfl⟩ (.inr (.inl ⟨rfl, rfl, rfl, rfl⟩))
      h.checked.attemptCount h.checked.resultVersion h.attempts
  | retry read backoff code hread =>
    have hsame := hrecalls read backoff code rfl
    have hattempts := hsame.attemptCount hread.1 hstate hread.2.1
    refine .of_queued rfl ⟨rfl, rfl⟩ ⟨hblank.1, rfl⟩ h.checked.attemptCount
      h.checked.resultVersion ?_
    change job.attemptCount < job.maxAttempts
    rw [← hsame.maxAttempts, ← hattempts]
    exact hread.2.2
  | release =>
    refine .of_queued rfl ⟨rfl, rfl⟩ hblank (le_max_right _ _) h.checked.resultVersion ?_
    have hle := h.attempts
    change max (job.attemptCount - 1) 0 < job.maxAttempts
    omega
  | renew lease =>
    exact .of_inspecting hstate ⟨(h.checked.leaseState.resolve_right fun hnot => hnot.1 hstate).2.1,
      rfl⟩ hblank hcount h.checked.resultVersion h.attempts

/-- Every call keeps the row sound. -/
theorem Step.sound {call : Call μ} {job' : MediaJob μ} (h : ∀ job ∈ row, Sound job)
    (hreads : ∀ job read, row = some job → call.Reads (some read) → Recalls job read)
    (hstep : Step r call row (some job')) : Sound job' := by
  cases hstep with
  | idle => exact h job' rfl
  | enqueue hinserted =>
    exact .of_queued rfl ⟨rfl, rfl⟩ ⟨rfl, rfl⟩ le_rfl le_rfl
      (Int.lt_of_lt_of_le Int.zero_lt_one hinserted.maxAttempts)
  | @claim workerId lease job hclaimable =>
    have hsound := h job rfl
    have hcount := hsound.checked.attemptCount
    have hleft := hclaimable.2.2.2
    refine .of_inspecting rfl ⟨rfl, rfl⟩ (hsound.blank (.inl hclaimable.1)) ?_
      hsound.checked.resultVersion ?_
    · change 1 ≤ job.attemptCount + 1
      omega
    · change job.attemptCount + 1 ≤ job.maxAttempts
      omega
  | @owner owner fence call job _ hleased hwrite =>
    refine hwrite.sound (h job rfl) hleased.1.1 fun read backoff code hcall => ?_
    subst hcall
    exact hreads job read rfl rfl
  | @exhaust job hreclaimable hexhausted =>
    have hsound := h job rfl
    exact .of_ended ⟨nofun, nofun⟩ ⟨rfl, rfl⟩
      (.inr (.inl ⟨rfl, (hsound.blank (.inr hreclaimable.1)).1, rfl, rfl⟩))
      hsound.checked.attemptCount hsound.checked.resultVersion hsound.attempts
  | @requeue job hreclaimable hleft =>
    have hsound := h job rfl
    exact .of_queued rfl ⟨rfl, rfl⟩ (hsound.blank (.inr hreclaimable.1))
      hsound.checked.attemptCount hsound.checked.resultVersion hleft
  | @expire job hdue =>
    have hsound := h job rfl
    exact .of_ended ⟨nofun, nofun⟩ ⟨rfl, rfl⟩ (.inr (.inr ⟨by simp [expiredJob], rfl, rfl⟩))
      hsound.checked.attemptCount hsound.checked.resultVersion hsound.attempts

/-- What the next version of a row keeps. -/
structure Keeps (job job' : MediaJob μ) : Prop where
  fence_le : job.fenceToken ≤ job'.fenceToken
  maxAttempts : job'.maxAttempts = job.maxAttempts
  createdAt : job'.createdAt = job.createdAt
  inspecting : job'.publicState = .inspecting →
    job.publicState = .inspecting ∧ job'.fenceToken = job.fenceToken ∧
      job'.attemptCount = job.attemptCount ∨ job.fenceToken < job'.fenceToken

theorem Step.keeps {call : Call μ} (hstep : Step r call (some job) row') :
    ∃ job', row' = some job' ∧ Keeps job job' := by
  cases hstep with
  | idle => exact ⟨job, rfl, le_rfl, rfl, rfl, fun h => .inl ⟨h, rfl, rfl⟩⟩
  | claim => exact ⟨_, rfl, Nat.le_succ _, rfl, rfl, fun _ => .inr (Nat.lt_succ_self _)⟩
  | owner hleased hwrite =>
    cases hwrite with
    | complete => exact ⟨_, rfl, le_rfl, rfl, rfl, nofun⟩
    | fail => exact ⟨_, rfl, le_rfl, rfl, rfl, nofun⟩
    | exhaust => exact ⟨_, rfl, le_rfl, rfl, rfl, nofun⟩
    | retry => exact ⟨_, rfl, le_rfl, rfl, rfl, nofun⟩
    | release => exact ⟨_, rfl, le_rfl, rfl, rfl, nofun⟩
    | renew => exact ⟨_, rfl, le_rfl, rfl, rfl, fun h => .inl ⟨h, rfl, rfl⟩⟩
  | exhaust => exact ⟨_, rfl, Nat.le_succ _, rfl, rfl, nofun⟩
  | requeue => exact ⟨_, rfl, Nat.le_succ _, rfl, rfl, nofun⟩
  | expire => exact ⟨_, rfl, Nat.le_succ _, rfl, rfl, nofun⟩

theorem Recalls.refl (job : MediaJob μ) : Recalls job job := ⟨le_rfl, rfl, fun _ _ _ => rfl⟩

theorem Recalls.step {job' read : MediaJob μ} (h : Recalls job read) (hkeeps : Keeps job job') :
    Recalls job' read where
  fence_le := h.fence_le.trans hkeeps.fence_le
  maxAttempts := h.maxAttempts.trans hkeeps.maxAttempts.symm
  attemptCount hread hstate hfence := by
    rcases hkeeps.inspecting hstate with ⟨hbefore, hsame, hattempts⟩ | hlt
    · rw [hattempts]
      exact h.attemptCount hread hbefore (hfence.trans hsame)
    · have hle := h.fence_le
      omega

/-! ## Worlds -/

/-- The row of one credential, all its versions so far, and the time of the last commit. -/
structure World (μ : Type) where
  row : Option (MediaJob μ)
  versions : List (Option (MediaJob μ))
  clock : Timestamp

def World.initial (t : Timestamp) : World μ := ⟨none, [none], t⟩

/-- A call that commits. It reads the statement clock after the last commit and its own `now` at
any time before it commits; an unlocked read finds some version of the row. -/
structure Commits (action : Call μ × Reading) (w w' : World μ) : Prop where
  clock : ∀ k, w.clock ≤ action.2.clock k ∧ action.2.clock k ≤ w'.clock
  now_le : action.2.now ≤ w'.clock
  reads : ∀ read, action.1.Reads read → read ∈ w.versions
  run : action.1.run action.2 w.row = .ok w'.row
  versions : w'.versions = w'.row :: w.versions

/-- What holds of every reachable world. -/
structure World.Sound (w : World μ) : Prop where
  row : ∀ job ∈ w.row, Jobs.Sound job ∧ job.createdAt ≤ w.clock
  versions : ∀ read, some read ∈ w.versions → ∃ job, w.row = some job ∧ Recalls job read

theorem World.Sound.reads {w : World μ} (h : w.Sound) {call : Call μ}
    (hreads : ∀ read, call.Reads read → read ∈ w.versions) {read : MediaJob μ}
    (hrow : w.row = some job) (hread : call.Reads (some read)) : Recalls job read := by
  obtain ⟨found, hfound, hrecalls⟩ := h.versions read (hreads _ hread)
  obtain rfl : found = job := by rw [hfound] at hrow; injection hrow
  exact hrecalls

theorem Commits.sound {action : Call μ × Reading} {w w' : World μ} (h : w.Sound)
    (hcommits : Commits action w w') : w'.Sound := by
  obtain ⟨call, r⟩ := action
  have hstep := Call.run_eq_ok hcommits.run
  have hclock : w.clock ≤ w'.clock := (hcommits.clock 0).1.trans (hcommits.clock 0).2
  have hnext : ∀ job', w'.row = some job' → Jobs.Sound job' := by
    intro job' hrow'
    rw [hrow'] at hstep
    exact hstep.sound (fun job hjob => (h.row job hjob).1)
      fun job read hrow hread => h.reads hcommits.reads hrow hread
  cases hrow : w.row with
  | none =>
    refine ⟨fun job' hjob' => ⟨hnext job' hjob', ?_⟩, fun read hread => ?_⟩
    · rw [hrow, Option.mem_def.mp hjob'] at hstep
      cases hstep with
      | enqueue => exact hcommits.now_le
    · rw [hcommits.versions, List.mem_cons] at hread
      rcases hread with hread | hread
      · exact ⟨read, hread.symm, .refl read⟩
      · obtain ⟨job, hjob, _⟩ := h.versions read hread
        rw [hrow] at hjob
        cases hjob
  | some job =>
    rw [hrow] at hstep
    obtain ⟨job', hrow', hkeeps⟩ := hstep.keeps
    refine ⟨fun k hk => ?_, fun read hread => ?_⟩
    · obtain rfl : job' = k := by rw [hrow'] at hk; injection hk
      refine ⟨hnext job' hrow', ?_⟩
      rw [hkeeps.createdAt]
      exact (h.row job hrow).2.trans hclock
    · rw [hcommits.versions, List.mem_cons] at hread
      rcases hread with hread | hread
      · exact ⟨read, hread.symm, .refl read⟩
      · obtain ⟨found, hfound, hrecalls⟩ := h.versions read hread
        obtain rfl : job = found := by rw [hrow] at hfound; injection hfound
        exact ⟨job', hrow', hrecalls.step hkeeps⟩

theorem World.initial_sound (t : Timestamp) : (World.initial t : World μ).Sound where
  row := fun job hjob => absurd hjob (Option.not_mem_none job)
  versions := fun read hread => by simp [initial] at hread

/-! ## The lease -/

/-- The lease that a row shows. -/
def leaseView : Leases.View (Option (MediaJob μ)) String Nat where
  token row := row.elim 0 (·.fenceToken)
  owner row := row.bind fun job => if job.publicState = .inspecting then job.leaseOwner else none

def Call.actor : Call μ → Leases.Actor String Nat
  | .claimNext workerId _ => .claimer workerId
  | .worker owner fence _ => .holder owner fence
  | _ => .system

theorem lease_owner_eq_none (h : ∀ job ∈ row, job.publicState ≠ .inspecting) :
    leaseView.owner row = none := by
  cases row with
  | none => rfl
  | some job => simp [leaseView, h job rfl]

theorem lease_owner_eq_some : leaseView.owner (some job) = some owner ↔
    job.publicState = .inspecting ∧ job.leaseOwner = some owner := by
  simp [leaseView]

/-- A write of the system ends the lease or leaves it alone. -/
theorem respects_of_system (hfence : leaseView.token row ≤ leaseView.token row')
    (hfree : ∀ job ∈ row', job.publicState ≠ .inspecting) :
    Respects leaseView .system row row' where
  token_le := hfence
  claimer h := by cases h
  holder h := by cases h
  kept h := by
    rw [lease_owner_eq_none hfree] at h
    cases h

theorem Step.respects {call : Call μ} (hstep : Step r call row row') :
    Respects leaseView call.actor row row' := by
  cases hstep with
  | idle => exact .refl _ _
  | enqueue =>
    exact respects_of_system (Nat.zero_le _) fun job hjob => by
      obtain rfl : queuedJob _ r.now = job := by simpa using hjob
      simp [queuedJob]
  | @claim workerId lease job hclaimable =>
    refine ⟨Nat.le_succ _, ?_, by rintro _ _ ⟨⟩, fun _ => .inl ⟨workerId, rfl, fun heq => ?_⟩⟩
    · rintro _ ⟨⟩
      refine .inr ⟨lease_owner_eq_none fun k hk => ?_, lease_owner_eq_some.mpr ⟨rfl, rfl⟩,
        Nat.lt_succ_self _⟩
      obtain rfl : job = k := by simpa using hk
      simp [hclaimable.1]
    · have hstate := congrArg MediaJob.publicState (Option.some.inj heq)
      simp [claimedJob, hclaimable.1] at hstate
  | @owner owner fence call job job' hleased hwrite =>
    obtain ⟨⟨hstate, howner, rfl⟩, _⟩ := hleased
    have hsame : job'.fenceToken = job.fenceToken ∧
        (job'.publicState = .inspecting → job'.leaseOwner = job.leaseOwner) := by
      cases hwrite with
      | renew => exact ⟨rfl, fun _ => rfl⟩
      | _ => exact ⟨rfl, nofun⟩
    refine ⟨hsame.1.ge, by rintro _ ⟨⟩, ?_, fun h => ?_⟩
    · rintro _ _ ⟨⟩
      exact .inr ⟨lease_owner_eq_some.mpr ⟨hstate, howner⟩, rfl⟩
    · obtain ⟨hstate', howner'⟩ := lease_owner_eq_some.mp h
      refine .inr ⟨lease_owner_eq_some.mpr ⟨hstate, ?_⟩, hsame.1⟩
      rw [← hsame.2 hstate', howner']
  | @exhaust job =>
    exact respects_of_system (Nat.le_succ job.fenceToken) fun k hk => by
      obtain rfl : _ = k := by simpa using hk
      simp [reclaimedJob]
  | @requeue job =>
    exact respects_of_system (Nat.le_succ job.fenceToken) fun k hk => by
      obtain rfl : _ = k := by simpa using hk
      simp [reclaimedJob]
  | @expire job =>
    exact respects_of_system (Nat.le_succ job.fenceToken) fun k hk => by
      obtain rfl : _ = k := by simpa using hk
      simp [expiredJob]

/-! ## No constraint refuses a call -/

theorem updateLeased_ne_integrityError {write : MediaJob μ → MediaJob μ}
    (h : Leased owner fence r.clock job → (write job).Checked) :
    updateLeased owner fence r write job ≠ .error .integrityError := by
  unfold updateLeased
  split
  · next hleased =>
    rw [flushJob_of_checked (h hleased)]
    exact nofun
  · exact nofun

theorem WorkerCall.run_ne_integrityError {call : WorkerCall μ} (h : Sound job)
    (hrecalls : ∀ read backoff code, call = .failRetry (some read) backoff code →
      Recalls job read) :
    call.run owner fence r job ≠ .error .integrityError := by
  have hchecked : ∀ {job'}, job.publicState = .inspecting → OwnerWrite r job call job' →
      job'.Checked := fun hstate hwrite => (hwrite.sound h hstate hrecalls).checked
  cases call with
  | complete metadata =>
    exact updateLeased_ne_integrityError fun hleased => hchecked hleased.1.1 (.complete _)
  | failPermanent code =>
    exact updateLeased_ne_integrityError fun hleased => hchecked hleased.1.1 (.fail _)
  | releaseToQueued =>
    exact updateLeased_ne_integrityError fun hleased => hchecked hleased.1.1 .release
  | renewLease lease =>
    exact updateLeased_ne_integrityError fun hleased => hchecked hleased.1.1 (.renew _)
  | failRetry seen backoff code =>
    cases seen with
    | none => exact nofun
    | some read =>
      simp only [run, Jobs.failRetry]
      split
      · exact nofun
      · next hmatch =>
        simp only [not_or, ne_eq, not_not] at hmatch
        split
        · exact updateLeased_ne_integrityError fun hleased =>
            hchecked hleased.1.1 (.exhaust read backoff code)
        · next hleft =>
          refine updateLeased_ne_integrityError fun hleased => hchecked hleased.1.1 ?_
          exact .retry read backoff code
            ⟨hmatch.1, hmatch.2.2.trans hleased.1.2.2.symm, by omega⟩

theorem map_ne_error {ε α β : Type} {f : α → β} {x : Except ε α} {e : ε} (h : x ≠ .error e) :
    x.map f ≠ .error e := by
  cases x with
  | ok a => exact nofun
  | error e' => simpa [Except.map] using h

/-- Apart from a raise of its own, a call on a sound row commits. -/
theorem Call.run_ne_integrityError {call : Call μ} (h : ∀ job ∈ row, Sound job)
    (hreads : ∀ job read, row = some job → call.Reads (some read) → Recalls job read) :
    call.run r row ≠ .error .integrityError := by
  have hnext : ∀ {job'}, Step r call row (some job') → flushJob job' = .ok job' :=
    fun hstep => flushJob_of_checked (hstep.sound h hreads).checked
  cases call with
  | enqueueOrGet request =>
    refine map_ne_error fun hrun => ?_
    simp only [Jobs.enqueueOrGet, bind_eq_error, require_eq_error, internalError] at hrun
    rcases hrun with hrun | ⟨_, _, hrun | ⟨_, _, hrun⟩⟩
    · simp at hrun
    · simp at hrun
    · cases row with
      | some existing => simp [bind_eq_error] at hrun
      | none =>
        simp only at hrun
        split at hrun <;> simp at hrun
  | claimNext workerId lease =>
    cases row with
    | none => exact nofun
    | some job =>
      refine map_ne_error fun hrun => ?_
      simp only [Jobs.claimNext, bind_eq_error, require_eq_error, internalError] at hrun
      rcases hrun with hrun | ⟨_, _, hrun⟩
      · simp at hrun
      · split at hrun
        · next hclaimable =>
          rw [hnext (.claim hclaimable), bind_eq_error] at hrun
          simp [assertTransition, internalError] at hrun
        · cases hrun
  | worker owner fence call =>
    cases row with
    | none => exact nofun
    | some job =>
      refine map_ne_error (WorkerCall.run_ne_integrityError (h job rfl) ?_)
      rintro read backoff code rfl
      exact hreads job read rfl rfl
  | reclaimExpiredLeases =>
    cases row with
    | none => exact nofun
    | some job =>
      refine map_ne_error fun hrun => ?_
      unfold Jobs.reclaimExpiredLeases at hrun
      split at hrun
      · next hreclaimable =>
        split at hrun
        · next hexhausted =>
          rw [hnext (.exhaust hreclaimable hexhausted), bind_eq_error] at hrun
          simp [assertTransition, internalError] at hrun
        · next hleft =>
          rw [hnext (.requeue hreclaimable (by omega)), bind_eq_error] at hrun
          simp [assertTransition, internalError] at hrun
      · cases hrun
  | expireDueJobs =>
    cases row with
    | none => exact nofun
    | some job =>
      refine map_ne_error fun hrun => ?_
      unfold Jobs.expireDueJobs at hrun
      split at hrun
      · next hdue =>
        rw [hnext (.expire hdue), bind_eq_error] at hrun
        simp [assertTransition, internalError] at hrun
      · cases hrun

/-! ## Runs -/

/-- A commit of a call, on the row alone. -/
def onRow (commit : Commit (Call μ × Reading) (World μ)) :
    Commit (Leases.Actor String Nat) (Option (MediaJob μ)) :=
  commit.map (fun action => action.1.actor) World.row

def HasState (state : MediaJobState) (row : Option (MediaJob μ)) : Prop :=
  ∃ job, row = some job ∧ job.publicState = state

/-- The commit that completes the job. -/
def Completes (commit : Commit (Call μ × Reading) (World μ)) : Prop :=
  ¬ HasState .inspected commit.before.row ∧ HasState .inspected commit.after.row

/-- A sweep that ends the job, and notes as the time what it read of its own clock. -/
def Call.Sweeps (r : Reading) (job : MediaJob μ) : Call μ → Prop
  | .reclaimExpiredLeases => Reclaimable r.clock job ∧ job.maxAttempts ≤ job.attemptCount
  | .expireDueJobs => Due r.clock job ∧ job.completedAt = none
  | _ => False

/-- A sweep that ends the job read its own clock after the job was created. -/
def Prompt (commit : Commit (Call μ × Reading) (World μ)) : Prop :=
  ∀ job ∈ commit.before.row, commit.actor.1.Sweeps commit.actor.2 job →
    job.createdAt ≤ commit.actor.2.now

theorem step_inspected {call : Call μ} (hstep : Step r call row row')
    (h : HasState .inspected row') : HasState .inspected row ∨ HasState .inspecting row := by
  obtain ⟨job', rfl, hstate⟩ := h
  cases hstep with
  | idle => exact .inl ⟨_, rfl, hstate⟩
  | owner hleased hwrite => exact .inr ⟨_, rfl, hleased.1.1⟩
  | _ => cases hstate

/-- A job that is not over may still be completed; one that is over may not. -/
theorem step_pending {call : Call μ} (hstep : Step r call row row')
    (h : ∀ job ∈ row', job.publicState = .queued ∨ job.publicState = .inspecting) :
    ∀ job ∈ row, job.publicState = .queued ∨ job.publicState = .inspecting := by
  cases hstep with
  | idle => exact h
  | enqueue => exact fun job hjob => absurd hjob (Option.not_mem_none job)
  | claim hclaimable =>
    rintro _ ⟨⟩
    exact .inl hclaimable.1
  | owner hleased =>
    rintro _ ⟨⟩
    exact .inr hleased.1.1
  | exhaust hreclaimable =>
    rintro _ ⟨⟩
    exact .inr hreclaimable.1
  | requeue hreclaimable =>
    rintro _ ⟨⟩
    exact .inr hreclaimable.1
  | expire => simpa [expiredJob] using h _ rfl

/-- When a job ends, it notes a time that is not before its creation. -/
theorem step_completedAt {call : Call μ} {job' : MediaJob μ} {t : Timestamp}
    (hcreated : ∀ job ∈ row, job.createdAt ≤ t ∧ ∀ s ∈ job.completedAt, job.createdAt ≤ s)
    (hclock : ∀ k, t ≤ r.clock k)
    (hprompt : ∀ job ∈ row, call.Sweeps r job → job.createdAt ≤ r.now)
    (hstep : Step r call row (some job')) : ∀ s ∈ job'.completedAt, job'.createdAt ≤ s := by
  cases hstep with
  | idle => exact (hcreated job' rfl).2
  | enqueue => exact fun s hs => absurd hs (Option.not_mem_none s)
  | @claim workerId lease job => exact (hcreated job rfl).2
  | @owner owner fence call job _ hleased hwrite =>
    have hended : ∀ s ∈ some (r.clock 2), job.createdAt ≤ s := by
      rintro _ ⟨⟩
      exact (hcreated job rfl).1.trans (hclock 2)
    cases hwrite with
    | complete => exact hended
    | fail => exact hended
    | exhaust => exact hended
    | retry => exact (hcreated job rfl).2
    | release => exact (hcreated job rfl).2
    | renew => exact (hcreated job rfl).2
  | @exhaust job hreclaimable hexhausted =>
    rintro _ ⟨⟩
    exact hprompt job rfl ⟨hreclaimable, hexhausted⟩
  | @requeue job => exact (hcreated job rfl).2
  | @expire job hdue =>
    rintro _ ⟨⟩
    change job.createdAt ≤ job.completedAt.getD r.now
    cases hcompleted : job.completedAt with
    | none => exact hprompt job rfl ⟨hdue, hcompleted⟩
    | some s => exact (hcreated job rfl).2 s hcompleted

variable {log : List (Commit (Call μ × Reading) (World μ))} {w : World μ} {t : Timestamp}

theorem sound_run (hrun : Run Commits (.initial t) log w) : w.Sound := by
  induction hrun with
  | start => exact World.initial_sound t
  | commit _ hcommits ih => exact hcommits.sound ih

theorem completedAt_run (hrun : Run Commits (.initial t) log w) (hprompt : ∀ c ∈ log, Prompt c) :
    ∀ job ∈ w.row, ∀ s ∈ job.completedAt, job.createdAt ≤ s := by
  induction hrun with
  | start => exact fun job hjob => absurd hjob (Option.not_mem_none job)
  | @commit log action w w' hrun hcommits ih =>
    intro job' hjob'
    have hstep := Call.run_eq_ok hcommits.run
    rw [Option.mem_def.mp hjob'] at hstep
    have hbefore := ih fun c hc => hprompt c (List.mem_cons_of_mem _ hc)
    refine step_completedAt (t := w.clock) (fun job hjob => ?_) (fun k => (hcommits.clock k).1)
      (hprompt _ List.mem_cons_self) hstep
    exact ⟨((sound_run hrun).row job hjob).2, hbefore job hjob⟩

/-- Over every run of the nine operations: the lease of a job is exclusive and its fences grow, at
most one completion takes effect, the row keeps its bounds and constraints, and no call is refused
by one. What ends a job is not noted before its creation if the sweeps that end it read their clock
after it. -/
theorem inspection_jobs_fenced (hrun : Run Commits (.initial t) log w) :
    Exclusive leaseView (log.map onRow) w.row ∧
      (log.Pairwise fun later earlier => Completes earlier → ¬ Completes later) ∧
      (∀ job ∈ w.row, 0 ≤ job.attemptCount ∧ job.attemptCount ≤ job.maxAttempts ∧
        (job.publicState = .queued → ∀ clock : Clock, job.availableAt ≤ clock 0 →
          clock 1 < job.expiresAt → Claimable clock job) ∧
        job.CkLeaseState ∧ job.CkResultState) ∧
      (∀ (call : Call μ) (r : Reading), (∀ read, call.Reads read → read ∈ w.versions) →
        call.run r w.row ≠ .error .integrityError) ∧
      ((∀ commit ∈ log, Prompt commit) →
        ∀ job ∈ w.row, ∀ s ∈ job.completedAt, job.createdAt ≤ s) := by
  have hsound := sound_run hrun
  refine ⟨?_, ?_, fun job hjob => ?_, fun call r hreads => ?_, completedAt_run hrun⟩
  · have hrows : Run (fun actor row row' => ∃ (call : Call μ) (r : Reading), call.actor = actor ∧
        Step r call row row') none (log.map onRow) w.row := by
      refine Run.map (g := fun action : Call μ × Reading => action.1.actor) (f := World.row) ?_ hrun
      rintro ⟨call, r⟩ _ _ hcommits
      exact ⟨call, r, rfl, Call.run_eq_ok hcommits.run⟩
    refine Leases.exclusive_run ?_ rfl hrows
    rintro _ _ _ ⟨call, r, rfl, hstep⟩
    exact hstep.respects
  · refine hrun.entered_once (P := fun w => HasState .inspected w.row)
      (Q := fun w => ∀ job ∈ w.row, job.publicState = .queued ∨ job.publicState = .inspecting)
      (fun hcommits => step_pending (Call.run_eq_ok hcommits.run)) (fun hcommits h => ?_) ?_
    · refine (step_inspected (Call.run_eq_ok hcommits.run) h).imp_right ?_
      rintro ⟨job, hrow, hstate⟩ k hk
      obtain rfl : job = k := by rw [hrow] at hk; injection hk
      exact .inr hstate
    · rintro w ⟨job, hrow, hstate⟩ hpending
      rcases hpending job hrow with h | h <;> simp [hstate] at h
  · obtain ⟨hjob, _⟩ := hsound.row job hjob
    refine ⟨hjob.checked.attemptCount, hjob.attempts, fun hqueued clock havailable hlive => ?_,
      hjob.checked.leaseState, hjob.checked.resultState⟩
    exact ⟨hqueued, havailable, hlive, hjob.queued hqueued⟩
  · exact Call.run_ne_integrityError (fun job hjob => (hsound.row job hjob).1)
      fun job read hrow hread => hsound.reads hreads hrow hread

/-! ## A sample -/

def sampleRequest : EnqueueRequest where
  credentialHash := List.replicate 32 1
  requestFingerprint := List.replicate 32 2
  providerId := "rutube"
  canonicalProviderUrl := "https://rutube.ru/video/1"
  mediaId := "1"
  hostname := "rutube.ru"
  path := "/video/1"
  scheme := "https"
  port := none
  ttl := 100
  maxAttempts := 1

/-- Enqueued and claimed at time 5, under a lease of 10. -/
def sampleClaimed : MediaJob Unit := claimedJob "w" 10 5 (queuedJob sampleRequest 5)

def sampleWorld : World Unit :=
  ⟨some sampleClaimed, [some sampleClaimed, some (queuedJob sampleRequest 5), none], 5⟩

theorem sampleWorld_run : Run Commits (.initial 0)
    [⟨(.claimNext "w" 10, ⟨5, fun _ => 5⟩),
        ⟨some (queuedJob sampleRequest 5), [some (queuedJob sampleRequest 5), none], 5⟩,
        sampleWorld⟩,
      ⟨(.enqueueOrGet sampleRequest, ⟨5, fun _ => 5⟩), .initial 0,
        ⟨some (queuedJob sampleRequest 5), [some (queuedJob sampleRequest 5), none], 5⟩⟩]
    sampleWorld :=
  .commit
    (.commit .start ⟨fun _ => (by decide : (0 : Int) ≤ 5 ∧ (5 : Int) ≤ 5), by decide,
      fun _ hread => hread.elim, by decide +kernel, rfl⟩)
    ⟨fun _ => (by decide : (5 : Int) ≤ 5 ∧ (5 : Int) ≤ 5), by decide,
      fun _ hread => hread.elim, by decide +kernel, rfl⟩

theorem inspection_jobs_fenced_sample :
    sampleClaimed.CkLeaseState ∧ sampleClaimed.CkResultState :=
  ((inspection_jobs_fenced sampleWorld_run).2.2.1 sampleClaimed rfl).2.2.2

/-- The claimed row after a reclaim that read its clock at time 0. -/
def sampleReclaimed : MediaJob Unit :=
  { reclaimedJob .failed 0 sampleClaimed with
    publicErrorCode := some JobErrorCode.mediaInspectionFailed.value, completedAt := some 0 }

/-- The worker read its clock at time 0 and reclaims at time 20 what was created at time 5. -/
theorem completed_before_created : ¬ ∀ (log : List (Commit (Call Unit × Reading) (World Unit)))
    (w : World Unit), Run Commits (.initial 0) log w →
      ∀ job ∈ w.row, ∀ s ∈ job.completedAt, job.createdAt ≤ s := by
  intro hall
  have hcommits : Commits (.reclaimExpiredLeases, ⟨0, fun _ => 20⟩) sampleWorld
      ⟨some sampleReclaimed, some sampleReclaimed :: sampleWorld.versions, 20⟩ :=
    ⟨fun _ => (by decide : (5 : Int) ≤ 20 ∧ (20 : Int) ≤ 20), by decide,
      fun _ hread => hread.elim, by decide +kernel, rfl⟩
  exact absurd (hall _ _ (.commit sampleWorld_run hcommits) _ rfl 0 rfl) (by decide)

end FetchNow.Jobs
