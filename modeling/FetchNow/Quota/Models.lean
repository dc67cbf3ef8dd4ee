import FetchNow.Basic

/-! Anonymous clients, Free quota entries and delivery ranges, with their CHECK constraints. -/
namespace FetchNow

open Transactions

/-- A row of `anonymous_clients`. -/
structure AnonymousClient where
  id : Uuid
  createdAt : Timestamp
  expiresAt : Timestamp
  deriving DecidableEq, Repr

inductive QuotaEntryState where
  | reserved
  | consumed
  | released
  | expired
  deriving DecidableEq, Repr

/-- The states that an entry never leaves. -/
def QuotaEntryState.terminal : QuotaEntryState → Bool
  | reserved => false
  | _ => true

/-- A row of `free_download_quota_entries`. The unique `download_job_id` is the job row it is
stored with. -/
structure FreeDownloadQuotaEntry where
  id : Uuid
  anonymousClientId : Uuid
  state : QuotaEntryState
  reservedAt : Timestamp
  reservationExpiresAt : Timestamp
  consumedAt : Option Timestamp
  releasedAt : Option Timestamp
  deriving DecidableEq, Repr

namespace FreeDownloadQuotaEntry

variable (entry : FreeDownloadQuotaEntry)

/-- `ck_free_download_quota_entries_expiry`. -/
def CkExpiry : Prop := entry.reservedAt < entry.reservationExpiresAt

/-- `ck_free_download_quota_entries_lifecycle`. -/
def CkLifecycle : Prop :=
  (entry.state = .reserved ∧ entry.consumedAt = none ∧ entry.releasedAt = none) ∨
    (entry.state = .consumed ∧ (∃ t ∈ entry.consumedAt, entry.reservedAt ≤ t) ∧
      entry.releasedAt = none) ∨
    ((entry.state = .released ∨ entry.state = .expired) ∧ entry.consumedAt = none ∧
      ∃ t ∈ entry.releasedAt, entry.reservedAt ≤ t)

instance : Decidable entry.CkExpiry := inferInstanceAs (Decidable (_ < _))
instance : Decidable entry.CkLifecycle := inferInstanceAs (Decidable (_ ∨ _))

end FreeDownloadQuotaEntry

def flushEntry (entry : FreeDownloadQuotaEntry) : Except Raised FreeDownloadQuotaEntry := do
  require entry.CkExpiry (.integrityError .entryExpiry)
  require entry.CkLifecycle (.integrityError .entryLifecycle)
  .ok entry

theorem flushEntry_eq_ok {entry entry' : FreeDownloadQuotaEntry} :
    flushEntry entry = .ok entry' ↔
      entry.CkExpiry ∧ entry.CkLifecycle ∧ entry' = entry := by
  simp only [flushEntry, bind_eq_ok, require_eq_ok, Except.ok.injEq]
  constructor
  · rintro ⟨_, h1, _, h2, rfl⟩
    exact ⟨h1, h2, rfl⟩
  · rintro ⟨h1, h2, rfl⟩
    exact ⟨(), h1, (), h2, rfl⟩

def reserveLocked (id clientId : Uuid) (reservedAt reservationExpiresAt : Timestamp) :
    Except Raised FreeDownloadQuotaEntry := do
  require (reservedAt < reservationExpiresAt)
    (.quotaInvariantError "reservation expiry must be in the future")
  flushEntry
    { id, anonymousClientId := clientId, state := .reserved, reservedAt, reservationExpiresAt,
      consumedAt := none, releasedAt := none }

def consumeLocked (entry : FreeDownloadQuotaEntry) (now : Timestamp) :
    Except Raised FreeDownloadQuotaEntry := do
  require (entry.state = .reserved)
    (.quotaInvariantError "ready transition lacks a reserved quota entry")
  .ok { entry with state := .consumed, consumedAt := some now, releasedAt := none }

def releaseLocked (entry : FreeDownloadQuotaEntry) (now : Timestamp) (expired : Bool) :
    Except Raised FreeDownloadQuotaEntry :=
  match entry.state with
  | .reserved =>
    .ok { entry with
      state := if expired then .expired else .released, consumedAt := none, releasedAt := some now }
  | .released | .expired => .ok entry
  | .consumed => .error (.quotaInvariantError "cannot release a consumed quota entry")

section

variable {entry entry' : FreeDownloadQuotaEntry} {now : Timestamp} {expired : Bool}

theorem reserveLocked_eq_ok {id clientId : Uuid} {reservedAt expiresAt : Timestamp}
    (h : reserveLocked id clientId reservedAt expiresAt = .ok entry) :
    entry = ⟨id, clientId, .reserved, reservedAt, expiresAt, none, none⟩ ∧
      reservedAt < expiresAt := by
  simp only [reserveLocked, bind_eq_ok, require_eq_ok, flushEntry_eq_ok] at h
  obtain ⟨_, hfuture, _, _, rfl⟩ := h
  exact ⟨rfl, hfuture⟩

theorem consumeLocked_eq_ok :
    consumeLocked entry now = .ok entry' ↔ entry.state = .reserved ∧
      entry' = { entry with state := .consumed, consumedAt := some now, releasedAt := none } := by
  simp only [consumeLocked, bind_eq_ok, require_eq_ok, Except.ok.injEq]
  constructor
  · rintro ⟨_, h, rfl⟩
    exact ⟨h, rfl⟩
  · rintro ⟨h, rfl⟩
    exact ⟨(), h, rfl⟩

/-- A release settles a reservation and leaves a settled entry as it is; it never accepts a
consumed one. -/
theorem releaseLocked_cases (h : releaseLocked entry now expired = .ok entry') :
    (entry.state = .reserved ∧ entry' = { entry with
        state := if expired then .expired else .released, consumedAt := none,
        releasedAt := some now }) ∨
      ((entry.state = .released ∨ entry.state = .expired) ∧ entry' = entry) := by
  unfold releaseLocked at h
  split at h <;> simp_all

end

inductive DeliveryRangeState where
  | active
  | closed
  deriving DecidableEq, Repr

/-- A row of `free_download_delivery_ranges`: the bytes `[requestStart, servedEndExclusive)`
were observed by the server. -/
structure FreeDownloadDeliveryRange where
  id : Uuid
  artifactId : Uuid
  fenceToken : Nat
  artifactBytes : Nat
  requestStart : Nat
  requestEndExclusive : Nat
  servedEndExclusive : Nat
  state : DeliveryRangeState
  startedAt : Timestamp
  leaseExpiresAt : Option Timestamp
  closedAt : Option Timestamp
  deriving DecidableEq, Repr

namespace FreeDownloadDeliveryRange

variable (row : FreeDownloadDeliveryRange)

/-- `ck_free_delivery_ranges_artifact_bytes_positive`. -/
def CkArtifactBytesPositive : Prop := 0 < row.artifactBytes

/-- `ck_free_delivery_ranges_request`. -/
def CkRequest : Prop :=
  row.requestStart < row.requestEndExclusive ∧ row.requestEndExclusive ≤ row.artifactBytes

/-- `ck_free_delivery_ranges_served`. -/
def CkServed : Prop :=
  row.requestStart ≤ row.servedEndExclusive ∧ row.servedEndExclusive ≤ row.requestEndExclusive

/-- `ck_free_delivery_ranges_lifecycle`. -/
def CkLifecycle : Prop :=
  (row.state = .active ∧ (∃ t ∈ row.leaseExpiresAt, row.startedAt < t) ∧ row.closedAt = none) ∨
    (row.state = .closed ∧ row.leaseExpiresAt = none ∧ ∃ t ∈ row.closedAt, row.startedAt ≤ t)

instance : Decidable row.CkArtifactBytesPositive := inferInstanceAs (Decidable (_ < _))
instance : Decidable row.CkRequest := inferInstanceAs (Decidable (_ ∧ _))
instance : Decidable row.CkServed := inferInstanceAs (Decidable (_ ∧ _))
instance : Decidable row.CkLifecycle := inferInstanceAs (Decidable (_ ∨ _))

/-- The observed bytes of a row. -/
def served : ℕ × ℕ := (row.requestStart, row.servedEndExclusive)

/-- The lease of an active row is still running at `now`. -/
def live (now : Timestamp) : Bool :=
  row.state = .active && row.leaseExpiresAt.any (· > now)

/-- The lease of an active row has run out at `now`. -/
def stale (now : Timestamp) : Bool :=
  row.state = .active && row.leaseExpiresAt.any (· ≤ now)

structure Checked : Prop where
  artifactBytes : row.CkArtifactBytesPositive
  request : row.CkRequest
  served : row.CkServed
  lifecycle : row.CkLifecycle

end FreeDownloadDeliveryRange

def flushRange (row : FreeDownloadDeliveryRange) : Except Raised Unit := do
  require row.CkArtifactBytesPositive (.integrityError .rangeArtifactBytesPositive)
  require row.CkRequest (.integrityError .rangeRequest)
  require row.CkServed (.integrityError .rangeServed)
  require row.CkLifecycle (.integrityError .rangeLifecycle)

theorem flushRange_eq_ok {row : FreeDownloadDeliveryRange} :
    flushRange row = .ok () ↔ row.Checked := by
  simp only [flushRange, bind_eq_ok, require_eq_ok]
  constructor
  · rintro ⟨_, h1, _, h2, _, h3, h4⟩
    exact ⟨h1, h2, h3, h4⟩
  · rintro ⟨h1, h2, h3, h4⟩
    exact ⟨(), h1, (), h2, (), h3, h4⟩

/-- Flush every row of one ledger. -/
def flushRanges : List FreeDownloadDeliveryRange → Except Raised (List FreeDownloadDeliveryRange)
  | [] => .ok []
  | row :: rows => do
    flushRange row
    let rows ← flushRanges rows
    .ok (row :: rows)

theorem flushRanges_eq_ok {rows rows' : List FreeDownloadDeliveryRange} :
    flushRanges rows = .ok rows' ↔ (∀ row ∈ rows, row.Checked) ∧ rows' = rows := by
  induction rows generalizing rows' with
  | nil => simp [flushRanges, eq_comm]
  | cons row rows ih =>
    simp only [flushRanges, bind_eq_ok, ih, Except.ok.injEq, List.forall_mem_cons]
    constructor
    · rintro ⟨_, h1, _, ⟨h2, rfl⟩, rfl⟩
      exact ⟨⟨flushRange_eq_ok.mp h1, h2⟩, rfl⟩
    · rintro ⟨⟨h1, h2⟩, rfl⟩
      exact ⟨(), flushRange_eq_ok.mpr h1, rows, ⟨h2, rfl⟩, rfl⟩

/-- A flush reports violated constraints and nothing else. -/
theorem flushRanges_eq_error {rows : List FreeDownloadDeliveryRange} {e : Raised}
    (h : flushRanges rows = .error e) : ∃ violated, e = .integrityError violated := by
  induction rows with
  | nil => cases h
  | cons row rows ih =>
    simp only [flushRanges, flushRange, bind_eq_error, require_eq_error, require_eq_ok] at h
    obtain (⟨_, rfl⟩ | ⟨_, _, ⟨_, rfl⟩ | ⟨_, _, ⟨_, rfl⟩ | ⟨_, _, _, rfl⟩⟩⟩) | ⟨_, _, h | h⟩ := h
    · exact ⟨_, rfl⟩
    · exact ⟨_, rfl⟩
    · exact ⟨_, rfl⟩
    · exact ⟨_, rfl⟩
    · exact ih h
    · simp at h

/-- A quota entry with its delivery ledger; deleting the entry cascades to the ledger. -/
structure QuotaRows where
  entry : FreeDownloadQuotaEntry
  ranges : List FreeDownloadDeliveryRange
  deriving DecidableEq, Repr

end FetchNow
