import FetchNow.Downloads.Calls
import FetchNow.Payments.Models
import FetchNow.Quota.Coverage
import FetchNow.Theory.Batches
import Mathlib.Data.Prod.Lex

/-!
# `QuotaReconciler.run`

One transaction over the tables of clients, jobs, entries, orders and entitlements: two repair
loops, the retention of settled entries and the pruning of expired clients.
-/
namespace FetchNow

open Transactions Batches

structure Database where
  clients : List AnonymousClient
  downloads : List DownloadRows
  orders : List PaymentOrder
  entitlements : List PremiumEntitlement
  deriving DecidableEq

structure ReconcileResult where
  consumed : Nat := 0
  released : Nat := 0
  expired : Nat := 0
  entriesDeleted : Nat := 0
  clientsDeleted : Nat := 0
  deriving DecidableEq, Repr

/-- One pass: its settings, its reading of the clock, the identifiers it draws for compacted
ranges, and the entries and clients that `SKIP LOCKED` skips. -/
structure QuotaReconciler where
  compatibilityMode : Bool
  retention : Timestamp
  limit : Nat
  now : Timestamp
  fresh : Uuid → Nat → Uuid
  locked : Uuid → Bool

/-- A published job whose entry was settled without a charge. -/
def DownloadRows.readyTerminal (rows : DownloadRows) : Bool :=
  rows.job.publicState = .ready &&
    (rows.entryState = some .released || rows.entryState = some .expired)

def DownloadRows.reserved (rows : DownloadRows) : Bool := rows.entryState = some .reserved

/-- `lock_client` finds the client of the entry. -/
def HasClient (clients : List AnonymousClient) (quota : QuotaRows) : Prop :=
  ∃ client ∈ clients, client.id = quota.entry.anonymousClientId

instance (clients : List AnonymousClient) (quota : QuotaRows) :
    Decidable (HasClient clients quota) :=
  inferInstanceAs (Decidable (∃ client ∈ clients, _))

/-- The entry belongs to this client. -/
def DownloadRows.entryOf (clientId : Uuid) (rows : DownloadRows) : Bool :=
  rows.quota.any (·.entry.anonymousClientId = clientId)

namespace QuotaReconciler

variable (pass : QuotaReconciler) (clients : List AnonymousClient)

/-- The loop over settled entries of ready jobs, under its savepoint. -/
def repairTerminal (rows : DownloadRows) : Except Raised DownloadRows :=
  savepoint Raised.isQuotaInvariantError
    (fun rows =>
      match rows.quota with
      | none => .ok rows
      | some quota =>
        if HasClient clients quota then reconcileInvalid pass.now rows else .ok rows) rows

/-- The loop over reserved entries. -/
def repairReserved (rows : DownloadRows) : Except Raised DownloadRows :=
  match rows.quota with
  | none => .ok rows
  | some quota => do
    require (HasClient clients quota)
      (.quotaInvariantError "reserved entry references missing identity")
    reconcileReserved pass.compatibilityMode (pass.fresh rows.job.id) pass.now rows

def selectTerminal (downloads : List DownloadRows) : List Uuid :=
  (firstBy (fun rows : DownloadRows => toLex (rows.job.expiresAt, rows.job.id)) pass.limit
    (downloads.filter (·.readyTerminal))).map (·.job.id)

def selectReserved (downloads : List DownloadRows) : List Uuid :=
  (firstBy (fun rows : DownloadRows => (rows.quota.map (·.entry.reservedAt)).getD 0) pass.limit
    (downloads.filter (·.reserved))).map (·.job.id)

/-- Both loops, with the counters of the second. -/
def repair (db : Database) : Except Raised (Database × ReconcileResult) := do
  let downloads ← Batches.pass (·.job.id) (pass.repairTerminal db.clients)
    (pass.selectTerminal db.downloads) db.downloads
  let candidates := pass.selectReserved downloads
  let downloads ← Batches.pass (·.job.id) (pass.repairReserved db.clients) candidates downloads
  let settled := fun state =>
    downloads.countP fun rows => rows.job.id ∈ candidates && rows.entryState = some state
  .ok ({ db with downloads },
    { consumed := settled .consumed, released := settled .released, expired := settled .expired })

/-- The loop body of `delete_terminal_entries_before`. -/
def retire (rows : DownloadRows) : Except Raised DownloadRows :=
  match rows.quota with
  | none => .ok rows
  | some quota => do
    require (HasClient clients quota)
      (.quotaInvariantError "quota entry references a missing identity")
    if pass.locked quota.entry.id then .ok rows
    else .ok (deleteTerminalEntry (pass.now - pass.retention) rows)

def selectRetired (downloads : List DownloadRows) : List Uuid :=
  (firstBy (fun rows : DownloadRows => (rows.quota.map (·.entry.id)).getD 0) pass.limit
    (downloads.filter fun rows =>
      rows.quota.any fun quota => TerminalBefore (pass.now - pass.retention) quota.entry)).map
    (·.job.id)

def deleteTerminalEntriesBefore (db : Database) : Except Raised (Database × Nat) := do
  let candidates := pass.selectRetired db.downloads
  let downloads ← Batches.pass (·.job.id) (pass.retire db.clients) candidates db.downloads
  .ok ({ db with downloads },
    downloads.countP fun rows => rows.job.id ∈ candidates && rows.quota.isNone)

/-- Expired and without an entry. -/
def deletable (db : Database) (client : AnonymousClient) : Bool :=
  client.expiresAt ≤ pass.now && !db.downloads.any (·.entryOf client.id)

/-- The clients that `delete_expired_clients_without_entries` selects. -/
def expiredClients (db : Database) : List Uuid :=
  (firstBy (·.expiresAt) pass.limit
    (db.clients.filter fun client => pass.deletable db client && !pass.locked client.id)).map
    (·.id)

/-- Three tables refer to a client with ON DELETE RESTRICT. -/
def deleteExpiredClientsWithoutEntries (db : Database) : Except Raised (Database × Nat) := do
  let ids := pass.expiredClients db
  require (∀ id ∈ ids, ∀ rows ∈ db.downloads, rows.entryOf id = false)
    (.integrityError .entryClient)
  require (∀ order ∈ db.orders, order.anonymousClientId ∉ ids) (.integrityError .orderClient)
  require (∀ entitlement ∈ db.entitlements, entitlement.anonymousClientId ∉ ids)
    (.integrityError .entitlementClient)
  .ok ({ db with clients := db.clients.filter (·.id ∉ ids) }, ids.length)

/-- Retention and pruning. -/
def prune (db : Database) : Except Raised (Database × Nat × Nat) := do
  let (db, entriesDeleted) ← pass.deleteTerminalEntriesBefore db
  let (db, clientsDeleted) ← pass.deleteExpiredClientsWithoutEntries db
  .ok (db, entriesDeleted, clientsDeleted)

def run (db : Database) : Except Raised (Database × ReconcileResult) := do
  let (db, settled) ← pass.repair db
  let (db, entriesDeleted, clientsDeleted) ← pass.prune db
  .ok (db, { settled with entriesDeleted, clientsDeleted })

/-! ## Isolation -/

variable {pass clients} {db : Database} {rows rows' : DownloadRows}
  {downloads : List DownloadRows}

theorem repairTerminal_step (h : pass.repairTerminal clients rows = .ok rows') :
    Step pass.compatibilityMode .system rows rows' := by
  rcases savepoint_eq_ok h with h | rfl
  · split at h
    · cases h
      exact .idle
    · split at h
      · exact reconcileInvalid_step h
      · cases h
        exact .idle
  · exact .idle

theorem repairReserved_step (h : pass.repairReserved clients rows = .ok rows') :
    Step pass.compatibilityMode .system rows rows' := by
  unfold repairReserved at h
  split at h
  · cases h
    exact .idle
  · simp only [bind_eq_ok] at h
    obtain ⟨_, _, h⟩ := h
    exact reconcileReserved_step h

/-- The quarantine of a published job does not touch its entry. -/
theorem repairTerminal_quota (h : pass.repairTerminal clients rows = .ok rows') :
    rows'.quota = rows.quota := by
  rcases savepoint_eq_ok h with h | rfl
  · split at h
    · cases h
      rfl
    · split at h
      · simp only [reconcileInvalid] at h
        split at h
        · cases h
          rfl
        split at h
        · cases h
          rfl
        split at h
        · cases h
          rfl
        simp only [quarantineReadyTerminalQuotaLocked, bind_eq_ok] at h
        obtain ⟨quarantined, hquarantine, h⟩ := h
        cases h
        split at hquarantine
        · cases hquarantine
          rfl
        · simp only [bind_eq_ok] at hquarantine
          obtain ⟨_, _, hquarantine⟩ := hquarantine
          cases hquarantine
          rfl
      · cases h
        rfl
  · rfl

variable (pass clients) in
/-- What either loop does to the rows of one job. -/
def ownStep (rows : DownloadRows) : Except Raised DownloadRows :=
  if rows.readyTerminal then pass.repairTerminal clients rows
  else if rows.reserved then pass.repairReserved clients rows
  else .ok rows

theorem reserved_of_quota (h : rows'.quota = rows.quota) : rows'.reserved = rows.reserved := by
  rw [DownloadRows.reserved, DownloadRows.reserved, DownloadRows.entryState,
    DownloadRows.entryState, h]

theorem reserved_of_readyTerminal (h : rows.readyTerminal = true) : rows.reserved = false := by
  simp only [DownloadRows.readyTerminal, Bool.and_eq_true, Bool.or_eq_true, decide_eq_true_eq] at h
  rcases h.2 with h | h <;> simp [DownloadRows.reserved, h]

/-- The batch limit covers what the two loops select, and the primary key is one. -/
structure Within (pass : QuotaReconciler) (downloads : List DownloadRows) : Prop where
  keys : (downloads.map (·.job.id)).Nodup
  terminal : (downloads.filter (·.readyTerminal)).length ≤ pass.limit
  reserved : (downloads.filter (·.reserved)).length ≤ pass.limit

variable (pass clients) in
/-- The rows after the first loop. -/
def afterTerminal (rows : DownloadRows) : DownloadRows :=
  if rows.readyTerminal then repaired (pass.repairTerminal clients) rows else rows

theorem repaired_kept {step : DownloadRows → Except Raised DownloadRows}
    {P : DownloadRows → DownloadRows → Prop} (hrefl : ∀ rows, P rows rows)
    (hstep : ∀ {rows rows'}, step rows = .ok rows' → P rows rows') (rows : DownloadRows) :
    P rows (repaired step rows) := by
  unfold repaired
  split
  · exact hstep ‹_›
  · exact hrefl rows

theorem afterTerminal_id (rows : DownloadRows) :
    (pass.afterTerminal clients rows).job.id = rows.job.id := by
  unfold afterTerminal
  split
  · exact repaired_kept (P := fun rows rows' => rows'.job.id = rows.job.id) (fun _ => rfl)
      (fun h => (repairTerminal_step h).job_id) rows
  · rfl

theorem afterTerminal_reserved (rows : DownloadRows) :
    (pass.afterTerminal clients rows).reserved = rows.reserved := by
  unfold afterTerminal
  split
  · exact repaired_kept (P := fun rows rows' => rows'.reserved = rows.reserved) (fun _ => rfl)
      (fun h => reserved_of_quota (repairTerminal_quota h)) rows
  · rfl

theorem Within.afterTerminal (h : Within pass downloads) :
    ((downloads.map (pass.afterTerminal clients)).map (·.job.id)).Nodup ∧
      ((downloads.map (pass.afterTerminal clients)).filter (·.reserved)).length ≤ pass.limit := by
  constructor
  · have hcongr : (fun rows : DownloadRows => rows.job.id) ∘ pass.afterTerminal clients =
        fun rows => rows.job.id := funext afterTerminal_id
    rw [List.map_map, hcongr]
    exact h.keys
  · rw [List.filter_map, List.length_map]
    have hcongr : (fun rows : DownloadRows => rows.reserved) ∘ pass.afterTerminal clients =
        fun rows => rows.reserved := funext afterTerminal_reserved
    rw [hcongr]
    exact h.reserved

/-- The two loops commit exactly when the own step of every job would, and then leave each job as
its own step leaves it. -/
theorem repair_eq_ok {db' : Database} (h : Within pass db.downloads) :
    (∃ result, pass.repair db = .ok (db', result)) ↔
      (∀ rows ∈ db.downloads, ∃ rows', pass.ownStep db.clients rows = .ok rows') ∧
        db' = { db with downloads := db.downloads.map (repaired (pass.ownStep db.clients)) } := by
  obtain ⟨hkeys, hlimit⟩ := @Within.afterTerminal _ db.clients _ h
  have hcompose : (db.downloads.map (pass.afterTerminal db.clients)).map (fun rows =>
      if rows.reserved then repaired (pass.repairReserved db.clients) rows else rows) =
      db.downloads.map (repaired (pass.ownStep db.clients)) := by
    rw [List.map_map]
    refine List.map_congr_left fun rows _ => ?_
    simp only [Function.comp, afterTerminal_reserved]
    by_cases hterminal : rows.readyTerminal = true
    · simp [afterTerminal, hterminal, reserved_of_readyTerminal hterminal, repaired, ownStep]
    · by_cases hreserved : rows.reserved = true
      · simp [afterTerminal, hterminal, hreserved, repaired, ownStep]
      · simp [afterTerminal, hterminal, hreserved, repaired, ownStep]
  have hsteps : ((∀ rows ∈ db.downloads, rows.readyTerminal = true →
      ∃ rows', pass.repairTerminal db.clients rows = .ok rows') ∧
      ∀ rows ∈ db.downloads.map (pass.afterTerminal db.clients), rows.reserved = true →
        ∃ rows', pass.repairReserved db.clients rows = .ok rows') ↔
      ∀ rows ∈ db.downloads, ∃ rows', pass.ownStep db.clients rows = .ok rows' := by
    rw [List.forall_mem_map, ← forall₂_and]
    refine forall₂_congr fun rows _ => ?_
    rw [afterTerminal_reserved]
    by_cases hterminal : rows.readyTerminal = true
    · simp [hterminal, reserved_of_readyTerminal hterminal, ownStep]
    · by_cases hreserved : rows.reserved = true
      · simp [afterTerminal, hterminal, hreserved, ownStep]
      · simp [hterminal, hreserved, ownStep]
  rw [← hsteps, ← hcompose]
  have hfirst : ∀ {bs}, Batches.pass (·.job.id) (pass.repairTerminal db.clients)
      (pass.selectTerminal db.downloads) db.downloads = .ok bs ↔ _ ∧ _ :=
    pass_selected (fun _ _ h => (repairTerminal_step h).job_id) h.keys h.terminal
  have hsecond : ∀ {bs}, Batches.pass (·.job.id) (pass.repairReserved db.clients)
      (pass.selectReserved (db.downloads.map (pass.afterTerminal db.clients)))
      (db.downloads.map (pass.afterTerminal db.clients)) = .ok bs ↔ _ ∧ _ :=
    pass_selected (fun _ _ h => (repairReserved_step h).job_id) hkeys hlimit
  simp only [repair, bind_eq_ok, hfirst, Except.ok.injEq, Prod.mk.injEq]
  constructor
  · rintro ⟨result, _, ⟨hterminal, rfl⟩, _, hpass, rfl, _⟩
    obtain ⟨hreserved, rfl⟩ := hsecond.mp hpass
    exact ⟨⟨hterminal, hreserved⟩, rfl⟩
  · rintro ⟨⟨hterminal, hreserved⟩, rfl⟩
    exact ⟨_, _, ⟨hterminal, rfl⟩, _, hsecond.mpr ⟨hreserved, rfl⟩, rfl, rfl⟩

variable (pass db) in
/-- The rows of a job as both loops leave them when there is no other job; unrepaired if they
raise. -/
def alone (rows : DownloadRows) : DownloadRows :=
  match pass.repair { db with downloads := [rows] } with
  | .ok (repaired, _) => repaired.downloads.headD rows
  | .error _ => rows

variable (pass db) in
/-- Every job is brought to where it would be alone, and retention and pruning go on from there. -/
def Isolates : Prop :=
  (∃ settled, pass.repair db = .ok ({ db with downloads := db.downloads.map (pass.alone db) },
      settled)) ∧
    (pass.run db).map (·.1) =
      (pass.prune { db with downloads := db.downloads.map (pass.alone db) }).map (·.1)

theorem Within.single (h : Within pass downloads) (hrows : rows ∈ downloads) :
    Within pass [rows] := by
  have hlength : ∀ p : DownloadRows → Bool, ([rows].filter p).length ≤ (downloads.filter p).length :=
    fun p => ((List.singleton_sublist.mpr hrows).filter p).length_le
  exact ⟨by simp, (hlength _).trans h.terminal, (hlength _).trans h.reserved⟩

theorem alone_eq (h : Within pass db.downloads) (hrows : rows ∈ db.downloads) :
    pass.alone db rows = repaired (pass.ownStep db.clients) rows := by
  have hown : ∀ {db'}, (∃ settled, pass.repair { db with downloads := [rows] } =
      .ok (db', settled)) ↔ _ := repair_eq_ok (h.single hrows)
  unfold alone
  split
  · rename_i alone settled hrepair
    obtain ⟨_, rfl⟩ := hown.mp ⟨settled, hrepair⟩
    rfl
  · rename_i e hrepair
    unfold repaired
    split
    · rename_i rows' hstep
      obtain ⟨settled, hok⟩ := hown.mpr ⟨by simpa using ⟨rows', hstep⟩, rfl⟩
      rw [hrepair] at hok
      cases hok
    · rfl

/-- The pass isolates bad rows exactly when no own step raises: a reserved entry's step raises
nothing, and a settled entry's step nothing that its savepoint does not catch. -/
theorem reconcile_isolates (h : Within pass db.downloads) :
    pass.Isolates db ↔
      ∀ rows ∈ db.downloads, ∃ rows', pass.ownStep db.clients rows = .ok rows' := by
  have halone : db.downloads.map (pass.alone db) =
      db.downloads.map (repaired (pass.ownStep db.clients)) :=
    List.map_congr_left fun rows hrows => alone_eq h hrows
  rw [Isolates, halone, repair_eq_ok h]
  constructor
  · exact fun hisolates => hisolates.1.1
  · intro hsteps
    obtain ⟨settled, hrepair⟩ := (repair_eq_ok h).mpr ⟨hsteps, rfl⟩
    refine ⟨⟨hsteps, rfl⟩, ?_⟩
    rw [run, hrepair]
    cases hprune : pass.prune { db with
      downloads := db.downloads.map (repaired (pass.ownStep db.clients)) } <;> simp [hprune] <;> rfl

/-! ## Sample passes -/

def samplePass : QuotaReconciler :=
  { compatibilityMode := false, retention := seconds 60, limit := 64, now := seconds 30,
    fresh := fun jobId k => jobId * 1000 + k, locked := fun _ => false }

/-- A published job whose ledger names another fence. -/
def mismatchedRows : DownloadRows :=
  { job := publishedJob 3,
    quota := some ⟨⟨1, 1, .reserved, 0, seconds 3600, none, none⟩,
      [⟨5, 7, 0, 3, 0, 2, 2, .closed, 1, none, some 2⟩]⟩,
    grants := [] }

/-- A failed job whose reservation was not released. -/
def leakedRows : DownloadRows :=
  { job :=
      { publishedJob 3 with
        id := 2, publicState := .failed, artifactId := none, artifactBytes := none,
        artifactContentType := none, artifactContainer := none,
        publicErrorCode := some "DOWNLOAD_TIMEOUT", progressStage := .failed },
    quota := some ⟨⟨2, 1, .reserved, 1, seconds 3600, none, none⟩, []⟩, grants := [] }

def sampleClient : AnonymousClient := ⟨1, 0, seconds 7200⟩

/-- A published job whose reservation was released. -/
def releasedRows : DownloadRows :=
  { job := { publishedJob 3 with id := 3, artifactId := some 8 },
    quota := some ⟨⟨3, 1, .released, 2, seconds 3600, none, some 20⟩, []⟩, grants := [] }

/-- The same with an expired reservation and an attempt that still delivers. -/
def deliveringRows : DownloadRows :=
  { job := { publishedJob 3 with id := 4, artifactId := some 9 },
    quota := some ⟨⟨4, 1, .expired, 3, seconds 3600, none, some 20⟩,
      [⟨6, 9, 1, 3, 0, 2, 1, .active, 10, some (seconds 60), none⟩]⟩,
    grants := [] }

/-- The savepoints of the first loop quarantine one job and put off another, and beside them the
leaked reservation is released. -/
theorem reconcile_isolates_siblings :
    let db : Database := ⟨[sampleClient], [releasedRows, leakedRows, deliveringRows], [], []⟩
    samplePass.Isolates db ∧ (samplePass.run db).map (fun done => done.1.downloads.map fun rows =>
      (rows.job.publicState, rows.entryState)) =
        .ok [(.expired, some .released), (.failed, some .released), (.ready, some .expired)] := by
  intro db
  have hwithin : samplePass.Within db.downloads := ⟨by decide, by decide, by decide⟩
  refine ⟨(reconcile_isolates hwithin).mpr ?_, by decide +kernel⟩
  have hsteps : ∀ rows ∈ db.downloads, (samplePass.ownStep db.clients rows).isOk = true := by
    decide +kernel
  intro rows hrows
  cases h : samplePass.ownStep db.clients rows with
  | error e =>
    have hstep := hsteps rows hrows
    rw [h] at hstep
    cases hstep
  | ok rows' => exact ⟨rows', rfl⟩

/-- A generation mismatch in one entry aborts the pass: the leaked reservation of another job
stays. -/
theorem reconcile_mismatch_aborts :
    samplePass.Within [mismatchedRows, leakedRows] ∧
      samplePass.run ⟨[sampleClient], [mismatchedRows, leakedRows], [], []⟩ =
        .error (.quotaInvariantError "delivery evidence generation mismatch") ∧
      ¬ samplePass.Isolates ⟨[sampleClient], [mismatchedRows, leakedRows], [], []⟩ := by
  have hrepair : samplePass.repair ⟨[sampleClient], [mismatchedRows, leakedRows], [], []⟩ =
      .error (.quotaInvariantError "delivery evidence generation mismatch") := by decide +kernel
  refine ⟨⟨by decide, by decide, by decide⟩, by rw [run, hrepair]; rfl, ?_⟩
  rintro ⟨⟨settled, h⟩, _⟩
  rw [hrepair] at h
  cases h

end QuotaReconciler

end FetchNow
