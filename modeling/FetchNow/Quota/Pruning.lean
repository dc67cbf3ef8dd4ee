import FetchNow.Downloads.OrphanSweep
import FetchNow.Quota.Reconciler

/-!
# Pruning and the foreign keys

Entries, orders and entitlements refer to clients that exist. The pruning of expired clients asks
for entries only, and fails on an order or an entitlement of a client that it selects.
-/
namespace FetchNow

open Transactions Batches QuotaReconciler

open Relation (ReflTransGen)

variable {db db' : Database} {rows rows' : DownloadRows} {quota quota' : Option QuotaRows}
  {actor : Actor} {compat : Bool} {pass : QuotaReconciler} {now : Timestamp}
  {clients : List AnonymousClient}

/-! ## The client of an entry -/

/-- An entry that is there afterwards was there before, with the same client. -/
def KeepsClient (quota quota' : Option QuotaRows) : Prop :=
  ∀ q' ∈ quota', ∃ q ∈ quota, q'.entry.anonymousClientId = q.entry.anonymousClientId

theorem KeepsClient.refl (quota : Option QuotaRows) : KeepsClient quota quota :=
  fun q hq => ⟨q, hq, rfl⟩

theorem KeepsClient.trans {quota'' : Option QuotaRows} (h : KeepsClient quota quota')
    (h' : KeepsClient quota' quota'') : KeepsClient quota quota'' := by
  intro q'' hq''
  obtain ⟨q', hq', hclient'⟩ := h' q'' hq''
  obtain ⟨q, hq, hclient⟩ := h q' hq'
  exact ⟨q, hq, hclient'.trans hclient⟩

theorem KeepsClient.of_entry {q q' : QuotaRows}
    (h : q'.entry.anonymousClientId = q.entry.anonymousClientId) :
    KeepsClient (some q) (some q') := by
  rintro q' ⟨⟩
  exact ⟨q, rfl, h⟩

theorem QuotaRelease.keepsClient (h : QuotaRelease quota quota') : KeepsClient quota quota' := by
  cases h with
  | none => exact .refl _
  | settled => exact .refl _
  | released => exact .of_entry rfl

theorem QuotaExpiry.keepsClient (h : QuotaExpiry quota quota') : KeepsClient quota quota' := by
  cases h with
  | kept => exact .refl _
  | expired => exact .of_entry rfl

theorem QuotaCharge.keepsClient (h : QuotaCharge compat quota quota') :
    KeepsClient quota quota' := by
  cases h with
  | off | none => exact .refl _
  | consumed => exact .of_entry rfl

theorem QuotaPromotion.keepsClient {client : Uuid} (h : QuotaPromotion client now quota quota') :
    KeepsClient quota quota' := by
  cases h with
  | none => exact .refl _
  | charged | consumed | released => exact .of_entry rfl

theorem EntryMove.client {expiresAt : Timestamp} {entry entry' : FreeDownloadQuotaEntry}
    (h : EntryMove expiresAt now entry entry') :
    entry'.anonymousClientId = entry.anonymousClientId := by
  cases h <;> rfl

theorem LedgerFrame.keepsClient (h : LedgerFrame now rows rows') :
    KeepsClient rows.quota rows'.quota := by
  cases h with
  | unchanged => exact .refl _
  | moved hquota _ hmove =>
    rw [hquota]
    exact .of_entry hmove.client

theorem Step.keepsClient (h : Step compat actor rows rows') :
    KeepsClient rows.quota rows'.quota := by
  cases h with
  | ready _ _ _ _ hcharge => exact hcharge.keepsClient
  | fail _ _ _ hrelease => exact hrelease.keepsClient
  | cancel _ _ hrelease => exact hrelease.keepsClient
  | cancelQueued _ hrelease => exact hrelease.keepsClient
  | reclaimCancel _ _ hrelease => exact hrelease.keepsClient
  | reclaimExhausted _ _ _ hrelease => exact hrelease.keepsClient
  | expire _ hexpiry => exact hexpiry.keepsClient
  | settle _ hrelease => exact hrelease.keepsClient
  | charge _ _ hquota => exact hquota ▸ .of_entry rfl
  | ledger hframe => exact hframe.keepsClient
  | prune => exact fun q hq => ⟨q, mem_deleteTerminalEntry hq, rfl⟩
  | promote _ _ _ _ hpromotion => exact hpromotion.keepsClient
  | idle | claim | renew | stage | percent | retry | release | requestCancel | reclaim =>
    exact .refl _

theorem Commits.keepsClient (h : Commits compat rows rows') :
    rows'.job.id = rows.job.id ∧ KeepsClient rows.quota rows'.quota := by
  obtain ⟨call, hcall⟩ := h
  refine Call.run_invariant
    (I := fun later => later.job.id = rows.job.id ∧ KeepsClient rows.quota later.quota)
    (fun hI hstep => ⟨hstep.job_id.trans hI.1, hI.2.trans hstep.keepsClient⟩) hcall ⟨rfl, .refl _⟩

/-! ## Database states -/

def Database.HasClient (db : Database) (id : Uuid) : Prop := ∃ client ∈ db.clients, client.id = id

/-- The three foreign keys to clients, and the primary key of jobs. -/
structure Database.Referential (db : Database) : Prop where
  keys : (db.downloads.map (·.job.id)).Nodup
  entries : ∀ rows ∈ db.downloads, ∀ quota ∈ rows.quota,
    db.HasClient quota.entry.anonymousClientId
  orders : ∀ order ∈ db.orders, db.HasClient order.anonymousClientId
  entitlements : ∀ entitlement ∈ db.entitlements, db.HasClient entitlement.anonymousClientId

/-- One committed transaction of the application. -/
inductive DatabaseStep (compat : Bool) (db : Database) : Database → Prop
  | createClient {client : AnonymousClient} : client.createdAt < client.expiresAt →
      (∀ c ∈ db.clients, c.id ≠ client.id) →
      DatabaseStep compat db { db with clients := client :: db.clients }
  | enqueue {rows : DownloadRows} : Enqueued rows → (∀ r ∈ db.downloads, r.job.id ≠ rows.job.id) →
      (∀ quota ∈ rows.quota, db.HasClient quota.entry.anonymousClientId) →
      DatabaseStep compat db { db with downloads := rows :: db.downloads }
  | call {rows rows' : DownloadRows} : rows ∈ db.downloads → Commits compat rows rows' →
      DatabaseStep compat db { db with downloads := storeRows rows' db.downloads }
  | createOrder {order : PaymentOrder} : db.HasClient order.anonymousClientId →
      DatabaseStep compat db { db with orders := order :: db.orders }
  /- a rewrite of orders that keeps their clients: `mark_pending`, `mark_paid`, `expire_unpaid` -/
  | updateOrders {write : PaymentOrder → PaymentOrder} :
      (∀ order, (write order).anonymousClientId = order.anonymousClientId) →
      DatabaseStep compat db { db with orders := db.orders.map write }
  | grant {order : PaymentOrder} {entitlement : PremiumEntitlement} : order ∈ db.orders →
      entitlement.anonymousClientId = order.anonymousClientId →
      DatabaseStep compat db { db with entitlements := entitlement :: db.entitlements }
  | reconcile {pass : QuotaReconciler} {db' : Database} {result : ReconcileResult} :
      pass.run db = .ok (db', result) → DatabaseStep compat db db'

/-- The states of a database that starts empty. -/
def Database.Reachable (compat : Bool) : Database → Prop :=
  ReflTransGen (DatabaseStep compat) ⟨[], [], [], []⟩

/-! ## A pass keeps the references -/

/-- Rows that only lose their entry, or keep its client. -/
def KeepsRows (rows rows' : DownloadRows) : Prop :=
  rows'.job.id = rows.job.id ∧ KeepsClient rows.quota rows'.quota

theorem KeepsRows.refl (rows : DownloadRows) : KeepsRows rows rows := ⟨rfl, .refl _⟩

theorem Step.keepsRows (h : Step compat actor rows rows') : KeepsRows rows rows' :=
  ⟨h.job_id, h.keepsClient⟩

theorem retire_keepsRows (h : pass.retire clients rows = .ok rows') : KeepsRows rows rows' := by
  unfold retire at h
  split at h
  · cases h
    exact .refl _
  · simp only [bind_eq_ok] at h
    obtain ⟨_, _, h⟩ := h
    split at h
    · cases h
      exact .refl _
    · cases h
      have hstep : Step false .system rows
          (deleteTerminalEntry (pass.now - pass.retention) rows) := .prune
      exact hstep.keepsRows

theorem pass_keepsRows {step : DownloadRows → Except Raised DownloadRows} {ks : List Uuid}
    {downloads downloads' : List DownloadRows} (hks : ks.Nodup)
    (hstep : ∀ rows rows', step rows = .ok rows' → KeepsRows rows rows')
    (h : Batches.pass (·.job.id) step ks downloads = .ok downloads') :
    ∃ write, (∀ rows, KeepsRows rows (write rows)) ∧ downloads' = downloads.map write := by
  obtain ⟨_, rfl⟩ := (pass_eq_ok (fun rows rows' h => (hstep rows rows' h).1) hks).mp h
  refine ⟨_, fun rows => ?_, rfl⟩
  split
  · exact repaired_kept KeepsRows.refl (fun h => hstep _ _ h) rows
  · exact .refl rows

/-- A rewrite of the jobs that keeps their keys and the clients of their entries. -/
theorem Database.Referential.map (h : db.Referential) {write : DownloadRows → DownloadRows}
    (hwrite : ∀ rows, KeepsRows rows (write rows)) :
    Database.Referential { db with downloads := db.downloads.map write } where
  keys := by
    have hkeys : (fun rows : DownloadRows => rows.job.id) ∘ write = fun rows => rows.job.id :=
      funext fun rows => (hwrite rows).1
    rw [List.map_map, hkeys]
    exact h.keys
  entries := by
    rw [List.forall_mem_map]
    intro rows hrows quota hquota
    obtain ⟨q, hq, hclient⟩ := (hwrite rows).2 quota hquota
    rw [hclient]
    exact h.entries rows hrows q hq
  orders := h.orders
  entitlements := h.entitlements

theorem repair_referential {result : ReconcileResult} (h : db.Referential)
    (hrepair : pass.repair db = .ok (db', result)) :
    db'.Referential ∧ db'.clients = db.clients := by
  simp only [repair, bind_eq_ok] at hrepair
  obtain ⟨_, hterminal, _, hreserved, hrepair⟩ := hrepair
  cases hrepair
  obtain ⟨write, hwrite, rfl⟩ := pass_keepsRows (nodup_firstBy_filter h.keys)
    (fun _ _ h => (repairTerminal_step h).keepsRows) hterminal
  have hfirst := h.map hwrite
  obtain ⟨write', hwrite', rfl⟩ := pass_keepsRows (nodup_firstBy_filter hfirst.keys)
    (fun _ _ h => (repairReserved_step h).keepsRows) hreserved
  exact ⟨hfirst.map hwrite', rfl⟩

/-- Retention commits whenever every entry has its client. -/
theorem retire_referential (pass : QuotaReconciler) (h : db.Referential) :
    ∃ retired count, pass.deleteTerminalEntriesBefore db = .ok (retired, count) ∧
      retired.Referential ∧ retired.clients = db.clients := by
  have hnodup : (pass.selectRetired db.downloads).Nodup := nodup_firstBy_filter h.keys
  have hsteps : ∀ rows ∈ db.downloads, ∃ rows', pass.retire db.clients rows = .ok rows' := by
    intro rows hrows
    unfold retire
    split
    · exact ⟨_, rfl⟩
    · rename_i quota hquota
      have hclient : FetchNow.HasClient db.clients quota := h.entries rows hrows quota hquota
      rw [require_true hclient, ok_bind]
      split
      · exact ⟨_, rfl⟩
      · exact ⟨_, rfl⟩
  obtain ⟨downloads, hpass⟩ : ∃ downloads, Batches.pass (·.job.id) (pass.retire db.clients)
      (pass.selectRetired db.downloads) db.downloads = .ok downloads :=
    ⟨_, (pass_eq_ok (fun _ _ h => (retire_keepsRows h).1) hnodup).mpr
      ⟨fun rows hrows _ => hsteps rows hrows, rfl⟩⟩
  obtain ⟨write, hwrite, rfl⟩ := pass_keepsRows hnodup (fun _ _ => retire_keepsRows) hpass
  exact ⟨_, _, bind_eq_ok.mpr ⟨_, hpass, rfl⟩, h.map hwrite, rfl⟩

theorem deletable_entry {client : AnonymousClient} (h : pass.deletable db client = true)
    (hrows : rows ∈ db.downloads) : rows.entryOf client.id = false := by
  simp only [deletable, Bool.and_eq_true, Bool.not_eq_true', List.any_eq_false,
    Bool.not_eq_true] at h
  exact h.2 rows hrows

/-- The clients whose deletion the pass asks for. -/
theorem mem_expiredClients {id : Uuid} (h : id ∈ pass.expiredClients db) :
    ∃ client ∈ db.clients, client.id = id ∧ pass.deletable db client = true := by
  obtain ⟨client, hclient, rfl⟩ := List.mem_map.mp h
  obtain ⟨hstored, hdeletable⟩ := List.mem_filter.mp (mem_of_mem_firstBy hclient)
  exact ⟨client, hstored, rfl, (Bool.and_eq_true_iff.mp hdeletable).1⟩

/-- What the database checks when the selected clients are deleted. -/
theorem deleteExpiredClients_eq_ok {count : Nat} :
    pass.deleteExpiredClientsWithoutEntries db = .ok (db', count) ↔
      (∀ order ∈ db.orders, order.anonymousClientId ∉ pass.expiredClients db) ∧
        (∀ entitlement ∈ db.entitlements,
          entitlement.anonymousClientId ∉ pass.expiredClients db) ∧
        { db with clients := db.clients.filter (·.id ∉ pass.expiredClients db) } = db' ∧
        (pass.expiredClients db).length = count := by
  have hentries : ∀ id ∈ pass.expiredClients db, ∀ rows ∈ db.downloads,
      rows.entryOf id = false := by
    intro id hid rows hrows
    obtain ⟨client, _, rfl, hdeletable⟩ := mem_expiredClients hid
    exact deletable_entry hdeletable hrows
  simp only [deleteExpiredClientsWithoutEntries, bind_eq_ok, require_eq_ok, Except.ok.injEq,
    Prod.mk.injEq]
  constructor
  · rintro ⟨_, _, _, horders, _, hentitlements, rfl, rfl⟩
    exact ⟨horders, hentitlements, rfl, rfl⟩
  · rintro ⟨horders, hentitlements, rfl, rfl⟩
    exact ⟨(), hentries, (), horders, (), hentitlements, rfl, rfl⟩

theorem deleteExpiredClients_referential {count : Nat} (h : db.Referential)
    (hdelete : pass.deleteExpiredClientsWithoutEntries db = .ok (db', count)) :
    db'.Referential := by
  obtain ⟨horders, hentitlements, rfl, _⟩ := deleteExpiredClients_eq_ok.mp hdelete
  have hkept : ∀ {id}, db.HasClient id → id ∉ pass.expiredClients db →
      Database.HasClient
        { db with clients := db.clients.filter (·.id ∉ pass.expiredClients db) } id := by
    rintro id ⟨client, hclient, rfl⟩ hid
    exact ⟨client, List.mem_filter.mpr ⟨hclient, by simpa using hid⟩, rfl⟩
  refine ⟨h.keys, fun rows hrows quota hquota => ?_, fun order horder => ?_,
    fun entitlement hentitlement => ?_⟩
  · refine hkept (h.entries rows hrows quota hquota) fun hid => ?_
    obtain ⟨client, _, hclient, hdeletable⟩ := mem_expiredClients hid
    have hentry := deletable_entry hdeletable hrows
    simp [DownloadRows.entryOf, show rows.quota = some quota from hquota, hclient] at hentry
  · exact hkept (h.orders order horder) (horders order horder)
  · exact hkept (h.entitlements entitlement hentitlement) (hentitlements entitlement hentitlement)

theorem run_referential {result : ReconcileResult} (h : db.Referential)
    (hrun : pass.run db = .ok (db', result)) : db'.Referential := by
  simp only [run, prune, bind_eq_ok] at hrun
  obtain ⟨⟨repaired, _⟩, hrepair, ⟨_, _⟩, ⟨⟨retired, _⟩, hretire, ⟨_, _⟩, hdelete, hpruned⟩, hrun⟩ :=
    hrun
  cases hpruned
  cases hrun
  obtain ⟨hrepaired, _⟩ := repair_referential h hrepair
  obtain ⟨_, _, hretire', hretired, _⟩ := retire_referential pass hrepaired
  rw [hretire] at hretire'
  cases hretire'
  exact deleteExpiredClients_referential hretired hdelete

/-! ## Reachable databases -/

theorem Database.Referential.addClient (h : db.Referential) (client : AnonymousClient) :
    Database.Referential { db with clients := client :: db.clients } := by
  have hkept : ∀ {id}, db.HasClient id →
      Database.HasClient { db with clients := client :: db.clients } id :=
    fun ⟨c, hc, hid⟩ => ⟨c, List.mem_cons_of_mem _ hc, hid⟩
  exact ⟨h.keys, fun rows hrows quota hquota => hkept (h.entries rows hrows quota hquota),
    fun order horder => hkept (h.orders order horder),
    fun entitlement hentitlement => hkept (h.entitlements entitlement hentitlement)⟩

theorem DatabaseStep.referential (h : DatabaseStep compat db db') (hdb : db.Referential) :
    db'.Referential := by
  cases h with
  | createClient => exact hdb.addClient _
  | enqueue _ hfresh hclient =>
    refine { hdb with keys := ?_, entries := List.forall_mem_cons.mpr ⟨hclient, hdb.entries⟩ }
    refine List.nodup_cons.mpr ⟨fun hmem => ?_, hdb.keys⟩
    obtain ⟨r, hr, hid⟩ := List.mem_map.mp hmem
    exact hfresh r hr hid
  | @call rows rows' hrows hcommits =>
    obtain ⟨hid, hclient⟩ := hcommits.keepsClient
    have hkeys : (fun r : DownloadRows => r.job.id) ∘
        (fun stored => if stored.job.id = rows'.job.id then rows' else stored) =
        fun r => r.job.id := by
      funext stored
      simp only [Function.comp]
      split
      · rename_i hsame
        exact hsame.symm
      · rfl
    refine { hdb with keys := ?_, entries := fun r hr quota hquota => ?_ }
    · rw [storeRows, List.map_map, hkeys]
      exact hdb.keys
    · rcases mem_storeRows hr with rfl | ⟨hr, _⟩
      · obtain ⟨q, hq, hsame⟩ := hclient quota hquota
        rw [hsame]
        exact hdb.entries rows hrows q hq
      · exact hdb.entries r hr quota hquota
  | createOrder hclient =>
    exact { hdb with orders := List.forall_mem_cons.mpr ⟨hclient, hdb.orders⟩ }
  | updateOrders hwrite =>
    refine { hdb with orders := List.forall_mem_map.mpr fun order horder => ?_ }
    rw [hwrite]
    exact hdb.orders order horder
  | grant horder hclient =>
    refine { hdb with entitlements := List.forall_mem_cons.mpr ⟨?_, hdb.entitlements⟩ }
    rw [hclient]
    exact hdb.orders _ horder
  | reconcile hrun => exact run_referential hdb hrun

theorem Database.Reachable.referential (h : Database.Reachable compat db) : db.Referential :=
  invariant_run (fun hI hstep => hstep.referential hI) h ⟨by simp, by simp, by simp, by simp⟩

/-! ## The errors of the repairs -/

def Raised.foreignKey : Raised → Bool
  | .integrityError .entryClient | .integrityError .orderClient
  | .integrityError .entitlementClient => true
  | _ => false

theorem onQuota_foreignKey (e : Raised) (h : e.onQuota = true) : ¬ e.foreignKey = true := by
  cases e with
  | integrityError violated =>
    cases violated <;> simp_all [Raised.onQuota, Constraint.onQuota, Raised.foreignKey]
  | downloadError | quotaInvariantError | anonymousIdentityRequired | freeQuotaExceeded
  | valueError | inspectionError | paymentError | premiumEntitlementInvariantError =>
    simp [Raised.foreignKey]

theorem flushJob_foreignKey {job : MediaDownloadJob} :
    Avoids (·.foreignKey = true) (flushJob job) :=
  .require_bind (by decide) fun _ => .require_bind (by decide) fun _ =>
    .require_bind (by decide) fun _ => .require_bind (by decide) fun _ =>
    .require_bind (by decide) fun _ => .require_bind (by decide) fun _ =>
    .require_bind (by decide) fun _ => .require_bind (by decide) fun _ => avoids_ok

theorem repairTerminal_foreignKey :
    Avoids (·.foreignKey = true) (pass.repairTerminal clients rows) := by
  refine Avoids.savepoint ?_
  split
  · exact avoids_ok
  split
  · simp only [reconcileInvalid]
    split
    · exact avoids_ok
    split
    · exact avoids_ok
    split
    · exact avoids_ok
    refine Avoids.bind ?_ fun _ _ => avoids_ok
    unfold quarantineReadyTerminalQuotaLocked
    split
    · exact avoids_ok
    refine Avoids.bind ?_ fun _ _ => avoids_ok
    refine Avoids.bind ?_ fun _ _ => flushJob_foreignKey.bind fun _ _ => avoids_ok
    unfold assertExpirable assertTransition
    split
    · exact avoids_require.mpr (.inr (by decide))
    · exact avoids_require.mpr (.inr (by decide))
  · exact avoids_ok

theorem settleReserved_foreignKey {expired : Bool} {quota : QuotaRows} {job : MediaDownloadJob} :
    Avoids (·.foreignKey = true) (settleReserved now expired quota job rows) :=
  (releaseLocked_avoids onQuota_foreignKey).bind fun _ _ => flushJob_foreignKey.bind fun _ _ =>
    (flushEntry_avoids onQuota_foreignKey).bind fun _ _ => avoids_ok

theorem repairReserved_foreignKey :
    Avoids (·.foreignKey = true) (pass.repairReserved clients rows) := by
  unfold repairReserved
  split
  · exact avoids_ok
  refine .require_bind (by decide) fun _ => ?_
  simp only [reconcileReserved]
  split
  · exact avoids_ok
  split
  · exact avoids_ok
  split
  · split
    · exact avoids_error.mpr (by decide)
    split
    · refine (consumeLocked_avoids onQuota_foreignKey).bind fun _ _ => ?_
      exact (flushEntry_avoids onQuota_foreignKey).bind fun _ _ => avoids_ok
    · exact (reconcileLocked_avoids onQuota_foreignKey).bind fun _ _ => avoids_ok
  · exact settleReserved_foreignKey
  · exact settleReserved_foreignKey
  · split
    · exact settleReserved_foreignKey
    · exact avoids_ok
  · split
    · exact settleReserved_foreignKey
    · exact avoids_ok
  · exact avoids_ok

theorem repair_foreignKey : Avoids (·.foreignKey = true) (pass.repair db) :=
  (pass_avoids fun _ => repairTerminal_foreignKey).bind fun _ _ =>
    (pass_avoids fun _ => repairReserved_foreignKey).bind fun _ _ => avoids_ok

/-! ## The pruned clients -/

/-- Some row of some table refers to the client. -/
def Database.References (db : Database) (id : Uuid) : Prop :=
  (∃ rows ∈ db.downloads, rows.entryOf id = true) ∨
    (∃ order ∈ db.orders, order.anonymousClientId = id) ∨
    ∃ entitlement ∈ db.entitlements, entitlement.anonymousClientId = id

/-- The call selects no client that is referred to, and commits. -/
def Respects (pass : QuotaReconciler) (db : Database) : Prop :=
  (∀ id ∈ pass.expiredClients db, ¬ db.References id) ∧
    ∃ pruned count, pass.deleteExpiredClientsWithoutEntries db = .ok (pruned, count)

/-- Before each deletable client of an order or an entitlement, the limit is used up by clients
that expired earlier. -/
def Spared (pass : QuotaReconciler) (db : Database) : Prop :=
  ∀ client ∈ db.clients, (pass.deletable db client && !pass.locked client.id) = true →
    ((∃ order ∈ db.orders, order.anonymousClientId = client.id) ∨
      ∃ entitlement ∈ db.entitlements, entitlement.anonymousClientId = client.id) →
    pass.limit ≤ ((db.clients.filter fun c =>
      pass.deletable db c && !pass.locked c.id).filter (·.expiresAt < client.expiresAt)).length

theorem deletable_perm (pass : QuotaReconciler) (hperm : clients.Perm db.clients) :
    (clients.filter fun c => pass.deletable { db with clients } c && !pass.locked c.id).Perm
      (db.clients.filter fun c => pass.deletable db c && !pass.locked c.id) :=
  hperm.filter fun c => pass.deletable db c && !pass.locked c.id

theorem Spared.respects (h : Spared pass db) (hperm : clients.Perm db.clients) :
    Respects pass { db with clients } := by
  have hunreferenced : ∀ id ∈ pass.expiredClients { db with clients },
      ¬ ((∃ order ∈ db.orders, order.anonymousClientId = id) ∨
        ∃ entitlement ∈ db.entitlements, entitlement.anonymousClientId = id) := by
    intro id hid hreferred
    obtain ⟨client, hclient, rfl⟩ := List.mem_map.mp hid
    obtain ⟨hstored, hdeletable⟩ := List.mem_filter.mp (mem_of_mem_firstBy hclient)
    have hbefore := length_before_lt hclient
    have hlength := ((deletable_perm pass hperm).filter (·.expiresAt < client.expiresAt)).length_eq
    have hlimit := h client (hperm.mem_iff.mp hstored) hdeletable hreferred
    exact absurd hbefore (not_lt.mpr (hlimit.trans hlength.ge))
  refine ⟨fun id hid hreferred => ?_, _, _, deleteExpiredClients_eq_ok.mpr
    ⟨fun order horder hid => hunreferenced _ hid (.inl ⟨order, horder, rfl⟩),
      fun entitlement hentitlement hid =>
        hunreferenced _ hid (.inr ⟨entitlement, hentitlement, rfl⟩), rfl, rfl⟩⟩
  rcases hreferred with ⟨rows, hrows, hentry⟩ | hreferred
  · obtain ⟨client, _, rfl, hdeletable⟩ := mem_expiredClients hid
    simp [deletable_entry hdeletable hrows] at hentry
  · exact hunreferenced id hid hreferred

/-- In some order of the clients that expired together, a client that is not spared is
selected. -/
theorem Spared.of_respects
    (h : ∀ clients, clients.Perm db.clients → Respects pass { db with clients }) :
    Spared pass db := by
  intro client hstored hdeletable hreferred
  by_contra hlimit
  have hperm : (client :: db.clients.erase client).Perm db.clients :=
    (List.perm_cons_erase hstored).symm
  have hselected : client.id ∈
      pass.expiredClients { db with clients := client :: db.clients.erase client } := by
    refine List.mem_map_of_mem ?_
    have hfirst : ((client :: db.clients.erase client).filter fun c =>
        pass.deletable db c && !pass.locked c.id) =
        client :: (db.clients.erase client).filter fun c =>
          pass.deletable db c && !pass.locked c.id := List.filter_cons_of_pos hdeletable
    change client ∈ firstBy _ _ ((client :: db.clients.erase client).filter fun c =>
      pass.deletable db c && !pass.locked c.id)
    rw [hfirst]
    refine mem_firstBy_cons (lt_of_le_of_lt (List.Sublist.length_le ?_) (not_le.mp hlimit))
    exact ((List.erase_sublist.filter _).filter _)
  exact (h _ hperm).1 client.id hselected (.inr hreferred)

/-- Pruning in a reachable database: the repairs raise no foreign-key error and the retention
commits; the call then respects the references, however ties are broken, exactly when every client
of an order or an entitlement is spared, and in that case the pass commits. -/
theorem quota_pruning_respects (hreach : Database.Reachable compat db) :
    Avoids (·.foreignKey = true) (pass.repair db) ∧
      ∀ repaired settled, pass.repair db = .ok (repaired, settled) →
        ∃ retired count, pass.deleteTerminalEntriesBefore repaired = .ok (retired, count) ∧
          ((∀ clients, clients.Perm retired.clients → Respects pass { retired with clients }) ↔
            Spared pass retired) ∧
          (Spared pass retired → ∃ final, pass.run db = .ok final) := by
  refine ⟨repair_foreignKey, fun repaired settled hrepair => ?_⟩
  obtain ⟨hrepaired, _⟩ := repair_referential hreach.referential hrepair
  obtain ⟨retired, count, hretire, _⟩ := retire_referential pass hrepaired
  refine ⟨retired, count, hretire, ⟨Spared.of_respects, fun h _ => h.respects⟩, fun hspared => ?_⟩
  obtain ⟨_, pruned, deleted, hdelete⟩ := hspared.respects (List.Perm.refl retired.clients)
  refine ⟨(pruned, { settled with entriesDeleted := count, clientsDeleted := deleted }), ?_⟩
  exact bind_eq_ok.mpr ⟨_, hrepair, bind_eq_ok.mpr ⟨_, bind_eq_ok.mpr ⟨_, hretire,
    bind_eq_ok.mpr ⟨_, hdelete, rfl⟩⟩, rfl⟩⟩

/-- A client that expired at time 10 with an unpaid order. -/
def expiredPayer : Database :=
  { clients := [⟨1, 0, 10⟩], downloads := [],
    orders := [
      { id := 1, anonymousClientId := 1, provider := "robokassa", providerInvoiceId := 1,
        productCode := "premium_24h", amountMinor := 100, currency := "RUB",
        entitlementDurationSeconds := 86400, status := .pending, isTest := true,
        receiptJson := "{}", creationIdempotencyHash := "h", createdAt := 1, updatedAt := 1,
        pendingAt := some 1, paidAt := none, providerCallbackAt := none, expiresAt := 5 }],
    entitlements := [] }

theorem expiredPayer_reachable : Database.Reachable false expiredPayer :=
  .tail (.single (.createClient (by decide : (0 : Timestamp) < 10) (by simp)))
    (.createOrder ⟨⟨1, 0, 10⟩, by simp, rfl⟩)

/-- A pass over the payer. -/
theorem quota_pruning_respects_expiredPayer : ∃ retired,
    ((∀ clients, clients.Perm retired.clients → Respects samplePass { retired with clients }) ↔
      Spared samplePass retired) := by
  obtain ⟨⟨repaired, settled⟩, hrepair⟩ : ∃ final, samplePass.repair expiredPayer = .ok final :=
    ⟨_, rfl⟩
  obtain ⟨retired, _, _, hrespects, _⟩ :=
    (quota_pruning_respects expiredPayer_reachable).2 repaired settled hrepair
  exact ⟨retired, hrespects⟩

/-- The pass that runs after the payer expired fails, and with it every repair. -/
theorem pruning_violates_orders : Database.Reachable false expiredPayer ∧
    samplePass.run expiredPayer = .error (.integrityError .orderClient) ∧
    ¬ Respects samplePass expiredPayer := by
  refine ⟨expiredPayer_reachable, by decide +kernel, ?_⟩
  rintro ⟨_, pruned, count, hdelete⟩
  have hfails : samplePass.deleteExpiredClientsWithoutEntries expiredPayer =
      .error (.integrityError .orderClient) := by decide +kernel
  rw [hfails] at hdelete
  cases hdelete

end FetchNow
