import FetchNow.Downloads.Artifacts
import FetchNow.Downloads.Constraints

/-!
# Hygiene among workers

The database and the artifact store as one transition system: executors claim, publish and
complete, and a hygiene pass reads its two snapshots, deletes what it expired and then sweeps
orphans, one entry at a time and interleaved with everything else.
-/
namespace FetchNow

open Transactions

open Relation (ReflTransGen)

variable {rows rows' : DownloadRows} {job job' job'' : MediaDownloadJob} {compat applied : Bool}
  {owner : String} {fence : Nat}

/-! ## What a call does to a job that is not claimed -/

/-- The row keeps its key and its target, is downloading only if it was under the same fence, and
refers to an artifact only if it did, or if the artifact is one of `new`. -/
structure Evolves (new : Uuid → Prop) (job job' : MediaDownloadJob) : Prop where
  id : job'.id = job.id
  target : job'.target = job.target
  fence : job.fenceToken ≤ job'.fenceToken
  downloading : job'.publicState = .downloading →
    job.publicState = .downloading ∧ job'.fenceToken = job.fenceToken
  artifact : ∀ artifactId, job'.artifactId = some artifactId →
    job.artifactId = some artifactId ∨ new artifactId

theorem Evolves.refl {new : Uuid → Prop} (job : MediaDownloadJob) : Evolves new job job :=
  ⟨rfl, rfl, le_rfl, fun h => ⟨h, rfl⟩, fun _ h => .inl h⟩

theorem Evolves.trans {new : Uuid → Prop} (h : Evolves new job job')
    (h' : Evolves new job' job'') : Evolves new job job'' where
  id := h'.id.trans h.id
  target := h'.target.trans h.target
  fence := h.fence.trans h'.fence
  downloading hstate := by
    obtain ⟨hstate', hfence'⟩ := h'.downloading hstate
    obtain ⟨hstate, hfence⟩ := h.downloading hstate'
    exact ⟨hstate, hfence'.trans hfence⟩
  artifact artifactId hsome := by
    rcases h'.artifact artifactId hsome with hsome | hnew
    · exact h.artifact artifactId hsome
    · exact .inr hnew

/-- What the call publishes, if the caller holds the job. -/
def WorkerCall.Publishes (owner : String) (fence : Nat) (job : MediaDownloadJob)
    (call : WorkerCall) (artifactId : Uuid) : Prop :=
  ∃ artifact clock, call = .completeReady artifact clock ∧ artifact.id = artifactId ∧
    Fenced owner fence job

theorem HolderWrite.evolves {call : WorkerCall} (h : HolderWrite owner fence job call job') :
    Evolves (call.Publishes owner fence job) job job' := by
  cases h with
  | kept => exact .refl job
  | renewed | percent | staged => exact ⟨rfl, rfl, le_rfl, fun h => ⟨h, rfl⟩, fun _ h => .inl h⟩
  | ready hfenced =>
    refine ⟨rfl, rfl, le_rfl, nofun, fun artifactId hsome => .inr ⟨_, _, rfl, ?_, hfenced⟩⟩
    exact Option.some.inj hsome
  | failed | cancelled => exact ⟨rfl, rfl, le_rfl, nofun, nofun⟩
  | retried | released => exact ⟨rfl, rfl, le_rfl, nofun, fun _ h => .inl h⟩

theorem Step.evolves {new : Uuid → Prop} (h : Step compat .system rows rows') :
    Evolves new rows.job rows'.job := by
  generalize hactor : Leases.Actor.system = actor at h
  cases h with
  | idle | settle | charge | prune => exact .refl _
  | cancelQueued => exact ⟨rfl, rfl, le_rfl, nofun, fun _ h => .inl h⟩
  | reclaimCancel | reclaimExhausted | expire => exact ⟨rfl, rfl, Nat.le_succ _, nofun, nofun⟩
  | reclaim => exact ⟨rfl, rfl, Nat.le_succ _, nofun, fun _ h => .inl h⟩
  | requestCancel | promote => exact ⟨rfl, rfl, le_rfl, fun h => ⟨h, rfl⟩, fun _ h => .inl h⟩
  | ledger hframe => cases hframe <;> exact .refl _
  | claim | renew | stage | percent | ready | fail | cancel | retry | release => cases hactor

theorem Steps.evolves {new : Uuid → Prop} (h : Steps compat .system rows rows') :
    Evolves new rows.job rows'.job := by
  induction h with
  | refl => exact .refl _
  | tail _ hstep ih => exact ih.trans hstep.evolves

/-- What a call publishes. -/
def Call.Publishes (job : MediaDownloadJob) (call : Call) (artifactId : Uuid) : Prop :=
  ∃ owner fence worker, call = .worker owner fence worker ∧
    worker.Publishes owner fence job artifactId

theorem Call.evolves {call : Call}
    (hclaim : ∀ workerId lease now clock, call ≠ .claimNext workerId lease now clock)
    (h : call.run compat rows = .ok rows') :
    Evolves (call.Publishes rows.job) rows.job rows'.job := by
  have hsteps := run_steps h
  cases call with
  | claimNext workerId lease now clock => exact absurd rfl (hclaim workerId lease now clock)
  | worker owner fence worker =>
    obtain ⟨⟨_, _⟩, hworker, h⟩ := bind_eq_ok.mp h
    cases h
    have hevolves := (WorkerCall.run_write hworker).evolves
    exact ⟨hevolves.id, hevolves.target, hevolves.fence, hevolves.downloading,
      fun artifactId hsome => (hevolves.artifact artifactId hsome).imp_right
        fun hnew => ⟨owner, fence, worker, rfl, hnew⟩⟩
  | _ => exact Steps.evolves hsteps

/-! ## The database and the store -/

/-- `list_active_fences`. -/
def listActiveFences (db : List DownloadRows) : List (Uuid × Nat) :=
  (db.filter (·.job.publicState = .downloading)).map fun rows => (rows.job.id, rows.job.fenceToken)

/-- `list_referenced_artifact_ids`. -/
def listReferencedArtifactIds (db : List DownloadRows) : List Uuid :=
  db.filterMap (·.job.artifactId)

/-- Write the rows of one job by primary key. -/
def storeRows (rows : DownloadRows) (db : List DownloadRows) : List DownloadRows :=
  db.map fun stored => if stored.job.id = rows.job.id then rows else stored

/-- Where `_hygiene_download_jobs` is. -/
inductive HygienePass where
  | idle
  | writing (expired : List Uuid)
  | fenced (expired : List Uuid) (snapshotAt : Timestamp) (active : List (Uuid × Nat))
  | committed (expired : List Uuid) (snapshotAt : Timestamp) (active : List (Uuid × Nat))
      (referenced : List Uuid)
  | sweeping (startedAt snapshotAt : Timestamp) (active : List (Uuid × Nat))
      (referenced : List Uuid) (removed : Nat)
  deriving DecidableEq, Repr

/-- The claim of an executor and the artifact identifier it has chosen. -/
abbrev Publication := MediaDownloadJob × Uuid

/-- The database, the artifact store, and what executors and the hygiene pass remember: the claims
that were handed out, the identifiers that `publish` chose, and those it returned. -/
structure World where
  now : Timestamp
  db : List DownloadRows
  workspaces : List AttemptEntry
  published : List PublishedEntry
  claims : List MediaDownloadJob
  chosen : List Publication
  returned : List Publication
  pass : HygienePass

inductive Removed where
  | workspace (entry : AttemptEntry)
  | publication (entry : PublishedEntry)

/-- One removal of `reconcile`. -/
inductive Sweep (grace : Timestamp) (limit : Nat) (w : World) : Removed → World → Prop
  | workspace {startedAt snapshotAt : Timestamp} {active : List (Uuid × Nat)}
      {referenced : List Uuid} {removed : Nat} {entry : AttemptEntry} :
      w.pass = .sweeping startedAt snapshotAt active referenced removed → removed < limit →
      entry ∈ w.workspaces → attemptSwept active startedAt grace entry = true →
      Sweep grace limit w (.workspace entry)
        { w with
          workspaces := w.workspaces.filter (· ≠ entry)
          pass := .sweeping startedAt snapshotAt active referenced (removed + 1) }
  | publication {startedAt snapshotAt : Timestamp} {active : List (Uuid × Nat)}
      {referenced : List Uuid} {removed : Nat} {entry : PublishedEntry} :
      w.pass = .sweeping startedAt snapshotAt active referenced removed → removed < limit →
      entry ∈ w.published → publishedSwept referenced active startedAt grace entry = true →
      Sweep grace limit w (.publication entry)
        { w with
          published := w.published.filter (·.name ≠ entry.name)
          pass := .sweeping startedAt snapshotAt active referenced (removed + 1) }

/-- A call on a job that is no claim, and completes it only with an artifact that was published
under the fence of the caller. -/
structure Performs (compat : Bool) (w : World) (call : Call) (rows rows' : DownloadRows) :
    Prop where
  stored : rows ∈ w.db
  unclaiming : ∀ workerId lease now clock, call ≠ .claimNext workerId lease now clock
  completing : ∀ owner fence artifact clock,
    call = .worker owner fence (.completeReady artifact clock) →
    ∃ snap, (snap, artifact.id) ∈ w.returned ∧ snap.id = rows.job.id ∧ snap.fenceToken = fence
  run : call.run compat rows = .ok rows'

inductive WorldStep (compat : Bool) (grace : Timestamp) (limit : Nat) (w : World) : World → Prop
  | tick {now : Timestamp} : w.now ≤ now → WorldStep compat grace limit w { w with now }
  | enqueue {rows : DownloadRows} : Enqueued rows → (∀ r ∈ w.db, r.job.id ≠ rows.job.id) →
      WorldStep compat grace limit w { w with db := rows :: w.db }
  | claim {rows : DownloadRows} {workerId : String} {lease now : Timestamp} {clock : Clock}
      {job : MediaDownloadJob} : rows ∈ w.db →
      claimNext workerId lease now clock rows.job = .ok (job, true) →
      WorldStep compat grace limit w
        { w with db := storeRows { rows with job } w.db, claims := job :: w.claims }
  | call {call : Call} {rows rows' : DownloadRows} : Performs compat w call rows rows' →
      WorldStep compat grace limit w { w with db := storeRows rows' w.db }
  /- `create_attempt_workspace`, later writes in it, and `cleanup_attempt_workspace` -/
  | workspace {snap : MediaDownloadJob} : snap ∈ w.claims →
      WorldStep compat grace limit w
        { w with
          workspaces :=
            ⟨snap.id, snap.attemptCount, snap.fenceToken, .directory, w.now⟩ :: w.workspaces }
  | touch {entry : AttemptEntry} : entry ∈ w.workspaces →
      WorldStep compat grace limit w
        { w with
          workspaces := { entry with mtime := w.now } :: w.workspaces.filter (· ≠ entry) }
  | cleanup {entry : AttemptEntry} :
      WorldStep compat grace limit w { w with workspaces := w.workspaces.filter (· ≠ entry) }
  /- `publish`: the staging directory, its manifest, and the rename; or the failure of it -/
  | stage {snap : MediaDownloadJob} {artifactId : Uuid} : snap ∈ w.claims →
      (∀ p ∈ w.chosen, p.2 ≠ artifactId) →
      (∀ e ∈ w.published, e.name.artifactId ≠ some artifactId) →
      WorldStep compat grace limit w
        { w with
          published := ⟨.staging artifactId, .directory, w.now, none⟩ :: w.published
          chosen := (snap, artifactId) :: w.chosen }
  | describe {snap : MediaDownloadJob} {artifactId : Uuid} {output : Output}
      {manifest : Manifest} : (snap, artifactId) ∈ w.chosen → IsHexDigest output.sha256 →
      (output.createdAt ≠ "" ∧ output.expiresAt ≠ "") →
      publishManifest snap output = .ok manifest →
      WorldStep compat grace limit w
        { w with
          published := w.published.map fun e =>
            if e.name = .staging artifactId then
              { e with manifest := some manifest, mtime := w.now } else e }
  | rename {snap : MediaDownloadJob} {artifactId : Uuid} {entry : PublishedEntry} :
      (snap, artifactId) ∈ w.chosen → entry ∈ w.published → entry.name = .staging artifactId →
      entry.manifest.isSome →
      WorldStep compat grace limit w
        { w with
          published := { entry with name := .final artifactId } ::
            w.published.filter (·.name ≠ .staging artifactId)
          returned := (snap, artifactId) :: w.returned }
  | discard {artifactId : Uuid} :
      WorldStep compat grace limit w
        { w with published := w.published.filter (·.name ≠ .staging artifactId) }
  /- `_hygiene_download_jobs` -/
  | start : w.pass = .idle → WorldStep compat grace limit w { w with pass := .writing [] }
  | expire {expired artifactIds : List Uuid} {rows rows' : DownloadRows} {fresh : Nat → Uuid}
      {now : Timestamp} {clock : Clock} : w.pass = .writing expired → rows ∈ w.db →
      expireDueJobs fresh now clock rows = .ok (rows', artifactIds) →
      WorldStep compat grace limit w
        { w with db := storeRows rows' w.db, pass := .writing (expired ++ artifactIds) }
  | listActiveFences {expired : List Uuid} : w.pass = .writing expired →
      WorldStep compat grace limit w
        { w with pass := .fenced expired w.now (FetchNow.listActiveFences w.db) }
  | listReferencedArtifactIds {expired : List Uuid} {snapshotAt : Timestamp}
      {active : List (Uuid × Nat)} : w.pass = .fenced expired snapshotAt active →
      WorldStep compat grace limit w
        { w with
          pass :=
            .committed expired snapshotAt active (FetchNow.listReferencedArtifactIds w.db) }
  | deleteArtifact {expired : List Uuid} {snapshotAt : Timestamp} {active : List (Uuid × Nat)}
      {referenced : List Uuid} {artifactId : Uuid} :
      w.pass = .committed expired snapshotAt active referenced → artifactId ∈ expired →
      WorldStep compat grace limit w
        { w with published := w.published.filter (·.name.artifactId ≠ some artifactId) }
  | reconcile {expired : List Uuid} {snapshotAt : Timestamp} {active : List (Uuid × Nat)}
      {referenced : List Uuid} {inMemory : List (Uuid × Nat)} :
      w.pass = .committed expired snapshotAt active referenced → w.now - snapshotAt < grace →
      WorldStep compat grace limit w
        { w with pass := .sweeping w.now snapshotAt (active ++ inMemory) referenced 0 }
  | sweep {removed : Removed} {w' : World} : Sweep grace limit w removed w' →
      WorldStep compat grace limit w w'
  /- the end of the pass, or its failure at any point -/
  | finish : WorldStep compat grace limit w { w with pass := .idle }

/-- Before the first job there is at most litter in the store. -/
structure World.Initial (w : World) : Prop where
  db : w.db = []
  workspaces : w.workspaces = []
  published : ∀ e ∈ w.published, e.name.artifactId = none
  claims : w.claims = []
  chosen : w.chosen = []
  returned : w.returned = []
  pass : w.pass = .idle

end FetchNow
