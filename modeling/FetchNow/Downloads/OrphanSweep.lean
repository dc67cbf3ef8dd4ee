import FetchNow.Downloads.Coherence
import FetchNow.Downloads.Hygiene

/-! The orphan sweep never removes a live artifact or the workspace of a current claim. -/
namespace FetchNow

open Transactions

open Relation (ReflTransGen)

variable {w w' later : World} {rows rows' r : DownloadRows} {job : MediaDownloadJob}
  {compat : Bool} {grace t : Timestamp} {limit : Nat} {active : List (Uuid × Nat)}
  {referenced : List Uuid} {artifactId : Uuid}

theorem mem_storeRows {db : List DownloadRows} (h : r ∈ storeRows rows db) :
    r = rows ∨ (r ∈ db ∧ r.job.id ≠ rows.job.id) := by
  simp only [storeRows, List.mem_map] at h
  obtain ⟨stored, hstored, h⟩ := h
  split at h
  · exact .inl h.symm
  · rename_i hne
    exact .inr ⟨h ▸ hstored, h ▸ hne⟩

theorem storeRows_mem {db : List DownloadRows} (hrows : rows ∈ db)
    (hid : rows'.job.id = rows.job.id) :
    rows' ∈ storeRows rows' db :=
  List.mem_map.mpr ⟨rows, hrows, if_pos hid.symm⟩

theorem storeRows_other {db : List DownloadRows} (hr : r ∈ db) (hne : r.job.id ≠ rows.job.id) :
    r ∈ storeRows rows db :=
  List.mem_map.mpr ⟨r, hr, if_neg hne⟩

/-! ## What holds in every world -/

/-- The format option of a row fits its column. -/
def FitsOption (job : MediaDownloadJob) : Prop :=
  job.target.formatOptionId ≠ "" ∧ job.target.formatOptionId.length ≤ 64

/-- The manifest is readable and names the attempt of the claim. -/
def Describes (snap : MediaDownloadJob) (manifest : Manifest) : Prop :=
  parseManifest manifest = some manifest ∧ manifest.downloadJobId = snap.id ∧
    manifest.fence = snap.fenceToken

structure Valid (w : World) : Prop where
  unique : ∀ r ∈ w.db, ∀ r' ∈ w.db, r.job.id = r'.job.id → r = r'
  legal : ∀ r ∈ w.db, Legal r.job ∧ FitsOption r.job
  claimed : ∀ snap ∈ w.claims, (1 ≤ snap.attemptCount ∧ FitsOption snap) ∧
    ∃ r ∈ w.db, r.job.id = snap.id ∧ snap.fenceToken ≤ r.job.fenceToken
  workspace : ∀ e ∈ w.workspaces, e.kind = .directory ∧
    ∃ snap ∈ w.claims, snap.id = e.jobId ∧ snap.fenceToken = e.fence
  chosen : ∀ p ∈ w.chosen, p.1 ∈ w.claims
  author : ∀ p ∈ w.chosen, ∀ q ∈ w.chosen, p.2 = q.2 → p = q
  returned : ∀ p ∈ w.returned, p ∈ w.chosen
  entry : ∀ e ∈ w.published, ∀ artifactId, e.name.artifactId = some artifactId →
    e.kind = .directory ∧ ∃ p ∈ w.chosen, p.2 = artifactId ∧ ∀ m ∈ e.manifest, Describes p.1 m
  final : ∀ e ∈ w.published, ∀ artifactId, e.name = .final artifactId →
    e.manifest.isSome ∧ ∃ p ∈ w.returned, p.2 = artifactId
  staging : ∀ e ∈ w.published, ∀ artifactId, e.name = .staging artifactId →
    ∀ p ∈ w.returned, p.2 ≠ artifactId
  referenced : ∀ r ∈ w.db, ∀ artifactId, r.job.artifactId = some artifactId →
    ∃ p ∈ w.returned, p.2 = artifactId

theorem World.Initial.valid (h : w.Initial) : Valid w where
  unique := by simp [h.db]
  legal := by simp [h.db]
  claimed := by simp [h.claims]
  workspace := by simp [h.workspaces]
  chosen := by simp [h.chosen]
  author := by simp [h.chosen]
  returned := by simp [h.returned]
  entry e he artifactId hid := by simp [h.published e he] at hid
  final e he artifactId hname := by
    have hid := h.published e he
    simp [hname, EntryName.artifactId] at hid
  staging := by simp [h.returned]
  referenced := by simp [h.db]

/-- A claim is known for every workspace and every publication, so no fence is ahead of its row. -/
theorem Valid.fence_le (h : Valid w) (hr : r ∈ w.db) {snap : MediaDownloadJob}
    (hsnap : snap ∈ w.claims) (hid : r.job.id = snap.id) : snap.fenceToken ≤ r.job.fenceToken := by
  obtain ⟨_, r', hr', hid', hle⟩ := h.claimed snap hsnap
  obtain rfl := h.unique r hr r' hr' (hid.trans hid'.symm)
  exact hle

/-! ## Writes of the database -/

/-- A write of a row under its key; any artifact that it takes up was published under the fence
that the row is downloading under. -/
structure RowWrite (w : World) (rows rows' : DownloadRows) : Prop where
  stored : rows ∈ w.db
  legal : Legal rows'.job
  id : rows'.job.id = rows.job.id
  target : rows'.job.target = rows.job.target
  fence : rows.job.fenceToken ≤ rows'.job.fenceToken
  artifact : ∀ artifactId, rows'.job.artifactId = some artifactId →
    rows.job.artifactId = some artifactId ∨ ∃ p ∈ w.returned, p.2 = artifactId ∧
      p.1.id = rows.job.id ∧ rows.job.publicState = .downloading ∧
        p.1.fenceToken = rows.job.fenceToken

/-- A write that starts no attempt. -/
structure DbWrite (w : World) (rows rows' : DownloadRows) : Prop extends RowWrite w rows rows' where
  downloading : rows'.job.publicState = .downloading →
    rows.job.publicState = .downloading ∧ rows'.job.fenceToken = rows.job.fenceToken

theorem Valid.write (h : Valid w) (hwrite : RowWrite w rows rows') (pass : HygienePass) :
    Valid { w with db := storeRows rows' w.db, pass } where
  unique := by
    intro r hr r' hr' hid
    rcases mem_storeRows hr with rfl | ⟨hr, hne⟩ <;>
      rcases mem_storeRows hr' with rfl | ⟨hr', hne'⟩
    · rfl
    · exact absurd hid.symm hne'
    · exact absurd hid hne
    · exact h.unique r hr r' hr' hid
  legal := by
    intro r hr
    rcases mem_storeRows hr with rfl | ⟨hr, _⟩
    · refine ⟨hwrite.legal, ?_⟩
      rw [FitsOption, hwrite.target]
      exact (h.legal rows hwrite.stored).2
    · exact h.legal r hr
  claimed := by
    intro snap hsnap
    obtain ⟨hvalid, r, hr, hid, hle⟩ := h.claimed snap hsnap
    refine ⟨hvalid, ?_⟩
    by_cases hsame : r.job.id = rows'.job.id
    · obtain rfl := h.unique r hr rows hwrite.stored (hsame.trans hwrite.id)
      exact ⟨rows', storeRows_mem hr hwrite.id, hsame ▸ hid,
        hle.trans hwrite.fence⟩
    · exact ⟨r, storeRows_other hr hsame, hid, hle⟩
  workspace := h.workspace
  chosen := h.chosen
  author := h.author
  returned := h.returned
  entry := h.entry
  final := h.final
  staging := h.staging
  referenced := by
    intro r hr artifactId hsome
    rcases mem_storeRows hr with rfl | ⟨hr, _⟩
    · rcases hwrite.artifact artifactId hsome with hsome | ⟨p, hp, hid, _⟩
      · exact h.referenced rows hwrite.stored artifactId hsome
      · exact ⟨p, hp, hid⟩
    · exact h.referenced r hr artifactId hsome

theorem Performs.write {call : Call} (h : Performs compat w call rows rows') (hvalid : Valid w) :
    DbWrite w rows rows' := by
  have hevolves := Call.evolves h.unclaiming h.run
  refine ⟨⟨h.stored, ?_, hevolves.id, hevolves.target, hevolves.fence, fun artifactId hsome => ?_⟩,
    hevolves.downloading⟩
  · exact Call.run_invariant (I := fun rows => Legal rows.job) (fun hI hstep => hstep.legal hI)
      h.run (hvalid.legal rows h.stored).1
  · refine (hevolves.artifact artifactId hsome).imp_right ?_
    rintro ⟨owner, fence, _, rfl, artifact, clock, rfl, rfl, hfenced⟩
    obtain ⟨snap, hreturned, hid, hfence⟩ := h.completing owner fence artifact clock rfl
    exact ⟨_, hreturned, rfl, hid, hfenced.1, hfence.trans hfenced.2.2.symm⟩

theorem expireDueJobs_write {fresh : Nat → Uuid} {now : Timestamp} {clock : Clock}
    {artifactIds : List Uuid} (hvalid : Valid w) (hrows : rows ∈ w.db)
    (h : expireDueJobs fresh now clock rows = .ok (rows', artifactIds)) : DbWrite w rows rows' := by
  have hperforms : Performs false w (.expireDueJobs fresh now clock) rows rows' :=
    ⟨hrows, nofun, nofun, by simp [Call.run, h]⟩
  exact hperforms.write hvalid

theorem Valid.enqueue (h : Valid w) (hqueued : Enqueued rows)
    (hnew : ∀ r ∈ w.db, r.job.id ≠ rows.job.id) : Valid { w with db := rows :: w.db } :=
  { h with
    unique := by
      intro r hr r' hr' hid
      rcases List.mem_cons.mp hr with rfl | hmem <;> rcases List.mem_cons.mp hr' with rfl | hmem'
      · rfl
      · exact absurd hid.symm (hnew r' hmem')
      · exact absurd hid (hnew r hmem)
      · exact h.unique r hmem r' hmem' hid
    legal := List.forall_mem_cons.mpr ⟨⟨hqueued.legal, hqueued.fresh.option⟩, h.legal⟩
    claimed := by
      intro snap hsnap
      obtain ⟨hvalid, r, hr, hid⟩ := h.claimed snap hsnap
      exact ⟨hvalid, r, List.mem_cons_of_mem _ hr, hid⟩
    referenced := by
      refine List.forall_mem_cons.mpr ⟨fun artifactId hsome => ?_, h.referenced⟩
      simp [hqueued.fresh.unpublished] at hsome }

theorem claim_write {workerId : String} {lease now : Timestamp} {clock : Clock} (h : Valid w)
    (hrows : rows ∈ w.db) (hclaim : claimNext workerId lease now clock rows.job = .ok (job, true)) :
    RowWrite w rows { rows with job } := by
  have hstep : Step false (.claimer workerId) rows { rows with job } := claimNext_step hclaim
  obtain ⟨_, rfl⟩ := claimNext_applied hclaim
  exact ⟨hrows, hstep.legal (h.legal rows hrows).1, rfl, rfl, Nat.le_succ _, fun _ => .inl⟩

theorem Valid.claim {workerId : String} {lease now : Timestamp} {clock : Clock} (h : Valid w)
    (hrows : rows ∈ w.db) (hclaim : claimNext workerId lease now clock rows.job = .ok (job, true)) :
    Valid { w with db := storeRows { rows with job } w.db, claims := job :: w.claims } := by
  have hvalid := h.write (claim_write h hrows hclaim) w.pass
  obtain ⟨hlegal, hoption⟩ := h.legal rows hrows
  have hcount : 0 ≤ rows.job.attemptCount := hlegal.attemptCount
  obtain ⟨_, rfl⟩ := claimNext_applied hclaim
  have hattempt : 1 ≤ (claimedJob workerId lease now rows.job).attemptCount := by
    simp only [claimedJob]
    omega
  exact
    { hvalid with
      claimed := List.forall_mem_cons.mpr
        ⟨⟨⟨hattempt, hoption⟩, _, storeRows_mem hrows rfl, rfl, le_rfl⟩, hvalid.claimed⟩
      workspace := by
        intro e he
        obtain ⟨hkind, snap, hsnap, howner⟩ := h.workspace e he
        exact ⟨hkind, snap, List.mem_cons_of_mem _ hsnap, howner⟩
      chosen := fun p hp => List.mem_cons_of_mem _ (h.chosen p hp) }

/-! ## Writes of the store -/

theorem Valid.workspaces (h : Valid w) {workspaces : List AttemptEntry}
    (hentry : ∀ e ∈ workspaces, (∃ e' ∈ w.workspaces, e.kind = e'.kind ∧ e.jobId = e'.jobId ∧
        e.fence = e'.fence) ∨
      ∃ snap ∈ w.claims, e.kind = .directory ∧ snap.id = e.jobId ∧ snap.fenceToken = e.fence)
    (pass : HygienePass) : Valid { w with workspaces, pass } :=
  { h with
    workspace := by
      intro e he
      rcases hentry e he with ⟨e', he', hkind, hid, hfence⟩ | ⟨snap, hsnap, hkind, howner⟩
      · rw [hkind, hid, hfence]
        exact h.workspace e' he'
      · exact ⟨hkind, snap, hsnap, howner⟩ }

/-- Removing entries keeps a world valid. -/
theorem Valid.filter (h : Valid w) (keep : PublishedEntry → Bool) (pass : HygienePass) :
    Valid { w with published := w.published.filter keep, pass } :=
  { h with
    entry := fun e he => h.entry e (List.mem_filter.mp he).1
    final := fun e he => h.final e (List.mem_filter.mp he).1
    staging := fun e he => h.staging e (List.mem_filter.mp he).1 }

theorem Valid.stage {snap : MediaDownloadJob} (h : Valid w) (hsnap : snap ∈ w.claims)
    (hnew : ∀ p ∈ w.chosen, p.2 ≠ artifactId) :
    Valid { w with
      published := ⟨.staging artifactId, .directory, w.now, none⟩ :: w.published
      chosen := (snap, artifactId) :: w.chosen } :=
  { h with
    chosen := List.forall_mem_cons.mpr ⟨hsnap, h.chosen⟩
    author := by
      intro p hp q hq hsame
      rcases List.mem_cons.mp hp with rfl | hmem <;> rcases List.mem_cons.mp hq with rfl | hmem'
      · rfl
      · exact absurd hsame.symm (hnew q hmem')
      · exact absurd hsame (hnew p hmem)
      · exact h.author p hmem q hmem' hsame
    returned := fun p hp => List.mem_cons_of_mem _ (h.returned p hp)
    entry := by
      refine List.forall_mem_cons.mpr ⟨fun id hid => ?_, fun e he id hid => ?_⟩
      · cases hid
        exact ⟨rfl, _, List.mem_cons_self, rfl, nofun⟩
      · obtain ⟨hkind, p, hp, howner⟩ := h.entry e he id hid
        exact ⟨hkind, p, List.mem_cons_of_mem _ hp, howner⟩
    final := List.forall_mem_cons.mpr ⟨nofun, h.final⟩
    staging := by
      refine List.forall_mem_cons.mpr ⟨fun id hid p hp => ?_, h.staging⟩
      cases hid
      exact hnew p (h.returned p hp) }

theorem Valid.describe {snap : MediaDownloadJob} {manifest : Manifest} (h : Valid w)
    (hchosen : (snap, artifactId) ∈ w.chosen) (hmanifest : Describes snap manifest) :
    Valid { w with
      published := w.published.map fun e =>
        if e.name = .staging artifactId then
          { e with manifest := some manifest, mtime := w.now } else e } :=
  { h with
    entry := by
      rintro e' he' id hid
      obtain ⟨e, he, rfl⟩ := List.mem_map.mp he'
      split at hid
      · rename_i hname
        obtain ⟨hkind, p, hp, hsame, _⟩ := h.entry e he id hid
        rw [if_pos hname]
        refine ⟨hkind, p, hp, hsame, ?_⟩
        simp only [hname, EntryName.artifactId, Option.some.injEq] at hid
        obtain rfl := h.author _ hchosen p hp (hid.trans hsame.symm)
        rintro _ ⟨⟩
        exact hmanifest
      · rename_i hname
        rw [if_neg hname]
        exact h.entry e he id hid
    final := by
      rintro e' he' id hid
      obtain ⟨e, he, rfl⟩ := List.mem_map.mp he'
      split at hid
      · rename_i hname
        simp [hname] at hid
      · rename_i hname
        rw [if_neg hname]
        exact h.final e he id hid
    staging := by
      rintro e' he' id hid
      obtain ⟨e, he, rfl⟩ := List.mem_map.mp he'
      split at hid
      · exact h.staging e he id hid
      · exact h.staging e he id hid }

theorem Valid.rename {snap : MediaDownloadJob} {entry : PublishedEntry} (h : Valid w)
    (hchosen : (snap, artifactId) ∈ w.chosen) (hentry : entry ∈ w.published)
    (hname : entry.name = .staging artifactId) (hmanifest : entry.manifest.isSome) :
    Valid { w with
      published := { entry with name := .final artifactId } ::
        w.published.filter (·.name ≠ .staging artifactId)
      returned := (snap, artifactId) :: w.returned } :=
  { h with
    returned := List.forall_mem_cons.mpr ⟨hchosen, h.returned⟩
    entry := by
      refine List.forall_mem_cons.mpr ⟨fun id hid => ?_, fun e he => ?_⟩
      · exact h.entry entry hentry id (by simpa [hname, EntryName.artifactId] using hid)
      · exact h.entry e (List.mem_filter.mp he).1
    final := by
      refine List.forall_mem_cons.mpr ⟨fun id hid => ?_, fun e he id hid => ?_⟩
      · cases hid
        exact ⟨hmanifest, _, List.mem_cons_self, rfl⟩
      · obtain ⟨hsome, p, hp, hsame⟩ := h.final e (List.mem_filter.mp he).1 id hid
        exact ⟨hsome, p, List.mem_cons_of_mem _ hp, hsame⟩
    staging := by
      refine List.forall_mem_cons.mpr ⟨nofun, fun e he id hid => ?_⟩
      obtain ⟨hmem, hne⟩ := List.mem_filter.mp he
      refine List.forall_mem_cons.mpr ⟨?_, h.staging e hmem id hid⟩
      rintro rfl
      simp [hid] at hne
    referenced := by
      intro r hr id hsome
      obtain ⟨p, hp, hsame⟩ := h.referenced r hr id hsome
      exact ⟨p, List.mem_cons_of_mem _ hp, hsame⟩ }

theorem Valid.withPass (h : Valid w) (pass : HygienePass) : Valid { w with pass } :=
  { h with }

theorem Sweep.valid {removed : Removed} (h : Sweep grace limit w removed w') (hI : Valid w) :
    Valid w' := by
  cases h with
  | workspace =>
    exact hI.workspaces (fun e he => .inl ⟨e, (List.mem_filter.mp he).1, rfl, rfl, rfl⟩) _
  | publication => exact hI.filter _ _

theorem WorldStep.valid (h : WorldStep compat grace limit w w') (hI : Valid w) : Valid w' := by
  cases h with
  | tick => exact { hI with }
  | enqueue hqueued hnew => exact hI.enqueue hqueued hnew
  | claim hrows hclaim => exact hI.claim hrows hclaim
  | call hperforms => exact hI.write (hperforms.write hI).toRowWrite w.pass
  | workspace hsnap =>
    refine hI.workspaces (fun e he => ?_) w.pass
    rcases List.mem_cons.mp he with rfl | he
    · exact .inr ⟨_, hsnap, rfl, rfl, rfl⟩
    · exact .inl ⟨e, he, rfl, rfl, rfl⟩
  | touch hentry =>
    refine hI.workspaces (fun e he => ?_) w.pass
    rcases List.mem_cons.mp he with rfl | he
    · exact .inl ⟨_, hentry, rfl, rfl, rfl⟩
    · exact .inl ⟨e, (List.mem_filter.mp he).1, rfl, rfl, rfl⟩
  | cleanup =>
    exact hI.workspaces (fun e he => .inl ⟨e, (List.mem_filter.mp he).1, rfl, rfl, rfl⟩) w.pass
  | stage hsnap hnew => exact hI.stage hsnap hnew
  | describe hchosen hdigest htimes hpublish =>
    obtain ⟨⟨hattempt, hoption⟩, _⟩ := hI.claimed _ (hI.chosen _ hchosen)
    exact hI.describe hchosen (parseManifest_published hpublish hattempt hoption hdigest htimes)
  | rename hchosen hentry hname hmanifest => exact hI.rename hchosen hentry hname hmanifest
  | discard => exact hI.filter _ w.pass
  | start | listActiveFences | listReferencedArtifactIds | reconcile | finish =>
    exact hI.withPass _
  | expire _ hrows hexpire => exact hI.write (expireDueJobs_write hI hrows hexpire).toRowWrite _
  | deleteArtifact => exact hI.filter _ w.pass
  | sweep hsweep => exact hsweep.valid hI

/-! ## What one step changes for the snapshots -/

/-- Entries of the store are new or descend from older ones; names of files are chosen afresh. -/
structure Ages (w w' : World) : Prop where
  now : w.now ≤ w'.now
  workspaces : ∀ e' ∈ w'.workspaces, w.now ≤ e'.mtime ∨
    ∃ e ∈ w.workspaces, e.jobId = e'.jobId ∧ e.fence = e'.fence ∧ e.mtime ≤ e'.mtime
  published : ∀ e' ∈ w'.published, w.now ≤ e'.mtime ∨
    ∃ e ∈ w.published, e.mtime ≤ e'.mtime ∧
      (e.name = e'.name ∨ ∃ artifactId, e.name = .staging artifactId ∧ e'.name = .final artifactId)
  chosen : ∀ p ∈ w'.chosen, p ∈ w.chosen ∨ ∀ e ∈ w.published, e.name.artifactId ≠ some p.2

/-- Everything that an attempt has stored was written at `t` or later. -/
structure Young (t : Timestamp) (jobId : Uuid) (fence : Nat) (w : World) : Prop where
  workspaces : ∀ e ∈ w.workspaces, e.jobId = jobId → e.fence = fence → t ≤ e.mtime
  published : ∀ e ∈ w.published, ∀ p ∈ w.chosen, e.name.artifactId = some p.2 →
    p.1.id = jobId → p.1.fenceToken = fence → t ≤ e.mtime

structure Progress (w w' : World) : Prop extends Ages w w' where
  downloading : ∀ r' ∈ w'.db, r'.job.publicState = .downloading →
    (∃ r ∈ w.db, r.job.publicState = .downloading ∧ r.job.id = r'.job.id ∧
      r.job.fenceToken = r'.job.fenceToken) ∨
    ∀ t, Young t r'.job.id r'.job.fenceToken w
  artifact : ∀ r' ∈ w'.db, ∀ artifactId, r'.job.artifactId = some artifactId →
    (∃ r ∈ w.db, r.job.artifactId = some artifactId) ∨
    ∃ p ∈ w.returned, p.2 = artifactId ∧ ∃ r ∈ w.db, r.job.publicState = .downloading ∧
      r.job.id = p.1.id ∧ r.job.fenceToken = p.1.fenceToken

theorem Ages.of_store (hnow : w.now ≤ w'.now) (hworkspaces : w'.workspaces = w.workspaces)
    (hpublished : w'.published = w.published) (hchosen : w'.chosen = w.chosen) : Ages w w' where
  now := hnow
  workspaces e he := .inr ⟨e, hworkspaces ▸ he, rfl, rfl, le_rfl⟩
  published e he := .inr ⟨e, hpublished ▸ he, le_rfl, .inl rfl⟩
  chosen _ hp := .inl (hchosen ▸ hp)

/-- A step that leaves the database alone. -/
theorem Ages.progress (h : Ages w w') (hdb : w'.db = w.db) : Progress w w' where
  toAges := h
  downloading r hr hstate := .inl ⟨r, hdb ▸ hr, hstate, rfl, rfl⟩
  artifact r hr _ hsome := .inl ⟨r, hdb ▸ hr, hsome⟩

theorem Ages.filter (keep : PublishedEntry → Bool) (pass : HygienePass) :
    Ages w { w with published := w.published.filter keep, pass } where
  now := le_rfl
  workspaces e he := .inr ⟨e, he, rfl, rfl, le_rfl⟩
  published e he := .inr ⟨e, (List.mem_filter.mp he).1, le_rfl, .inl rfl⟩
  chosen _ hp := .inl hp

theorem Ages.cleanup (keep : AttemptEntry → Bool) (pass : HygienePass) :
    Ages w { w with workspaces := w.workspaces.filter keep, pass } where
  now := le_rfl
  workspaces e he := .inr ⟨e, (List.mem_filter.mp he).1, rfl, rfl, le_rfl⟩
  published e he := .inr ⟨e, he, le_rfl, .inl rfl⟩
  chosen _ hp := .inl hp

/-- A workspace written now, beside others that were there. -/
theorem Ages.workspace {entry : AttemptEntry} {others : List AttemptEntry}
    (hnow : entry.mtime = w.now) (hothers : ∀ e ∈ others, e ∈ w.workspaces) :
    Ages w { w with workspaces := entry :: others } where
  now := le_rfl
  workspaces := List.forall_mem_cons.mpr
    ⟨.inl hnow.ge, fun e he => .inr ⟨e, hothers e he, rfl, rfl, le_rfl⟩⟩
  published e he := .inr ⟨e, he, le_rfl, .inl rfl⟩
  chosen _ hp := .inl hp

theorem DbWrite.progress (h : DbWrite w rows rows') (pass : HygienePass) :
    Progress w { w with db := storeRows rows' w.db, pass } where
  toAges := .of_store le_rfl rfl rfl rfl
  downloading r hr hstate := by
    rcases mem_storeRows hr with rfl | ⟨hr, _⟩
    · obtain ⟨hstate, hfence⟩ := h.downloading hstate
      exact .inl ⟨rows, h.stored, hstate, h.id.symm, hfence.symm⟩
    · exact .inl ⟨r, hr, hstate, rfl, rfl⟩
  artifact r hr artifactId hsome := by
    rcases mem_storeRows hr with rfl | ⟨hr, _⟩
    · rcases h.artifact artifactId hsome with hsome | ⟨p, hp, hid, hjob, hstate, hfence⟩
      · exact .inl ⟨rows, h.stored, hsome⟩
      · exact .inr ⟨p, hp, hid, rows, h.stored, hstate, hjob.symm, hfence.symm⟩
    · exact .inl ⟨r, hr, hsome⟩

/-- Nothing is stored for a fence that no claim has had. -/
theorem Valid.young (h : Valid w) {jobId : Uuid} {fence : Nat}
    (hnew : ∀ snap ∈ w.claims, snap.id = jobId → snap.fenceToken ≠ fence) :
    Young t jobId fence w where
  workspaces e he hid hfence := by
    obtain ⟨_, snap, hsnap, hsid, hsfence⟩ := h.workspace e he
    exact absurd (hsfence.trans hfence) (hnew snap hsnap (hsid.trans hid))
  published e _ p hp _ hid hfence := absurd hfence (hnew p.1 (h.chosen p hp) hid)

theorem Valid.claim_progress {workerId : String} {lease now : Timestamp} {clock : Clock}
    (h : Valid w) (hrows : rows ∈ w.db)
    (hclaim : claimNext workerId lease now clock rows.job = .ok (job, true)) :
    Progress w { w with db := storeRows { rows with job } w.db, claims := job :: w.claims } where
  toAges := .of_store le_rfl rfl rfl rfl
  downloading r hr hstate := by
    rcases mem_storeRows hr with rfl | ⟨hr, _⟩
    · obtain ⟨_, rfl⟩ := claimNext_applied hclaim
      refine .inr fun t => h.young fun snap hsnap hid hfence => ?_
      have hle := h.fence_le hrows hsnap hid.symm
      have hnext : snap.fenceToken = rows.job.fenceToken + 1 := hfence
      omega
    · exact .inl ⟨r, hr, hstate, rfl, rfl⟩
  artifact r hr artifactId hsome := by
    rcases mem_storeRows hr with rfl | ⟨hr, _⟩
    · obtain ⟨_, rfl⟩ := claimNext_applied hclaim
      exact .inl ⟨rows, hrows, hsome⟩
    · exact .inl ⟨r, hr, hsome⟩

theorem Valid.enqueue_progress (hqueued : Enqueued rows) :
    Progress w { w with db := rows :: w.db } where
  toAges := .of_store le_rfl rfl rfl rfl
  downloading := by
    refine List.forall_mem_cons.mpr ⟨fun hstate => ?_, fun r hr hstate => ?_⟩
    · simp [hqueued.fresh.queued] at hstate
    · exact .inl ⟨r, hr, hstate, rfl, rfl⟩
  artifact := by
    refine List.forall_mem_cons.mpr ⟨fun artifactId hsome => ?_, fun r hr _ hsome => ?_⟩
    · simp [hqueued.fresh.unpublished] at hsome
    · exact .inl ⟨r, hr, hsome⟩

theorem Sweep.progress {removed : Removed} (h : Sweep grace limit w removed w') :
    Progress w w' := by
  cases h with
  | workspace => exact (Ages.cleanup _ _).progress rfl
  | publication => exact (Ages.filter _ _).progress rfl

theorem WorldStep.progress (h : WorldStep compat grace limit w w') (hI : Valid w) :
    Progress w w' := by
  cases h with
  | tick hnow => exact Ages.progress (.of_store hnow rfl rfl rfl) rfl
  | enqueue hqueued => exact Valid.enqueue_progress hqueued
  | claim hrows hclaim => exact hI.claim_progress hrows hclaim
  | call hperforms => exact (hperforms.write hI).progress w.pass
  | workspace =>
    exact Ages.progress (.workspace rfl fun _ he => he) rfl
  | touch => exact Ages.progress (.workspace rfl fun _ he => (List.mem_filter.mp he).1) rfl
  | cleanup => exact (Ages.cleanup _ w.pass).progress rfl
  | stage _ _ hfresh =>
    refine Ages.progress ⟨le_rfl, fun e he => .inr ⟨e, he, rfl, rfl, le_rfl⟩, ?_, ?_⟩ rfl
    · exact List.forall_mem_cons.mpr
        ⟨.inl le_rfl, fun e he => .inr ⟨e, he, le_rfl, .inl rfl⟩⟩
    · exact List.forall_mem_cons.mpr ⟨.inr hfresh, fun p hp => .inl hp⟩
  | describe =>
    refine Ages.progress ⟨le_rfl, fun e he => .inr ⟨e, he, rfl, rfl, le_rfl⟩, ?_,
      fun p hp => .inl hp⟩ rfl
    intro e' he'
    obtain ⟨e, he, rfl⟩ := List.mem_map.mp he'
    split
    · exact .inl le_rfl
    · exact .inr ⟨e, he, le_rfl, .inl rfl⟩
  | rename _ hentry hname =>
    refine Ages.progress ⟨le_rfl, fun e he => .inr ⟨e, he, rfl, rfl, le_rfl⟩, ?_,
      fun p hp => .inl hp⟩ rfl
    refine List.forall_mem_cons.mpr ⟨.inr ⟨_, hentry, le_rfl, .inr ⟨_, hname, rfl⟩⟩, ?_⟩
    exact fun e he => .inr ⟨e, (List.mem_filter.mp he).1, le_rfl, .inl rfl⟩
  | discard => exact (Ages.filter _ w.pass).progress rfl
  | start | listActiveFences | listReferencedArtifactIds | reconcile | finish =>
    exact Ages.progress (.of_store le_rfl rfl rfl rfl) rfl
  | expire _ hrows hexpire => exact (expireDueJobs_write hI hrows hexpire).progress _
  | deleteArtifact => exact (Ages.filter _ w.pass).progress rfl
  | sweep hsweep => exact hsweep.progress

/-! ## Snapshots -/

/-- Every current attempt is in the snapshot of fences, or all it has stored is younger. -/
structure FencesCover (t : Timestamp) (active : List (Uuid × Nat)) (w : World) : Prop where
  taken : t ≤ w.now
  cover : ∀ r ∈ w.db, r.job.publicState = .downloading →
    (r.job.id, r.job.fenceToken) ∈ active ∨ Young t r.job.id r.job.fenceToken w

/-- Every referenced artifact is in the snapshot of references, or its attempt is in the snapshot
of fences, or it is younger than that. -/
def ReferencesCover (t : Timestamp) (active : List (Uuid × Nat)) (referenced : List Uuid)
    (w : World) : Prop :=
  ∀ r ∈ w.db, ∀ artifactId, r.job.artifactId = some artifactId →
    artifactId ∈ referenced ∨ ∀ e ∈ w.published, e.name = .final artifactId →
      ∀ p ∈ w.chosen, p.2 = artifactId → (p.1.id, p.1.fenceToken) ∈ active ∨ t ≤ e.mtime

/-- An entry of the new store that belongs to a publication is young, or descends from an entry
of that publication. -/
theorem Ages.origin (h : Ages w w') {e' : PublishedEntry} {p : Publication}
    (he' : e' ∈ w'.published) (hp : p ∈ w'.chosen) (hid : e'.name.artifactId = some p.2) :
    w.now ≤ e'.mtime ∨ ∃ e ∈ w.published, p ∈ w.chosen ∧ e.mtime ≤ e'.mtime ∧
      e.name.artifactId = some p.2 ∧
        (e.name = e'.name ∨ ∃ artifactId, e.name = .staging artifactId) := by
  rcases h.published e' he' with hnow | ⟨e, he, hmtime, hname⟩
  · exact .inl hnow
  have heid : e.name.artifactId = some p.2 := by
    rcases hname with hname | ⟨artifactId, hold, hnew⟩
    · rwa [hname]
    · rw [hnew] at hid
      rw [hold]
      exact hid
  rcases h.chosen p hp with hp | hfresh
  · exact .inr ⟨e, he, hp, hmtime, heid, hname.imp_right fun ⟨artifactId, hold, _⟩ => ⟨_, hold⟩⟩
  · exact absurd heid (hfresh e he)

theorem Young.ages {jobId : Uuid} {fence : Nat} (h : Young t jobId fence w) (hages : Ages w w')
    (ht : t ≤ w.now) : Young t jobId fence w' where
  workspaces e' he' hid hfence := by
    rcases hages.workspaces e' he' with hnow | ⟨e, he, hsame, hsame', hmtime⟩
    · exact ht.trans hnow
    · exact (h.workspaces e he (hsame.trans hid) (hsame'.trans hfence)).trans hmtime
  published e' he' p hp hname hid hfence := by
    rcases hages.origin he' hp hname with hnow | ⟨e, he, hp, hmtime, heid, _⟩
    · exact ht.trans hnow
    · exact (h.published e he p hp heid hid hfence).trans hmtime

theorem FencesCover.progress (h : FencesCover t active w) (hprogress : Progress w w') :
    FencesCover t active w' where
  taken := h.taken.trans hprogress.now
  cover r' hr' hstate := by
    rcases hprogress.downloading r' hr' hstate with ⟨r, hr, hold, hid, hfence⟩ | hyoung
    · rw [← hid, ← hfence]
      exact (h.cover r hr hold).imp_right fun hyoung => hyoung.ages hprogress.toAges h.taken
    · exact .inr ((hyoung t).ages hprogress.toAges h.taken)

theorem ReferencesCover.progress (h : ReferencesCover t active referenced w) (hI : Valid w)
    (hfences : FencesCover t active w) (hprogress : Progress w w') :
    ReferencesCover t active referenced w' := by
  intro r' hr' artifactId hsome
  -- an entry of a publication that is already referenced has its final name
  have hfinal : ∀ e ∈ w.published, ∀ p ∈ w.returned, ∀ id, e.name = .staging id →
      e.name.artifactId ≠ some p.2 := by
    intro e he p hp id hstaging hsame
    rw [hstaging] at hsame
    exact hI.staging e he id hstaging p hp (Option.some.inj hsame).symm
  rcases hprogress.artifact r' hr' artifactId hsome with
    ⟨r, hr, hold⟩ | ⟨q, hq, hqid, r, hr, hstate, hid, hfence⟩
  · refine (h r hr artifactId hold).imp_right fun hcover e' he' hname p hp hpid => ?_
    have hown : e'.name.artifactId = some p.2 := by simp [hname, hpid, EntryName.artifactId]
    rcases hprogress.origin he' hp hown with
      hnow | ⟨e, he, hp, hmtime, heid, hsame | ⟨id, hstaging⟩⟩
    · exact .inr (hfences.taken.trans hnow)
    · exact (hcover e he (hsame.trans hname) p hp hpid).imp_right fun hle => hle.trans hmtime
    · obtain ⟨q, hq, hqid⟩ := hI.referenced r hr artifactId hold
      exact absurd (heid.trans (by rw [hpid, hqid])) (hfinal e he q hq id hstaging)
  · refine .inr fun e' he' hname p hp hpid => ?_
    have hown : e'.name.artifactId = some p.2 := by simp [hname, hpid, EntryName.artifactId]
    rcases hprogress.origin he' hp hown with hnow | ⟨e, he, hp, hmtime, heid, _⟩
    · exact .inr (hfences.taken.trans hnow)
    obtain rfl := hI.author p hp q (hI.returned q hq) (hpid.trans hqid.symm)
    rw [← hid, ← hfence]
    exact (hfences.cover r hr hstate).imp_right
      fun hyoung => (hyoung.published e he p hp heid hid.symm hfence.symm).trans hmtime

theorem fencesCover_now (w : World) (pass : HygienePass) :
    FencesCover w.now (listActiveFences w.db) { w with pass } where
  taken := le_rfl
  cover r hr hstate := .inl (List.mem_map.mpr ⟨r, List.mem_filter.mpr ⟨hr, by simpa⟩, rfl⟩)

theorem referencesCover_now (w : World) (pass : HygienePass) :
    ReferencesCover t active (listReferencedArtifactIds w.db) { w with pass } :=
  fun r hr _ hsome => .inl (List.mem_filterMap.mpr ⟨r, hr, hsome⟩)

/-- More fences protect more. -/
theorem FencesCover.append (h : FencesCover t active w) (more : List (Uuid × Nat)) :
    FencesCover t (active ++ more) w where
  taken := h.taken
  cover r hr hstate := (h.cover r hr hstate).imp_left (List.mem_append_left more)

theorem ReferencesCover.append (h : ReferencesCover t active referenced w)
    (more : List (Uuid × Nat)) : ReferencesCover t (active ++ more) referenced w :=
  fun r hr artifactId hsome => (h r hr artifactId hsome).imp_right
    fun hcover e he hname p hp hpid =>
      (hcover e he hname p hp hpid).imp_left (List.mem_append_left more)

/-- What the pass may rely on. -/
def HygienePass.Covers (grace : Timestamp) (w : World) : HygienePass → Prop
  | idle | writing _ => True
  | fenced _ snapshotAt active => FencesCover snapshotAt active w
  | committed _ snapshotAt active referenced =>
    FencesCover snapshotAt active w ∧ ReferencesCover snapshotAt active referenced w
  | sweeping startedAt snapshotAt active referenced _ =>
    startedAt - snapshotAt < grace ∧ FencesCover snapshotAt active w ∧
      ReferencesCover snapshotAt active referenced w

structure World.Inv (grace : Timestamp) (w : World) : Prop where
  valid : Valid w
  covers : w.pass.Covers grace w

theorem HygienePass.Covers.progress {pass : HygienePass} (h : pass.Covers grace w) (hI : Valid w)
    (hprogress : Progress w w') : pass.Covers grace w' := by
  cases pass with
  | idle | writing => trivial
  | fenced => exact FencesCover.progress h hprogress
  | committed => exact ⟨h.1.progress hprogress, h.2.progress hI h.1 hprogress⟩
  | sweeping =>
    exact ⟨h.1, h.2.1.progress hprogress, h.2.2.progress hI h.2.1 hprogress⟩

theorem Sweep.covers {removed : Removed} (h : Sweep grace limit w removed w')
    (hI : w.Inv grace) : w'.pass.Covers grace w' := by
  have hprogress := h.progress
  have hcovers := hI.covers.progress hI.valid hprogress
  cases h with
  | workspace hpass =>
    rw [hpass] at hcovers
    exact hcovers
  | publication hpass =>
    rw [hpass] at hcovers
    exact hcovers

theorem WorldStep.inv (h : WorldStep compat grace limit w w') (hI : w.Inv grace) :
    w'.Inv grace := by
  have hprogress := h.progress hI.valid
  have hcovers := hI.covers.progress hI.valid hprogress
  refine ⟨h.valid hI.valid, ?_⟩
  cases h with
  | tick | enqueue | claim | call | workspace | touch | cleanup | stage | describe | rename
  | discard | deleteArtifact => exact hcovers
  | start | expire | finish => trivial
  | listActiveFences => exact fencesCover_now w _
  | listReferencedArtifactIds hpass =>
    rw [hpass] at hcovers
    exact ⟨hcovers, referencesCover_now w _⟩
  | @reconcile _ _ _ _ inMemory hpass hgrace =>
    rw [hpass] at hcovers
    exact ⟨hgrace, hcovers.1.append inMemory, hcovers.2.append inMemory⟩
  | sweep hsweep => exact hsweep.covers hI

/-! ## Removed artifacts -/

/-- No row refers to the artifact, and no executor that published it, or might still do so, can
complete its job with it. -/
structure Dead (artifactId : Uuid) (w : World) : Prop where
  unreferenced : ∀ r ∈ w.db, r.job.artifactId ≠ some artifactId
  lost : ∀ p ∈ w.returned, p.2 = artifactId → ∀ r ∈ w.db, r.job.id = p.1.id →
    r.job.publicState = .downloading → p.1.fenceToken < r.job.fenceToken
  chosen : ∃ p ∈ w.chosen, p.2 = artifactId
  unstaged : ∀ e ∈ w.published, e.name ≠ .staging artifactId

/-- A write of the database brings no dead artifact back. -/
theorem Dead.write (h : Dead artifactId w) (hwrite : DbWrite w rows rows') (pass : HygienePass) :
    Dead artifactId { w with db := storeRows rows' w.db, pass } where
  unreferenced r hr hsome := by
    rcases mem_storeRows hr with rfl | ⟨hr, _⟩
    · rcases hwrite.artifact artifactId hsome with hsome | ⟨p, hp, hpid, hid, hstate, hfence⟩
      · exact h.unreferenced rows hwrite.stored hsome
      · have hlost := h.lost p hp hpid rows hwrite.stored hid.symm hstate
        omega
    · exact h.unreferenced r hr hsome
  lost p hp hpid r hr hid hstate := by
    rcases mem_storeRows hr with rfl | ⟨hr, _⟩
    · obtain ⟨hold, hfence⟩ := hwrite.downloading hstate
      rw [hfence]
      exact h.lost p hp hpid rows hwrite.stored (hwrite.id.symm.trans hid) hold
    · exact h.lost p hp hpid r hr hid hstate
  chosen := h.chosen
  unstaged := h.unstaged

theorem Dead.claim {workerId : String} {lease now : Timestamp} {clock : Clock}
    (h : Dead artifactId w) (hI : Valid w) (hrows : rows ∈ w.db)
    (hclaim : claimNext workerId lease now clock rows.job = .ok (job, true)) :
    Dead artifactId { w with
      db := storeRows { rows with job } w.db, claims := job :: w.claims } where
  unreferenced r hr hsome := by
    rcases mem_storeRows hr with rfl | ⟨hr, _⟩
    · obtain ⟨_, rfl⟩ := claimNext_applied hclaim
      exact h.unreferenced rows hrows hsome
    · exact h.unreferenced r hr hsome
  lost p hp hpid r hr hid hstate := by
    rcases mem_storeRows hr with rfl | ⟨hr, _⟩
    · obtain ⟨_, rfl⟩ := claimNext_applied hclaim
      have hle := hI.fence_le hrows (hI.chosen p (hI.returned p hp)) hid
      exact Nat.lt_succ_of_le hle
    · exact h.lost p hp hpid r hr hid hstate
  chosen := h.chosen
  unstaged := h.unstaged

theorem Dead.enqueue (h : Dead artifactId w) (hqueued : Enqueued rows) :
    Dead artifactId { w with db := rows :: w.db } where
  unreferenced := by
    refine List.forall_mem_cons.mpr ⟨fun hsome => ?_, h.unreferenced⟩
    simp [hqueued.fresh.unpublished] at hsome
  lost p hp hpid := by
    refine List.forall_mem_cons.mpr ⟨fun _ hstate => ?_, h.lost p hp hpid⟩
    simp [hqueued.fresh.queued] at hstate
  chosen := h.chosen
  unstaged := h.unstaged

theorem Dead.filter (h : Dead artifactId w) (keep : PublishedEntry → Bool) (pass : HygienePass) :
    Dead artifactId { w with published := w.published.filter keep, pass } :=
  { h with unstaged := fun e he => h.unstaged e (List.mem_filter.mp he).1 }

theorem WorldStep.dead (h : WorldStep compat grace limit w w') (hI : Valid w)
    (hdead : Dead artifactId w) : Dead artifactId w' := by
  cases h with
  | tick | workspace | touch | cleanup | start | listActiveFences | listReferencedArtifactIds
  | reconcile | finish => exact { hdead with }
  | enqueue hqueued => exact hdead.enqueue hqueued
  | claim hrows hclaim => exact hdead.claim hI hrows hclaim
  | call hperforms => exact hdead.write (hperforms.write hI) w.pass
  | stage _ hfresh =>
    obtain ⟨p, hp, hpid⟩ := hdead.chosen
    refine { hdead with
      chosen := ⟨p, List.mem_cons_of_mem _ hp, hpid⟩
      unstaged := List.forall_mem_cons.mpr ⟨fun hname => ?_, hdead.unstaged⟩ }
    exact hfresh p hp (hpid.trans (EntryName.staging.inj hname).symm)
  | describe =>
    refine { hdead with unstaged := fun e' he' => ?_ }
    obtain ⟨e, he, rfl⟩ := List.mem_map.mp he'
    split
    · exact hdead.unstaged e he
    · exact hdead.unstaged e he
  | rename _ hentry hname =>
    refine { hdead with
      lost := List.forall_mem_cons.mpr ⟨?_, hdead.lost⟩
      unstaged := List.forall_mem_cons.mpr
        ⟨nofun, fun e he => hdead.unstaged e (List.mem_filter.mp he).1⟩ }
    rintro rfl
    exact absurd hname (hdead.unstaged _ hentry)
  | discard => exact hdead.filter _ w.pass
  | expire _ hrows hexpire => exact hdead.write (expireDueJobs_write hI hrows hexpire) _
  | deleteArtifact => exact hdead.filter _ w.pass
  | sweep hsweep =>
    cases hsweep with
    | workspace => exact { hdead with }
    | publication => exact hdead.filter _ _

/-- What is swept was there before the snapshots. -/
theorem AgedOut.before {startedAt snapshotAt mtime : Timestamp}
    (h : AgedOut startedAt grace mtime) (hgrace : startedAt - snapshotAt < grace) :
    ¬ snapshotAt ≤ mtime := by
  have hage : grace ≤ startedAt - mtime := h
  have hlt : startedAt - snapshotAt < startedAt - mtime := lt_of_lt_of_le hgrace hage
  exact not_le.mpr (Int.lt_of_sub_lt_sub_left hlt)

/-- A staging directory that is removed can never be published. -/
theorem Valid.dead_staging (hI : Valid w) {entry : PublishedEntry} (hentry : entry ∈ w.published)
    (hname : entry.name = .staging artifactId) (pass : HygienePass) :
    Dead artifactId
      { w with published := w.published.filter (·.name ≠ entry.name), pass } where
  unreferenced r hr hsome := by
    obtain ⟨p, hp, hpid⟩ := hI.referenced r hr artifactId hsome
    exact hI.staging entry hentry artifactId hname p hp hpid
  lost p hp hpid := absurd hpid (hI.staging entry hentry artifactId hname p hp)
  chosen := by
    obtain ⟨_, p, hp, hpid, _⟩ := hI.entry entry hentry artifactId (by rw [hname]; rfl)
    exact ⟨p, hp, hpid⟩
  unstaged e he := by
    have hne := (List.mem_filter.mp he).2
    rw [← hname]
    simpa using hne

/-- A publication that is removed belongs to a lost attempt. -/
theorem Valid.dead_final (hI : Valid w) {entry : PublishedEntry} {startedAt : Timestamp}
    (hentry : entry ∈ w.published) (hname : entry.name = .final artifactId)
    (hswept : publishedSwept referenced active startedAt grace entry = true)
    (hgrace : startedAt - t < grace) (hfences : FencesCover t active w)
    (hreferences : ReferencesCover t active referenced w) (pass : HygienePass) :
    Dead artifactId
      { w with published := w.published.filter (·.name ≠ entry.name), pass } := by
  have hid : entry.name.artifactId = some artifactId := by rw [hname]; rfl
  have hold : ¬ t ≤ entry.mtime := (publishedSwept_aged hswept).before hgrace
  obtain ⟨hkind, p, hp, hpid, hdescribes⟩ := hI.entry entry hentry artifactId hid
  obtain ⟨hmanifest, q, hq, hqid⟩ := hI.final entry hentry artifactId hname
  obtain ⟨manifest, hmanifest⟩ := Option.isSome_iff_exists.mp hmanifest
  obtain ⟨hparse, hjob, hfence⟩ := hdescribes manifest hmanifest
  obtain ⟨hunreferenced, hinactive⟩ :=
    publishedSwept_final hname hkind (by rw [hmanifest]; exact hparse) hswept
  rw [hjob, hfence] at hinactive
  refine ⟨fun r hr hsome => ?_, fun p' hp' hpid' r hr hrid hstate => ?_, ⟨p, hp, hpid⟩, ?_⟩
  · rcases hreferences r hr artifactId hsome with hmem | hcover
    · exact hunreferenced hmem
    · rcases hcover entry hentry hname p hp hpid with hmem | hyoung
      · exact hinactive hmem
      · exact hold hyoung
  · obtain rfl := hI.author p' (hI.returned p' hp') p hp (hpid'.trans hpid.symm)
    refine lt_of_le_of_ne (hI.fence_le hr (hI.chosen _ hp) hrid) fun hsame => ?_
    rcases hfences.cover r hr hstate with hmem | hyoung
    · exact hinactive (by rwa [← hrid, hsame])
    · refine hold (hyoung.published entry hentry _ hp ?_ hrid.symm hsame)
      rw [hid, hpid]
  · intro e he hstaging
    exact hI.staging e (List.mem_filter.mp he).1 artifactId hstaging q hq hqid

/-- What a sweep removes of an artifact is dead. -/
theorem Sweep.dead {entry : PublishedEntry} (h : Sweep grace limit w (.publication entry) w')
    (hI : w.Inv grace) (hid : entry.name.artifactId = some artifactId) : Dead artifactId w' := by
  cases h with
  | publication hpass _ hentry hswept =>
    have hcovers := hI.covers
    rw [hpass] at hcovers
    obtain ⟨hgrace, hfences, hreferences⟩ := hcovers
    cases hname : entry.name with
    | litter => simp [hname, EntryName.artifactId] at hid
    | staging =>
      rw [hname] at hid
      cases hid
      exact hname ▸ hI.valid.dead_staging hentry hname _
    | final =>
      rw [hname] at hid
      cases hid
      exact hname ▸ hI.valid.dead_final hentry hname hswept hgrace hfences hreferences _

/-- The workspace of a current attempt is not removed. -/
theorem Sweep.workspace_inactive {entry : AttemptEntry}
    (h : Sweep grace limit w (.workspace entry) w') (hI : w.Inv grace) (hr : r ∈ w.db)
    (hid : r.job.id = entry.jobId) (hstate : r.job.publicState = .downloading) :
    r.job.fenceToken ≠ entry.fence := by
  cases h with
  | workspace hpass _ hentry hswept =>
    intro hfence
    have hcovers := hI.covers
    rw [hpass] at hcovers
    obtain ⟨hgrace, hfences, _⟩ := hcovers
    obtain ⟨hinactive, haged⟩ := attemptSwept_directory (hI.valid.workspace entry hentry).1 hswept
    rcases hfences.cover r hr hstate with hmem | hyoung
    · exact hinactive (by rwa [← hid, ← hfence])
    · exact haged.before hgrace (hyoung.workspaces entry hentry hid.symm hfence.symm)

/-! ## Runs -/

/-- The worlds that an interleaving reaches. -/
abbrev WorldReaches (compat : Bool) (grace : Timestamp) (limit : Nat) : World → World → Prop :=
  ReflTransGen (WorldStep compat grace limit)

theorem World.Initial.inv {w₀ : World} (h : w₀.Initial)
    (hrun : WorldReaches compat grace limit w₀ w) : w.Inv grace := by
  refine invariant_run (fun hI hstep => hstep.inv hI) hrun ⟨h.valid, ?_⟩
  rw [h.pass]
  trivial

theorem Dead.reaches (h : Dead artifactId w) (hI : w.Inv grace)
    (hrun : WorldReaches compat grace limit w later) : Dead artifactId later :=
  (invariant_run (I := fun w => w.Inv grace ∧ Dead artifactId w)
    (fun hI hstep => ⟨hstep.inv hI.1, hstep.dead hI.1.valid hI.2⟩) hrun ⟨hI, h⟩).2

/-- Orphan sweeping: no row refers to a removed artifact, then or ever after, and no removed
workspace is that of a current claim. -/
theorem orphan_sweep_safe {w₀ : World} (hinitial : w₀.Initial)
    (hrun : WorldReaches compat grace limit w₀ w) :
    (∀ entry w', Sweep grace limit w (.publication entry) w' → ∀ artifactId,
      entry.name.artifactId = some artifactId →
        (∀ rows ∈ w.db, rows.job.artifactId ≠ some artifactId) ∧
        ∀ later, WorldReaches compat grace limit w' later →
          ∀ rows ∈ later.db, rows.job.artifactId ≠ some artifactId) ∧
    ∀ entry w', Sweep grace limit w (.workspace entry) w' → ∀ rows ∈ w.db,
      rows.job.id = entry.jobId → rows.job.publicState = .downloading →
        rows.job.fenceToken ≠ entry.fence := by
  have hI := hinitial.inv hrun
  refine ⟨fun entry w' hsweep artifactId hid => ?_, fun entry w' hsweep rows hrows hid hstate => ?_⟩
  · have hdead := hsweep.dead hI hid
    refine ⟨?_, fun later hlater => ?_⟩
    · cases hsweep
      exact hdead.unreferenced
    · have hstep : WorldStep compat grace limit w w' := .sweep hsweep
      exact (hdead.reaches (hstep.inv hI) hlater).unreferenced
  · exact hsweep.workspace_inactive hI hrows hid hstate

/-- The staging directory of a claimed job that died in `publish`. -/
def sampleStaging : PublishedEntry := ⟨.staging 7, .directory, 0, none⟩

/-- The job is still claimed when the sweep starts. -/
def sampleSweeping : World :=
  { now := 100, db := [sampleClaimed], workspaces := [], published := [sampleStaging],
    claims := [sampleClaimed.job], chosen := [(sampleClaimed.job, 7)], returned := [],
    pass := .sweeping 100 100 [(1, 1)] [] 0 }

theorem sampleSweeping_reached :
    WorldReaches false 60 10 ⟨0, [], [], [], [], [], [], .idle⟩ sampleSweeping := by
  have hclaim : claimNext "w" 20 5 (fun _ => 5) sampleRows.job = .ok (sampleClaimed.job, true) := by
    decide +kernel
  have hreconcile : WorldStep false 60 10
      { sampleSweeping with pass := .committed [] 100 [(1, 1)] [] } sampleSweeping :=
    @WorldStep.reconcile _ _ _ _ [] 100 [(1, 1)] [] [] rfl (by decide)
  refine .head (.enqueue (.reserved sampleRows_created) (by simp)) ?_
  refine .head (.claim (List.mem_cons_self ..) hclaim) ?_
  refine .head (.stage (List.mem_cons_self ..) (by simp : ∀ p ∈ ([] : List Publication), p.2 ≠ 7)
    (by simp)) ?_
  refine .head (.tick (by decide : (0 : Timestamp) ≤ 100)) ?_
  refine .head (.start rfl) ?_
  refine .head (.listActiveFences rfl) ?_
  exact .head (.listReferencedArtifactIds rfl) (.single hreconcile)

theorem orphan_sweep_safe_sampleSweeping :
    Sweep 60 10 sampleSweeping (.publication sampleStaging)
        { sampleSweeping with published := [], pass := .sweeping 100 100 [(1, 1)] [] 1 } ∧
      ∀ later,
        WorldReaches false 60 10
            { sampleSweeping with published := [], pass := .sweeping 100 100 [(1, 1)] [] 1 } later →
          ∀ rows ∈ later.db, rows.job.artifactId ≠ some 7 := by
  have hsweep : Sweep 60 10 sampleSweeping (.publication sampleStaging)
      { sampleSweeping with published := [], pass := .sweeping 100 100 [(1, 1)] [] 1 } :=
    .publication rfl (by decide) (List.mem_cons_self ..) (by decide)
  have hinitial : World.Initial ⟨0, [], [], [], [], [], [], .idle⟩ :=
    ⟨rfl, rfl, by simp, rfl, rfl, rfl, rfl⟩
  exact ⟨hsweep,
    ((orphan_sweep_safe hinitial sampleSweeping_reached).1 _ _ hsweep 7 rfl).2⟩

end FetchNow
