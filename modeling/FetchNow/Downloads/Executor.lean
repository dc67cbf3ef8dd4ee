import FetchNow.Downloads.Constraints

/-! The stages that executors report while they hold a job. -/
namespace FetchNow

open Transactions

open Relation (ReflTransGen)

variable {rows rows' rows₀ : DownloadRows} {job job' : MediaDownloadJob} {actor : Actor}
  {compat applied : Bool} {owner workerId : String} {fence : Nat}

/-- What an executor downloads: one format, or a video and an audio stream to mux. -/
inductive DownloadSelection where
  | exact (mediaKind : MediaKind)
  | muxed
  deriving DecidableEq, Repr

/-- `_ytdlp_stage`. -/
def ytdlpStage (audioTemplate : Bool) (mediaKind : MediaKind) : DownloadProgressStage :=
  if mediaKind = .audioOnly ∨ audioTemplate = true then .downloadingAudio else .downloadingVideo

/-- The stages that `DownloadExecutor.execute` passes to `set_progress_stage`, in its order. -/
def DownloadSelection.stages : DownloadSelection → List DownloadProgressStage
  | exact mediaKind => [.inspecting, ytdlpStage false mediaKind, .publishing]
  | muxed =>
    [.inspecting, ytdlpStage false .normalVideo, ytdlpStage true .normalVideo, .muxing, .verifying,
      .publishing]

/-- Each stage of a plan is allowed after the one before it, from the stage of a claim on. -/
theorem DownloadSelection.stages_allowed (selection : DownloadSelection) :
    (DownloadProgressStage.inspecting :: selection.stages).IsChain
      fun src dst => dst.working = true ∧ (src = dst ∨ dst ∈ src.allowed) := by
  rcases selection with (_ | _ | _) | _ <;> decide

/-- The stages that each executor has still to report. -/
abbrev Todo := String → Nat → List DownloadProgressStage

def Todo.assign (todo : Todo) (owner : String) (fence : Nat)
    (stages : List DownloadProgressStage) : Todo :=
  fun owner' fence' => if owner' = owner ∧ fence' = fence then stages else todo owner' fence'

/-- A job among its executors: each starts at the beginning of its plan when it claims the job,
and every stage that it reports is the next one of its plan. -/
inductive FleetStep (compat : Bool) : DownloadRows × Todo → DownloadRows × Todo → Prop
  | claim {rows : DownloadRows} {todo : Todo} {workerId : String} {lease now : Timestamp}
      {clock : Clock} {job : MediaDownloadJob} (selection : DownloadSelection) :
      claimNext workerId lease now clock rows.job = .ok (job, true) →
      FleetStep compat (rows, todo)
        ({ rows with job }, todo.assign workerId job.fenceToken selection.stages)
  | stage {rows : DownloadRows} {todo : Todo} {owner : String} {fence : Nat}
      {target : DownloadProgressStage} {rest : List DownloadProgressStage} {now : Timestamp}
      {job : MediaDownloadJob} {applied : Bool} :
      todo owner fence = target :: rest →
      setProgressStage owner fence target now rows.job = .ok (job, applied) →
      FleetStep compat (rows, todo) ({ rows with job }, todo.assign owner fence rest)
  | call {rows rows' : DownloadRows} {todo : Todo} {call : Call} :
      call.run compat rows = .ok rows' →
      (∀ workerId lease now clock, call ≠ .claimNext workerId lease now clock) →
      (∀ owner fence target now, call ≠ .worker owner fence (.setProgressStage target now)) →
      FleetStep compat (rows, todo) (rows', todo)

variable {todo todo' : Todo}

/-- Whoever may report a stage on the new row could do so on the old one, at the same stage. -/
def StageKept (job job' : MediaDownloadJob) : Prop :=
  ∀ owner fence, Fenced owner fence job' → Uncancelled job' →
    Fenced owner fence job ∧ Uncancelled job ∧ job'.progressStage = job.progressStage

theorem StageKept.refl (job : MediaDownloadJob) : StageKept job job :=
  fun _ _ hfenced hopen => ⟨hfenced, hopen, rfl⟩

theorem StageKept.trans {job'' : MediaDownloadJob} (h : StageKept job job')
    (h' : StageKept job' job'') : StageKept job job'' := by
  intro owner fence hfenced hopen
  obtain ⟨hfenced, hopen, hstage'⟩ := h' owner fence hfenced hopen
  obtain ⟨hfenced, hopen, hstage⟩ := h owner fence hfenced hopen
  exact ⟨hfenced, hopen, hstage'.trans hstage⟩

/-- A write that ends the lease lets nobody report. -/
theorem StageKept.of_ended (h : job'.publicState ≠ .downloading) :
    StageKept job job' :=
  fun _ _ hfenced => absurd hfenced.1 h

/-- No other call of a worker moves the stage of a job that goes on. -/
theorem WorkerCall.stageKept {call : WorkerCall}
    (hcall : ∀ target now, call ≠ .setProgressStage target now)
    (h : call.run compat owner fence rows = .ok (rows', applied)) :
    StageKept rows.job rows'.job := by
  have hwrite := run_write h
  generalize rows'.job = job' at hwrite ⊢
  cases hwrite with
  | staged => exact absurd rfl (hcall _ _)
  | kept | renewed | percent => exact fun _ _ hfenced hopen => ⟨hfenced, hopen, rfl⟩
  | ready | failed | cancelled | retried | released => exact .of_ended nofun

/-- Nor does any step of the system. -/
theorem Step.stageKept (h : Step compat .system rows rows') : StageKept rows.job rows'.job := by
  generalize hactor : Leases.Actor.system = actor at h
  cases h with
  | idle | settle | charge | prune => exact .refl _
  | cancelQueued | reclaimCancel | reclaimExhausted | reclaim | expire => exact .of_ended nofun
  | requestCancel => exact fun _ _ _ hopen => nomatch hopen
  | ledger hframe => cases hframe <;> exact .refl _
  | promote => exact fun _ _ hfenced hopen => ⟨hfenced, hopen, rfl⟩
  | claim | renew | stage | percent | ready | fail | cancel | retry | release => cases hactor

theorem Steps.stageKept (h : Steps compat .system rows rows') : StageKept rows.job rows'.job := by
  induction h with
  | refl => exact .refl _
  | tail _ hstep ih => exact ih.trans hstep.stageKept

theorem Call.stageKept {call : Call}
    (hclaim : ∀ workerId lease now clock, call ≠ .claimNext workerId lease now clock)
    (hstage : ∀ owner fence target now, call ≠ .worker owner fence (.setProgressStage target now))
    (h : call.run compat rows = .ok rows') : StageKept rows.job rows'.job := by
  have hsteps := run_steps h
  cases call with
  | claimNext workerId lease now clock => exact absurd rfl (hclaim workerId lease now clock)
  | worker owner fence call =>
    obtain ⟨⟨_, _⟩, hworker, h⟩ := bind_eq_ok.mp h
    cases h
    exact WorkerCall.stageKept (fun target now heq => hstage owner fence target now (by rw [heq]))
      hworker
  | _ => exact Steps.stageKept hsteps

/-! ## Executors that keep to their plans -/

/-- The holder of the job has reported a part of its plan and will report the rest. -/
def FollowsPlan (rows : DownloadRows) (todo : Todo) : Prop :=
  ∀ owner fence, Fenced owner fence rows.job → Uncancelled rows.job →
    ∃ selection : DownloadSelection,
      rows.job.progressStage :: todo owner fence <:+ .inspecting :: selection.stages

theorem StageKept.followsPlan (h : StageKept rows.job rows'.job) (hI : FollowsPlan rows todo) :
    FollowsPlan rows' todo := by
  intro owner fence hfenced hopen
  obtain ⟨hfenced, hopen, hstage⟩ := h owner fence hfenced hopen
  rw [hstage]
  exact hI owner fence hfenced hopen

theorem setProgressStage_cases {target : DownloadProgressStage} {now : Timestamp}
    (hworking : target.working = true)
    (h : setProgressStage owner fence target now job = .ok (job', applied)) :
    (Fenced owner fence job ∧ Uncancelled job ∧ job' = stagedJob target now job) ∨
      (¬ (Fenced owner fence job ∧ Uncancelled job) ∧ job' = job) := by
  unfold setProgressStage at h
  split at h
  · rename_i hterminal
    cases target <;> simp_all [DownloadProgressStage.working, DownloadProgressStage.terminal]
  split at h
  · rename_i hguard
    simp only [bind_eq_ok, flushJob_eq_ok] at h
    obtain ⟨_, _, _, ⟨_, rfl⟩, h⟩ := h
    cases h
    exact .inl ⟨hguard.1, hguard.2, rfl⟩
  · rename_i hguard
    cases h
    exact .inr ⟨hguard, rfl⟩

theorem Todo.assign_same {stages : List DownloadProgressStage} :
    todo.assign owner fence stages owner fence = stages := if_pos ⟨rfl, rfl⟩

theorem Todo.assign_other {stages : List DownloadProgressStage} {owner' : String} {fence' : Nat}
    (h : ¬ (owner' = owner ∧ fence' = fence)) :
    todo.assign owner fence stages owner' fence' = todo owner' fence' := if_neg h

/-- What remains of a plan is a part of it. -/
theorem working_of_suffix {stage target : DownloadProgressStage}
    {rest : List DownloadProgressStage} {selection : DownloadSelection}
    (h : stage :: target :: rest <:+ .inspecting :: selection.stages) :
    target.working = true ∧ (stage = target ∨ target ∈ stage.allowed) :=
  (List.isChain_cons_cons.mp (selection.stages_allowed.suffix h)).1

/-- What an executor has to report is part of a plan. -/
def Planned (todo : Todo) : Prop :=
  ∀ owner fence, ∃ selection : DownloadSelection, todo owner fence <:+ selection.stages

theorem Planned.assign {stages : List DownloadProgressStage} {selection : DownloadSelection}
    (h : Planned todo) (hstages : stages <:+ selection.stages) :
    Planned (todo.assign owner fence stages) := by
  intro owner' fence'
  by_cases hsame : owner' = owner ∧ fence' = fence
  · obtain ⟨rfl, rfl⟩ := hsame
    exact ⟨selection, by rwa [Todo.assign_same]⟩
  · rw [Todo.assign_other hsame]
    exact h owner' fence'

theorem Planned.working {target : DownloadProgressStage} {rest : List DownloadProgressStage}
    (h : Planned todo) (htodo : todo owner fence = target :: rest) : target.working = true := by
  obtain ⟨selection, hsuffix⟩ := h owner fence
  have hmem : target ∈ selection.stages := hsuffix.subset (by simp [htodo])
  rcases selection with (_ | _ | _) | _ <;>
    simp only [DownloadSelection.stages, ytdlpStage, List.mem_cons] at hmem <;> aesop

theorem FleetStep.planned (h : FleetStep compat (rows, todo) (rows', todo'))
    (hI : Planned todo) : Planned todo' := by
  cases h with
  | claim selection => exact hI.assign (List.suffix_refl _)
  | @stage _ _ owner fence target rest _ _ _ htodo =>
    obtain ⟨selection, hsuffix⟩ := hI owner fence
    rw [htodo] at hsuffix
    exact hI.assign ((List.suffix_cons target rest).trans hsuffix)
  | call => exact hI

theorem FleetStep.followsPlan (h : FleetStep compat (rows, todo) (rows', todo'))
    (hplanned : Planned todo) (hI : FollowsPlan rows todo) : FollowsPlan rows' todo' := by
  cases h with
  | claim selection hclaim =>
    obtain ⟨_, rfl⟩ := claimNext_applied hclaim
    rintro owner fence ⟨_, howner, hfence⟩ -
    cases howner
    cases hfence
    refine ⟨selection, ?_⟩
    rw [Todo.assign_same]
    exact List.suffix_refl _
  | @stage _ _ owner fence target rest _ _ _ htodo hstage =>
    rcases setProgressStage_cases (hplanned.working htodo) hstage with
      ⟨hfenced, hopen, rfl⟩ | ⟨hguard, rfl⟩
    · rintro owner' fence' ⟨_, howner, hfence⟩ -
      obtain rfl : owner' = owner := Option.some.inj (howner.symm.trans hfenced.2.1)
      obtain rfl : fence' = fence := hfence.symm.trans hfenced.2.2
      obtain ⟨selection, hsuffix⟩ := hI owner' fence' hfenced hopen
      rw [htodo] at hsuffix
      refine ⟨selection, ?_⟩
      rw [Todo.assign_same]
      exact (List.suffix_cons _ _).trans hsuffix
    · intro owner' fence' hfenced' hopen'
      have hother : ¬ (owner' = owner ∧ fence' = fence) := by
        rintro ⟨rfl, rfl⟩
        exact hguard ⟨hfenced', hopen'⟩
      rw [Todo.assign_other hother]
      exact hI owner' fence' hfenced' hopen'
  | call hcall hclaim hstage => exact (Call.stageKept hclaim hstage hcall).followsPlan hI

theorem FleetStep.commits (h : FleetStep compat (rows, todo) (rows', todo')) :
    Commits compat rows rows' := by
  cases h with
  | @claim _ _ workerId lease now clock job _ hclaim =>
    exact ⟨.claimNext workerId lease now clock, by simp [Call.run, DownloadRows.onJob, hclaim]⟩
  | @stage _ _ owner fence target _ now job _ _ hstage =>
    exact ⟨.worker owner fence (.setProgressStage target now),
      by simp [Call.run, WorkerCall.run, DownloadRows.onJob, hstage]⟩
  | call hcall => exact ⟨_, hcall⟩

/-- A job with executors that keep to their plans. -/
structure OnPlan (fleet : DownloadRows × Todo) : Prop where
  legal : Legal fleet.1.job
  planned : Planned fleet.2
  follows : FollowsPlan fleet.1 fleet.2

theorem FleetStep.onPlan {fleet fleet' : DownloadRows × Todo} (hI : OnPlan fleet)
    (h : FleetStep compat fleet fleet') : OnPlan fleet' := by
  obtain ⟨rows, todo⟩ := fleet
  obtain ⟨rows', todo'⟩ := fleet'
  obtain ⟨_, hcall⟩ := h.commits
  refine ⟨?_, h.planned hI.planned, h.followsPlan hI.planned hI.follows⟩
  exact Call.run_invariant (I := fun rows => Legal rows.job) (fun hI hstep => hstep.legal hI) hcall
    hI.legal

/-- The next stage of a plan is never out of order. -/
theorem OnPlan.inOrder {fleet : DownloadRows × Todo} (h : OnPlan fleet)
    {target : DownloadProgressStage} {rest : List DownloadProgressStage}
    (htodo : fleet.2 owner fence = target :: rest) :
    ¬ OutOfOrder owner fence target fleet.1.job := by
  rintro ⟨hfenced, hopen, hne, hallowed⟩
  obtain ⟨selection, hsuffix⟩ := h.follows owner fence hfenced hopen
  rw [htodo] at hsuffix
  rcases (working_of_suffix hsuffix).2 with hsame | hmem
  · exact hne hsame
  · exact hallowed hmem

/-- A job with executors that keep to their plans, from its creation on. -/
abbrev FleetRun (compat : Bool) (rows₀ : DownloadRows) : DownloadRows × Todo → Prop :=
  ReflTransGen (FleetStep compat) (rows₀, fun _ _ => [])

theorem FleetRun.onPlan {fleet : DownloadRows × Todo} (hrun : FleetRun compat rows₀ fleet)
    (hqueued : Enqueued rows₀) : OnPlan fleet := by
  refine invariant_run (fun hI hstep => hstep.onPlan hI) hrun ⟨hqueued.legal, ?_, ?_⟩
  · exact fun _ _ => ⟨.muxed, List.nil_suffix⟩
  · rintro _ _ ⟨hstate, _⟩
    simp [hqueued.fresh.queued] at hstate

/-- Every reachable row satisfies its constraints. No call raises for the job row, except that a
stage out of order is refused; and a stage that follows the plan of its executor is not. What a
cancel does that finds the job in another state than it has read is not described here. -/
theorem job_row_constraints (hqueued : Enqueued rows₀) :
    (∀ rows, Reaches compat rows₀ rows →
      (rows.job.Checked ∧ 0 ≤ rows.job.attemptCount ∧
        rows.job.attemptCount ≤ rows.job.maxAttempts) ∧
      ∀ call : Call, call.OnStates → call.Current rows.job → ∀ e,
        call.run compat rows = .error e → e.onJob = true →
        e = internalError "ILLEGAL_PROGRESS_TRANSITION" ∧ ¬ call.InOrder rows.job) ∧
    ∀ rows todo, FleetRun compat rows₀ (rows, todo) → ∀ owner fence target rest,
      todo owner fence = target :: rest → ∀ now,
      ∃ result, setProgressStage owner fence target now rows.job = .ok result := by
  refine ⟨fun rows hrun => ?_, fun rows todo hrun owner fence target rest htodo now => ?_⟩
  · have hlegal := hrun.legal hqueued
    refine ⟨⟨hlegal.toChecked, hlegal.attemptCount, hlegal.bounded⟩, ?_⟩
    exact fun call hstates hcurrent e herror he =>
      Call.run_error hlegal.toChecked hstates hcurrent herror he
  · have hplan := hrun.onPlan hqueued
    cases hresult : setProgressStage owner fence target now rows.job with
    | ok result => exact ⟨result, rfl⟩
    | error e =>
      have hworking := hplan.planned.working htodo
      have hfault := setProgressStage_error hplan.legal.toChecked hworking hresult
      exact absurd hfault.2 (hplan.inOrder htodo)

theorem job_row_constraints_sample :
    (∀ rows, Reaches false sampleRows rows →
      (rows.job.Checked ∧ 0 ≤ rows.job.attemptCount ∧
        rows.job.attemptCount ≤ rows.job.maxAttempts) ∧
      ∀ call : Call, call.OnStates → call.Current rows.job → ∀ e,
        call.run false rows = .error e → e.onJob = true →
        e = internalError "ILLEGAL_PROGRESS_TRANSITION" ∧ ¬ call.InOrder rows.job) ∧
    ∀ rows todo, FleetRun false sampleRows (rows, todo) → ∀ owner fence target rest,
      todo owner fence = target :: rest → ∀ now,
      ∃ result, setProgressStage owner fence target now rows.job = .ok result :=
  job_row_constraints (.reserved sampleRows_created)

/-- A holder that goes straight to publishing is refused by `assert_progress_transition`. -/
theorem publishing_after_claim_raises :
    Enqueued sampleRows ∧ Reaches false sampleRows sampleClaimed ∧
      setProgressStage "w" 1 .publishing 6 sampleClaimed.job =
        .error (.downloadError .internalError "ILLEGAL_PROGRESS_TRANSITION") :=
  ⟨.reserved sampleRows_created, .single (sampleClaimed_commits false), by decide +kernel⟩

end FetchNow
