import FetchNow.MediaFlow.Answers

/-!
# Download links

The link that is shown came from the server for the download and the generation at hand. Requests
for grants are numbered, and only the answer to the last one is stored.
-/
namespace FetchNow.MediaFlow

namespace Request

/-- The number of a request for a grant. -/
def grantNumber : Request → Option Nat
  | grant _ grantGeneration _ => some grantGeneration
  | upgrade _ => none

/-- The requests for grants. -/
def grants (outbox : List Request) : List Request := outbox.filter (·.grantNumber.isSome)

/-- The numbers of the requests that were sent. -/
def sentNumbers (outbox : List Request) : List Nat := outbox.filterMap grantNumber

variable {outbox outbox' : List Request} {generation grantGeneration : Nat} {jobId : Uuid}

theorem mem_grants : grant generation grantGeneration jobId ∈ grants outbox ↔
    grant generation grantGeneration jobId ∈ outbox := by
  simp [grants, grantNumber]

theorem mem_iff_of_grants (h : grants outbox' = grants outbox) :
    grant generation grantGeneration jobId ∈ outbox' ↔
      grant generation grantGeneration jobId ∈ outbox := by
  rw [← mem_grants, h, mem_grants]

theorem sentNumbers_grants (outbox : List Request) :
    sentNumbers (grants outbox) = sentNumbers outbox := by
  rw [sentNumbers, grants, List.filterMap_filter]
  refine List.filterMap_congr fun request _ => ?_
  cases request <;> rfl

end Request

namespace Await

/-- The numbers of the requests under way. -/
def grantNumbers (tasks : List Await) : List Nat := tasks.filterMap grantNumber

end Await

namespace Flow

open MediaFlow.Action Await

variable {w w' w'' : Flow} {generation grantGeneration signal : Nat} {err : Thrown}
  {phase : FlowPhase} {t : Await} {caller : DownloadCaller} {poll : Poll}

/-- The grants are cleared, or they are kept with the download they are for. -/
inductive Granting (w w' : Flow) : Prop
  | cleared (htasks : ∀ t ∈ w'.tasks, t.grantNumber.isSome → t ∈ w.tasks)
      (hnumbers : (grantNumbers w'.tasks).Sublist (grantNumbers w.tasks))
      (hsent : Request.grants w'.outbox = Request.grants w.outbox)
      (hgen : w.machine.generation ≤ w'.machine.generation)
      (hnumber : w.grantGeneration < w'.grantGeneration) (hpath : w'.downloadPath = none)
      (htimer : w'.grantRefreshTimer = none)
  | kept (htasks : ∀ t ∈ w'.tasks, t.grantNumber.isSome → t ∈ w.tasks)
      (hnumbers : (grantNumbers w'.tasks).Sublist (grantNumbers w.tasks))
      (hsent : Request.grants w'.outbox = Request.grants w.outbox)
      (hgen : w'.machine.generation = w.machine.generation)
      (hnumber : w'.grantGeneration = w.grantGeneration)
      (hpath : w'.downloadPath = w.downloadPath ∧ w'.grantExpiresAt = w.grantExpiresAt ∨
        w'.downloadPath = none)
      (htimer : w'.grantRefreshTimer = none ∨ w'.grantRefreshTimer = w.grantRefreshTimer)
      (harming : w'.grantArming = w.grantArming)
      (hready : w.machine.phase = .ready → w'.machine.phase = .ready ∧
        ∀ id, w.downloadJob.map (·.id) = some id → w'.downloadJob.map (·.id) = some id)

theorem Granting.trans (h : Granting w w') (h' : Granting w' w'') : Granting w w'' := by
  cases h' with
  | cleared htasks' hnumbers' hsent' hgen' hnumber' hpath' htimer' =>
    cases h with
    | cleared htasks hnumbers hsent hgen hnumber =>
      exact .cleared (fun t ht hs => htasks t (htasks' t ht hs) hs) (hnumbers'.trans hnumbers)
        (hsent'.trans hsent) (Nat.le_trans hgen hgen') (Nat.lt_trans hnumber hnumber') hpath'
        htimer'
    | kept htasks hnumbers hsent hgen hnumber =>
      refine .cleared (fun t ht hs => htasks t (htasks' t ht hs) hs) (hnumbers'.trans hnumbers)
        (hsent'.trans hsent) ?_ ?_ hpath' htimer'
      · omega
      · omega
  | kept htasks' hnumbers' hsent' hgen' hnumber' hpath' htimer' harming' hready' =>
    cases h with
    | cleared htasks hnumbers hsent hgen hnumber hpath htimer =>
      refine .cleared (fun t ht hs => htasks t (htasks' t ht hs) hs) (hnumbers'.trans hnumbers)
        (hsent'.trans hsent) ?_ ?_ ?_ ?_
      · omega
      · omega
      · rcases hpath' with ⟨hpath', -⟩ | hpath'
        · rw [hpath', hpath]
        · exact hpath'
      · rcases htimer' with htimer' | htimer'
        · exact htimer'
        · rw [htimer', htimer]
    | kept htasks hnumbers hsent hgen hnumber hpath htimer harming hready =>
      refine .kept (fun t ht hs => htasks t (htasks' t ht hs) hs) (hnumbers'.trans hnumbers)
        (hsent'.trans hsent) (hgen'.trans hgen) (hnumber'.trans hnumber) ?_ ?_
        (harming'.trans harming) ?_
      · rcases hpath' with ⟨hpath', hexpires'⟩ | hpath'
        · rcases hpath with ⟨hpath, hexpires⟩ | hpath
          · exact .inl ⟨hpath'.trans hpath, hexpires'.trans hexpires⟩
          · exact .inr (hpath'.trans hpath)
        · exact .inr hpath'
      · rcases htimer' with htimer' | htimer'
        · exact .inl htimer'
        · rcases htimer with htimer | htimer
          · exact .inl (htimer'.trans htimer)
          · exact .inr (htimer'.trans htimer)
      · intro h
        obtain ⟨hphase, hjob⟩ := hready h
        obtain ⟨hphase', hjob'⟩ := hready' hphase
        exact ⟨hphase', fun id hid => hjob' id (hjob id hid)⟩

theorem Granting.after (h' : Granting w' w'') (h : Granting w w') : Granting w w'' := h.trans h'

/-- A method that does not touch the grants. -/
theorem Granting.of_eq (htasks : w'.tasks = w.tasks) (hgrant : w'.toGrantState = w.toGrantState)
    (hgen : w'.machine.generation = w.machine.generation)
    (hready : w.machine.phase = .ready → w'.machine.phase = .ready ∧
      ∀ id, w.downloadJob.map (·.id) = some id → w'.downloadJob.map (·.id) = some id) :
    Granting w w' := by
  apply Granting.kept
  · intro t ht _
    rwa [htasks] at ht
  · rw [htasks]
  · rw [show w'.outbox = w.outbox from congrArg GrantState.outbox hgrant]
  · exact hgen
  · exact congrArg GrantState.grantGeneration hgrant
  · exact .inl ⟨congrArg GrantState.downloadPath hgrant, congrArg GrantState.grantExpiresAt hgrant⟩
  · exact .inr (congrArg GrantState.grantRefreshTimer hgrant)
  · exact congrArg GrantState.grantArming hgrant
  · exact hready

/-- The action stays. Of the grant no more changes than that the link or the timer is dropped. -/
theorem Granting.of_action (haction : w'.toAction = w.toAction)
    (hsent : Request.grants w'.outbox = Request.grants w.outbox)
    (hnumber : w'.grantGeneration = w.grantGeneration)
    (hpath : w'.downloadPath = w.downloadPath ∧ w'.grantExpiresAt = w.grantExpiresAt ∨
      w'.downloadPath = none)
    (htimer : w'.grantRefreshTimer = none ∨ w'.grantRefreshTimer = w.grantRefreshTimer)
    (harming : w'.grantArming = w.grantArming) : Granting w w' := by
  have htasks : w'.tasks = w.tasks := congrArg Action.tasks haction
  have hmachine : w'.machine = w.machine := congrArg Action.machine haction
  have hjob : w'.downloadJob = w.downloadJob := congrArg Action.downloadJob haction
  apply Granting.kept
  · intro t ht _
    rwa [htasks] at ht
  · rw [htasks]
  · exact hsent
  · rw [hmachine]
  · exact hnumber
  · exact hpath
  · exact htimer
  · exact harming
  · intro hready
    rw [hmachine, hjob]
    exact ⟨hready, fun _ hid => hid⟩

theorem Granting.of_same (haction : w'.toAction = w.toAction)
    (hgrant : w'.toGrantState = w.toGrantState) : Granting w w' := by
  apply Granting.of_action haction
  · rw [show w'.outbox = w.outbox from congrArg GrantState.outbox hgrant]
  · exact congrArg GrantState.grantGeneration hgrant
  · exact .inl ⟨congrArg GrantState.downloadPath hgrant, congrArg GrantState.grantExpiresAt hgrant⟩
  · exact .inr (congrArg GrantState.grantRefreshTimer hgrant)
  · exact congrArg GrantState.grantArming hgrant

theorem Granting.refl (w : Flow) : Granting w w := .of_same rfl rfl

/-- A new await that is no request for a grant. -/
theorem Granting.spawn (ht : t.grantNumber = none) : Granting w (w.spawn t) := by
  apply Granting.kept
  · intro u hu hs
    rcases List.mem_cons.mp hu with rfl | hu
    · rw [ht] at hs
      cases hs
    · exact hu
  · rw [grantNumbers, show (w.spawn t).tasks = t :: w.tasks from rfl, List.filterMap_cons, ht]
    exact .refl _
  · rfl
  · rfl
  · rfl
  · exact .inl ⟨rfl, rfl⟩
  · exact .inr rfl
  · rfl
  · exact fun h => ⟨h, fun _ hid => hid⟩

theorem Granting.finish : Granting w (w.finish t) := by
  apply Granting.kept
  · intro u hu _
    exact List.mem_of_mem_erase hu
  · exact List.erase_sublist.filterMap _
  · rfl
  · rfl
  · rfl
  · exact .inl ⟨rfl, rfl⟩
  · exact .inr rfl
  · rfl
  · exact fun h => ⟨h, fun _ hid => hid⟩

theorem Granting.clear : Granting w w.clearGrantState := by
  apply Granting.cleared
  · exact fun _ ht _ => ht
  · exact .refl _
  · rfl
  · exact Nat.le_refl _
  · exact Nat.lt_succ_self _
  · rfl
  · rfl

theorem Granting.persist : Granting w w.persist := by
  obtain ⟨session, h⟩ := w.persist_eq
  rw [h]
  exact .of_same rfl rfl

theorem Granting.refreshQuota {silent : Bool} : Granting w (w.refreshQuota silent) := by
  obtain ⟨quotaRefresh, h⟩ := w.refreshQuota_eq silent
  rw [h]
  exact .of_same rfl rfl

theorem Granting.refreshPremium : Granting w w.refreshPremium := by
  unfold Flow.refreshPremium
  split
  · exact .refl w
  · exact .of_same rfl rfl

theorem Granting.invalidateExpiredGrantHref : Granting w w.invalidateExpiredGrantHref := by
  unfold Flow.invalidateExpiredGrantHref
  split
  · exact .refl w
  · exact .of_action rfl rfl rfl (.inr rfl) (.inl rfl) rfl

theorem Granting.upgradeToPremium {userInitiated : Bool} :
    Granting w (w.upgradeToPremium userInitiated) := by
  unfold Flow.upgradeToPremium
  split
  · exact .refl w
  · split
    · split
      · exact .refl w
      · split
        · exact .refl w
        · split
          · exact .refl w
          · refine .after (.after (.spawn rfl) .clear) ?_
            exact .of_action rfl rfl rfl (.inl ⟨rfl, rfl⟩) (.inr rfl) rfl
    · exact .refl w

/-! ## The drivers of an action keep the grants, or clear them -/

/-- Where no grant is held, the machine and the download may change. -/
theorem Granting.of_not_ready (hready : w.machine.phase ≠ .ready) (htasks : w'.tasks = w.tasks)
    (hgrant : w'.toGrantState = w.toGrantState)
    (hgen : w'.machine.generation = w.machine.generation) : Granting w w' :=
  .of_eq htasks hgrant hgen fun h => absurd h hready

theorem Granting.fail (hlegal : phase ∈ w.machine.phase.allowed) (hterminal : phase.terminal) :
    Granting w (w.fail phase err generation) := by
  have hmachine : (w.machine.transition phase).getD w.machine.resetToIdle =
      ⟨phase, w.machine.generation, w.machine.busy⟩ := by
    have hsubmitting : phase ≠ .submitting := by
      rintro rfl
      simp [FlowPhase.terminal] at hterminal
    have hidle : phase ≠ .idle := by
      rintro rfl
      simp [FlowPhase.terminal] at hterminal
    simp [FlowMachine.transition, hlegal, hsubmitting, hidle]
  unfold Flow.fail
  split
  · exact .refl w
  · split
    · exact .refl w
    · simp only [hmachine, hterminal, if_true]
      apply Granting.cleared
      · exact fun _ ht _ => ht
      · exact .refl _
      · rfl
      · exact Nat.le_refl _
      · exact Nat.lt_succ_self _
      · rfl
      · rfl

theorem Granting.catchInspection {caller : InspectionCaller}
    (hphase : w.machine.phase = .submitting ∨ w.machine.phase = .inspecting) :
    Granting w (catchInspection caller err generation w) := by
  have hready : w.machine.phase ≠ .ready := by
    rcases hphase with h | h <;> simp [h]
  cases caller with
  | submit =>
    apply Granting.fail
    · rcases hphase with h | h <;> rw [h] <;> split_ifs <;> simp [FlowPhase.allowed]
    · split_ifs <;> rfl
  | resume =>
    have hlegal : FlowPhase.networkError ∈ w.machine.phase.allowed := by
      rcases hphase with h | h <;> simp [h, FlowPhase.allowed]
    exact .after (.fail (w := { w with resumeDownloadId := none }) hlegal rfl)
      (.of_not_ready hready rfl rfl rfl)

theorem Granting.catchEnqueue
    (hphase : w.machine.phase = .enqueueingDownload ∨ w.machine.phase = .downloading) :
    Granting w (w.catchEnqueue err generation) := by
  have hfail : Granting w ((w.fail .downloadFailed err generation).refreshQuota true) := by
    refine .trans (.fail ?_ rfl) .refreshQuota
    rcases hphase with h | h <;> simp [h, FlowPhase.allowed]
  unfold Flow.catchEnqueue
  split
  · exact .refl w
  · split
    · exact .refl w
    · split
      · exact .refl w
      · split
        · split
          · exact .trans .refreshPremium (.spawn rfl)
          · exact hfail
        · exact hfail

theorem Granting.catchResumed (hready : w.machine.phase ≠ .ready) :
    Granting w (w.catchResumed err generation) := by
  have hnone : Granting w { w with downloadJob := none } := .of_not_ready hready rfl rfl rfl
  have hpersist : Granting w ({ w with downloadJob := none } : Flow).endAction.persist :=
    .after .persist (.of_not_ready hready rfl rfl rfl)
  unfold Flow.catchResumed
  dsimp only
  split
  · exact hnone
  · split
    · exact hpersist
    · exact .trans hpersist (.of_same rfl rfl)

theorem Granting.catchDownload
    (hphase : w.machine.phase = .downloading) : Granting w (catchDownload caller err generation w) := by
  cases caller with
  | resumed =>
    apply Granting.catchResumed
    simp [hphase]
  | enqueue => exact .catchEnqueue (.inr hphase)

theorem Granting.readInspection {caller : InspectionCaller}
    (hphase : w.machine.phase = .inspecting) : Granting w (w.readInspection caller poll) := by
  unfold Flow.readInspection
  dsimp only
  split
  · exact .catchInspection (.inr hphase)
  · exact .spawn rfl

theorem Granting.pollInspection {caller : InspectionCaller}
    (hphase : w.machine.phase = .inspecting) : Granting w (w.pollInspection caller generation) := by
  unfold Flow.pollInspection
  split
  · split
    · exact .readInspection hphase
    · exact .catchInspection (.inr hphase)
  · exact .catchInspection (.inr hphase)

theorem Granting.inspectionTick {job : InspectionJob} :
    Granting w (w.inspectionTick generation job) := by
  unfold Flow.inspectionTick
  split
  · exact .refl w
  · exact .after .persist (.of_same rfl rfl)

theorem Granting.resumeAnswered {outcome : Except Thrown InspectionJob}
    (hphase : w.machine.phase = .submitting) : Granting w (w.resumeAnswered generation outcome) := by
  have hready : w.machine.phase ≠ .ready := by simp [hphase]
  cases outcome with
  | error err =>
    show Granting w (Flow.catchInspection .resume err generation w)
    exact .catchInspection (.inl hphase)
  | ok job =>
    simp only [Flow.resumeAnswered, transition_inspecting hphase]
    split
    · exact .refl w
    · exact .after (.pollInspection rfl) (.of_not_ready hready rfl rfl rfl)

theorem Granting.submitAnswered {outcome : Except Thrown InspectionJob}
    (hphase : w.machine.phase = .submitting) : Granting w (w.submitAnswered generation outcome) := by
  have hready : w.machine.phase ≠ .ready := by simp [hphase]
  cases outcome with
  | error err =>
    show Granting w (Flow.catchInspection .submit err generation w)
    exact .catchInspection (.inl hphase)
  | ok job =>
    obtain ⟨session, hpersist⟩ := Flow.persist_eq { w with mediaJob := some job }
    simp only [Flow.submitAnswered, hpersist, transition_inspecting hphase]
    split
    · exact .refl w
    · exact .after (.pollInspection rfl) (.of_not_ready hready rfl rfl rfl)

theorem Granting.inspectionPolled {caller : InspectionCaller} {job : InspectionJob}
    (hphase : w.machine.phase = .inspecting) :
    Granting w (w.inspectionPolled caller generation job) := by
  have hready : w.machine.phase ≠ .ready := by simp [hphase]
  have hinspected : w.machine.transition .inspected =
      some ⟨.inspected, w.machine.generation, w.machine.busy⟩ := by
    simp [FlowMachine.transition, hphase, FlowPhase.allowed]
  have hfail : ∀ (phase : FlowPhase) (err : FlowError), phase = .expired ∨ phase = .inspectionFailed →
      Granting w (Flow.fail phase (.flow err) generation
        { w with mediaJob := some job, resumeDownloadId := none }) := by
    intro phase err hdst
    refine .after (.fail ?_ ?_) (.of_not_ready hready rfl rfl rfl)
    · rcases hdst with rfl | rfl <;> simp [hphase, FlowPhase.allowed]
    · rcases hdst with rfl | rfl <;> rfl
  unfold Flow.inspectionPolled
  split
  · exact .refl w
  · dsimp only
    split
    · exact hfail _ _ (.inl rfl)
    · exact hfail _ _ (.inr rfl)
    · simp only [hinspected]
      split
      · split
        · exact .after (.spawn rfl) (.of_not_ready hready rfl rfl rfl)
        · exact .after (.catchResumed (by simp)) (.of_not_ready hready rfl rfl rfl)
      · exact .after .persist (.of_not_ready hready rfl rfl rfl)

theorem Granting.inspectionAnswered {caller : InspectionCaller}
    {outcome : Except Thrown InspectionJob} (hphase : w.machine.phase = .inspecting) :
    Granting w (w.inspectionAnswered caller poll outcome) := by
  cases outcome with
  | error err =>
    simp only [Flow.inspectionAnswered]
    split
    · exact .spawn rfl
    · exact .catchInspection (.inr hphase)
  | ok job =>
    have haction : (w.inspectionTick poll.generation job).toAction = w.toAction :=
      inspectionTick_toAction
    simp only [Flow.inspectionAnswered]
    split
    · refine .trans .inspectionTick (.inspectionPolled ?_)
      rw [congrArg Action.machine haction]
      exact hphase
    · exact .trans .inspectionTick (.spawn rfl)

theorem Granting.readDownload (hphase : w.machine.phase = .downloading) :
    Granting w (w.readDownload caller poll) := by
  unfold Flow.readDownload
  dsimp only
  split
  · exact .catchDownload hphase
  · exact .spawn rfl

theorem Granting.pollDownload (hphase : w.machine.phase = .downloading) :
    Granting w (w.pollDownload caller generation) := by
  unfold Flow.pollDownload
  split
  · split
    · exact .readDownload hphase
    · exact .catchDownload hphase
  · exact .catchDownload hphase

theorem Granting.resumeDownloadAnswered {outcome : Except Thrown DownloadJob}
    (hphase : w.machine.phase = .inspected) :
    Granting w (w.resumeDownloadAnswered generation outcome) := by
  have hready : w.machine.phase ≠ .ready := by simp [hphase]
  have henqueue : w.machine.transition .enqueueingDownload =
      some ⟨.enqueueingDownload, w.machine.generation, w.machine.busy⟩ := by
    simp [FlowMachine.transition, hphase, FlowPhase.allowed]
  have hdownload : (⟨.enqueueingDownload, w.machine.generation, w.machine.busy⟩ :
      FlowMachine).transition .downloading =
        some ⟨.downloading, w.machine.generation, w.machine.busy⟩ := by
    simp [FlowMachine.transition, FlowPhase.allowed]
  cases outcome with
  | error err => exact .catchResumed hready
  | ok download =>
    simp only [Flow.resumeDownloadAnswered, henqueue, hdownload]
    split
    · exact .refl w
    · exact .after (.pollDownload rfl) (.of_not_ready hready rfl rfl rfl)

theorem Granting.createAnswered {outcome : Except Thrown DownloadJob}
    (hphase : w.machine.phase = .enqueueingDownload) :
    Granting w (w.createAnswered generation outcome) := by
  have hready : w.machine.phase ≠ .ready := by simp [hphase]
  have hdownload : w.machine.transition .downloading =
      some ⟨.downloading, w.machine.generation, w.machine.busy⟩ := by
    simp [FlowMachine.transition, hphase, FlowPhase.allowed]
  cases outcome with
  | error err => exact .catchEnqueue (.inl hphase)
  | ok job =>
    simp only [Flow.createAnswered, hdownload]
    split
    · exact .refl w
    · have hpersist : Granting w (Flow.persist
          { w with
            machine := ⟨.downloading, w.machine.generation, w.machine.busy⟩
            downloadJob := some job }) :=
        .after .persist (.of_not_ready hready rfl rfl rfl)
      refine .after (.pollDownload ?_) hpersist
      exact congrArg (·.machine.phase) persist_toAction

theorem Granting.enqueueQuotaSettled {formatOptionId : OptionId} {rejected : Option Thrown}
    (hphase : w.machine.phase = .enqueueingDownload) :
    Granting w (w.enqueueQuotaSettled generation formatOptionId rejected) := by
  cases rejected with
  | some err => exact .catchEnqueue (.inl hphase)
  | none =>
    simp only [Flow.enqueueQuotaSettled]
    split
    · exact .catchEnqueue (.inl hphase)
    · split
      · exact .spawn rfl
      · exact .catchEnqueue (.inl hphase)

theorem Granting.enqueueLapsedSettled (hready : w.machine.phase ≠ .ready) :
    Granting w (w.enqueueLapsedSettled generation) := by
  unfold Flow.enqueueLapsedSettled
  dsimp only
  split
  · exact .of_same rfl rfl
  · rename_i machine hmachine
    unfold FlowMachine.transitionIn at hmachine
    split at hmachine
    · cases hmachine
      exact .of_eq rfl rfl rfl fun h => ⟨h, fun _ hid => hid⟩
    · obtain ⟨-, rfl⟩ := (FlowMachine.transition_eq_some (by simp) (by simp)).mp hmachine
      exact .of_not_ready hready rfl rfl rfl

theorem Granting.downloadTick {job : DownloadJob} (hready : w.machine.phase ≠ .ready) :
    Granting w (w.downloadTick generation job) := by
  unfold Flow.downloadTick
  split
  · exact .refl w
  · split
    · exact .refl w
    · exact .after .persist (.of_not_ready hready rfl rfl rfl)

theorem Granting.cancelAnswered {outcome : Except Thrown DownloadJob}
    (hjob : ∀ job, outcome = .ok job → generation = w.machine.generation →
      ∀ d, w.downloadJob = some d → d.id = job.id) :
    Granting w (w.cancelAnswered generation outcome) := by
  unfold Flow.cancelAnswered
  split
  · exact .refl w
  rename_i hgen
  simp only [ne_eq, not_not] at hgen
  cases outcome with
  | error err =>
    dsimp only
    split
    · exact .refl w
    · exact .of_same rfl rfl
  | ok job =>
    have hkept : ∀ id, w.downloadJob.map (·.id) = some id → some job.id = some id := by
      intro id hid
      obtain ⟨d, hd, rfl⟩ := Option.map_eq_some_iff.mp hid
      rw [hjob job rfl hgen d hd]
    have hset : Granting w { w with downloadJob := some job } :=
      .of_eq rfl rfl rfl fun h => ⟨h, hkept⟩
    obtain ⟨quotaRefresh, hquota⟩ := Flow.refreshQuota_eq { w with downloadJob := some job } true
    simp only [hquota, Flow.clearGrantState]
    split
    · split
      · apply Granting.cleared
        · exact fun _ ht _ => ht
        · exact .refl _
        · rfl
        · exact Nat.le_refl _
        · exact Nat.lt_succ_self _
        · rfl
        · rfl
      · rename_i machine hmachine
        obtain ⟨-, rfl⟩ := (FlowMachine.transition_eq_some (by simp) (by simp)).mp hmachine
        apply Granting.cleared
        · exact fun _ ht _ => ht
        · exact .refl _
        · rfl
        · exact Nat.le_refl _
        · exact Nat.lt_succ_self _
        · rfl
        · rfl
    · exact hset

theorem Ignored.granting (h : Ignored w w') : Granting w w' := by
  have hgrant : w'.toGrantState = w.toGrantState := congrArg Scene.grant h.scene
  have hgen : w'.machine.generation = w.machine.generation := congrArg Scene.generation h.scene
  have hready : w.machine.phase = .ready → w'.machine.phase = .ready ∧
      ∀ id, w.downloadJob.map (·.id) = some id → w'.downloadJob.map (·.id) = some id := by
    intro hphase
    have hjob : w'.downloadJob = w.downloadJob := congrArg Scene.downloadJob h.scene
    refine ⟨(congrArg Scene.phase h.scene).trans hphase, fun id hid => ?_⟩
    rw [hjob]
    exact hid
  have hsame (htasks : w'.tasks = w.tasks) : Granting w w' := .of_eq htasks hgrant hgen hready
  rcases h.action with haction | haction | ⟨t, -, -, -, hnumber, haction⟩
  · exact hsame (by rw [haction])
  · exact hsame (by rw [haction])
  · have hspawn : Granting (w.spawn t) w' := by
      refine .of_eq (by rw [haction]; rfl) hgrant hgen hready
    exact .after hspawn (.spawn hnumber)

/-! ## Where a link comes from -/

open Transactions (Commit)

/-- The answer of this request may still be stored. -/
def Storable (w : Flow) (generation grantGeneration : Nat) : Prop :=
  generation = w.machine.generation ∧ grantGeneration = w.grantGeneration

/-- The grant that is kept, or the one that a request would fall back to. -/
def Holds (w : Flow) (g : BrowserGrant) : Prop :=
  (w.downloadPath = some g.downloadPath ∧ w.grantExpiresAt = some g.expiresAt) ∨
    ∃ generation grantGeneration jobId token,
      .grant generation grantGeneration jobId token (some g) ∈ w.tasks ∧
        w.Storable generation grantGeneration

/-- The server answered a request of this generation, for the download at hand, with the grant. -/
def Issued (log : List (Commit Event Flow)) (w : Flow) (g : BrowserGrant) : Prop :=
  ∃ commit ∈ log, ∃ grantGeneration jobId token previous,
    commit.actor =
      .answer (.grant w.machine.generation grantGeneration jobId token previous) (.grant g) ∧
      .grant w.machine.generation grantGeneration jobId ∈ w.outbox ∧
      w.downloadJob.map (·.id) = some jobId

/-- A request for a grant is pending: it was sent. -/
def Sent (w : Flow) : Await → Prop
  | .grant generation grantGeneration jobId _ _ =>
    .grant generation grantGeneration jobId ∈ w.outbox
  | _ => True

/-- The requests for grants have numbers of their own, up to the last one, and were sent before
they are pending. -/
structure Numbered (w : Flow) : Prop where
  last : ∀ n ∈ Request.sentNumbers w.outbox, n ≤ w.grantGeneration
  distinct : (Request.sentNumbers w.outbox).Nodup
  sent : ∀ t ∈ w.tasks, w.Sent t

structure GrantInv (log : List (Commit Event Flow)) (w : Flow) : Prop extends w.Numbered where
  timer : ∀ timer, w.grantRefreshTimer = some timer → timer.generation ≤ w.machine.generation
  armed : w.downloadPath.isSome → w.machine.phase = .ready
  numbered : ∀ n ∈ grantNumbers w.tasks, n ≤ w.grantGeneration
  apart : (grantNumbers w.tasks).Nodup
  storable : ∀ generation grantGeneration jobId token previous,
    .grant generation grantGeneration jobId token previous ∈ w.tasks →
      w.Storable generation grantGeneration →
        w.machine.phase = .ready ∧ w.downloadJob.map (·.id) = some jobId ∧ w.grantArming ∧
          w.downloadPath = none
  issued : ∀ g, w.Holds g → Issued log w g

variable {log : List (Commit Event Flow)} {g : BrowserGrant}

theorem mem_grantNumbers {tasks : List Await} {generation grantGeneration : Nat} {jobId : Uuid}
    {token : AccessToken} {previous : Option BrowserGrant}
    (ht : .grant generation grantGeneration jobId token previous ∈ tasks) :
    grantGeneration ∈ grantNumbers tasks :=
  List.mem_filterMap.mpr ⟨_, ht, rfl⟩

theorem Issued.cons (h : Issued log w g) (commit : Commit Event Flow) :
    Issued (commit :: log) w g := by
  obtain ⟨c, hc, hrest⟩ := h
  exact ⟨c, List.mem_cons_of_mem _ hc, hrest⟩

theorem GrantInv.cons (h : GrantInv log w) (commit : Commit Event Flow) :
    GrantInv (commit :: log) w :=
  { h with issued := fun g hg => (h.issued g hg).cons commit }

theorem Numbered.of_sent (h : w.Numbered)
    (hsent : Request.grants w'.outbox = Request.grants w.outbox)
    (htasks : ∀ t ∈ w'.tasks, t.grantNumber.isSome → t ∈ w.tasks)
    (hnumber : w.grantGeneration ≤ w'.grantGeneration) : w'.Numbered := by
  have hnumbers : Request.sentNumbers w'.outbox = Request.sentNumbers w.outbox := by
    rw [← Request.sentNumbers_grants, hsent, Request.sentNumbers_grants]
  refine ⟨?_, ?_, ?_⟩
  · rw [hnumbers]
    exact fun n hn => Nat.le_trans (h.last n hn) hnumber
  · rw [hnumbers]
    exact h.distinct
  · intro t ht
    cases t with
    | grant => exact (Request.mem_iff_of_grants hsent).mpr (h.sent _ (htasks _ ht rfl))
    | _ => trivial

theorem Numbered.granting (h : w.Numbered) (hgranting : Granting w w') : w'.Numbered := by
  cases hgranting with
  | cleared htasks hnumbers hsent hgen hnumber =>
    exact h.of_sent hsent htasks (Nat.le_of_lt hnumber)
  | kept htasks hnumbers hsent hgen hnumber =>
    exact h.of_sent hsent htasks (Nat.le_of_eq hnumber.symm)

/-- What keeps the grants, or clears them, keeps the invariant. -/
theorem GrantInv.granting (h : GrantInv log w) (hgranting : Granting w w') : GrantInv log w' := by
  have hrequests := h.toNumbered.granting hgranting
  cases hgranting with
  | cleared htasks hnumbers hsent hgen hnumber hpath htimer =>
    have hnone : ∀ generation grantGeneration jobId token previous,
        .grant generation grantGeneration jobId token previous ∈ w'.tasks →
          ¬ w'.Storable generation grantGeneration := by
      intro generation grantGeneration jobId token previous ht hstorable
      have hle := h.numbered grantGeneration (hnumbers.subset (mem_grantNumbers ht))
      have heq := hstorable.2
      omega
    exact
      { hrequests with
        timer := fun timer ht => by simp [htimer] at ht
        armed := fun hsome => by simp [hpath] at hsome
        numbered := fun n hn => Nat.le_of_lt (Nat.lt_of_le_of_lt (h.numbered n (hnumbers.subset hn)) hnumber)
        apart := h.apart.sublist hnumbers
        storable := fun _ _ _ _ _ ht hstorable => absurd hstorable (hnone _ _ _ _ _ ht)
        issued := by
          rintro g (⟨hheld, -⟩ | ⟨_, _, _, _, ht, hstorable⟩)
          · rw [hpath] at hheld
            cases hheld
          · exact absurd hstorable (hnone _ _ _ _ _ ht) }
  | kept htasks hnumbers hsent hgen hnumber hpath htimer harming hready =>
    have hstorable : ∀ generation grantGeneration jobId token previous,
        .grant generation grantGeneration jobId token previous ∈ w'.tasks →
          w'.Storable generation grantGeneration →
            .grant generation grantGeneration jobId token previous ∈ w.tasks ∧
              w.Storable generation grantGeneration := by
      intro generation grantGeneration jobId token previous ht hs
      exact ⟨htasks _ ht rfl, hs.1.trans hgen, hs.2.trans hnumber⟩
    have hissued : w.machine.phase = .ready → ∀ g, Issued log w g → Issued log w' g := by
      rintro hphase g ⟨commit, hcommit, grantGeneration, jobId, token, previous, hactor, hmem, hjob⟩
      refine ⟨commit, hcommit, grantGeneration, jobId, token, previous, ?_, ?_, ?_⟩
      · rw [hgen]
        exact hactor
      · rw [hgen]
        exact (Request.mem_iff_of_grants hsent).mpr hmem
      · exact (hready hphase).2 jobId hjob
    exact
      { hrequests with
        timer := by
          intro timer ht
          rcases htimer with hnone | hsame
          · simp [hnone] at ht
          · rw [hgen]
            exact h.timer timer (hsame ▸ ht)
        armed := by
          intro hsome
          rcases hpath with ⟨hpath, -⟩ | hpath
          · exact (hready (h.armed (hpath ▸ hsome))).1
          · simp [hpath] at hsome
        numbered := fun n hn => by
          rw [hnumber]
          exact h.numbered n (hnumbers.subset hn)
        apart := h.apart.sublist hnumbers
        storable := by
          intro generation grantGeneration jobId token previous ht hs
          obtain ⟨ht', hs'⟩ := hstorable _ _ _ _ _ ht hs
          obtain ⟨hphase, hjob, harm, hnone⟩ := h.storable _ _ _ _ _ ht' hs'
          refine ⟨(hready hphase).1, (hready hphase).2 jobId hjob, by rw [harming]; exact harm, ?_⟩
          rcases hpath with ⟨hpath, -⟩ | hpath
          · exact hpath.trans hnone
          · exact hpath
        issued := by
          rintro g (⟨hheld, hexpires⟩ | ⟨_, _, _, _, ht, hs⟩)
          · rcases hpath with ⟨hsame, hsame'⟩ | hnone
            · rw [hsame] at hheld
              rw [hsame'] at hexpires
              have hphase := h.armed (by simp [hheld])
              exact hissued hphase g (h.issued g (.inl ⟨hheld, hexpires⟩))
            · rw [hnone] at hheld
              cases hheld
          · obtain ⟨ht', hs'⟩ := hstorable _ _ _ _ _ ht hs
            have hphase := (h.storable _ _ _ _ _ ht' hs').1
            exact hissued hphase g (h.issued g (.inr ⟨_, _, _, _, ht', hs'⟩)) }

/-! ## Requests and their answers -/

theorem GrantInv.scheduleGrantRefresh (h : GrantInv log w) (hgen : generation ≤ w.machine.generation) :
    GrantInv log (w.scheduleGrantRefresh generation) := by
  have hstop : Granting w { w with grantRefreshTimer := none } :=
    .of_action rfl rfl rfl (.inl ⟨rfl, rfl⟩) (.inl rfl) rfl
  unfold Flow.scheduleGrantRefresh
  dsimp only
  split
  · exact h.granting hstop
  · split
    · exact h.granting hstop
    · split
      · exact h.granting (.after .invalidateExpiredGrantHref hstop)
      · have htimer : ∀ due : Int, ∀ timer, some (⟨generation, due⟩ : GrantRefreshTimer) = some timer →
            timer.generation ≤ w.machine.generation := by
          rintro due timer ⟨⟩
          exact hgen
        exact { h with timer := htimer _ }

/-- A new request: the link before it is only what it falls back to. -/
theorem GrantInv.request {jobId : Uuid} {token : AccessToken} {previous : Option BrowserGrant}
    (h : GrantInv log w) (hphase : w.machine.phase = .ready)
    (hjob : w.downloadJob.map (·.id) = some jobId)
    (hprevious : ∀ g, previous = some g → w.downloadPath = some g.downloadPath ∧
      w.grantExpiresAt = some g.expiresAt)
    (htasks : w'.tasks = .grant generation (w.grantGeneration + 1) jobId token previous :: w.tasks)
    (haction : w'.machine = w.machine ∧ w'.downloadJob = w.downloadJob)
    (htimer : w'.grantRefreshTimer = w.grantRefreshTimer)
    (hgrant : w'.grantGeneration = w.grantGeneration + 1 ∧ w'.downloadPath = none ∧
      w'.grantArming = true)
    (houtbox : w'.outbox = .grant generation (w.grantGeneration + 1) jobId :: w.outbox) :
    GrantInv log w' := by
  obtain ⟨hmachine, hdownload⟩ := haction
  obtain ⟨hnumber, hpath, harming⟩ := hgrant
  have hnumbers : grantNumbers w'.tasks = (w.grantGeneration + 1) :: grantNumbers w.tasks := by
    rw [htasks]
    rfl
  have hlast : ∀ generation' grantGeneration jobId' token' previous',
      .grant generation' grantGeneration jobId' token' previous' ∈ w'.tasks →
        w'.Storable generation' grantGeneration → jobId' = jobId ∧ previous' = previous := by
    intro generation' grantGeneration jobId' token' previous' ht hs
    rw [htasks] at ht
    rcases List.mem_cons.mp ht with heq | ht
    · cases heq
      exact ⟨rfl, rfl⟩
    · have hle := h.numbered grantGeneration (mem_grantNumbers ht)
      have heq := hs.2
      omega
  have hsent : Request.sentNumbers w'.outbox =
      (w.grantGeneration + 1) :: Request.sentNumbers w.outbox := by
    rw [houtbox]
    rfl
  have hrequests : w'.Numbered := by
    refine ⟨?_, ?_, ?_⟩
    · rw [hsent, hnumber]
      exact List.forall_mem_cons.mpr ⟨Nat.le_refl _, fun n hn => Nat.le_succ_of_le (h.last n hn)⟩
    · rw [hsent]
      refine List.nodup_cons.mpr ⟨fun hmem => ?_, h.distinct⟩
      exact Nat.not_succ_le_self _ (h.last _ hmem)
    · rw [htasks]
      refine List.forall_mem_cons.mpr ⟨?_, fun t ht => ?_⟩
      · rw [Sent, houtbox]
        exact List.mem_cons_self
      · cases t with
        | grant =>
          rw [Sent, houtbox]
          exact List.mem_cons_of_mem _ (h.sent _ ht)
        | _ => trivial
  refine ⟨hrequests, ?_, ?_, ?_, ?_, ?_, ?_⟩
  · rw [htimer, hmachine]
    exact h.timer
  · simp [hpath]
  · rw [hnumbers, hnumber]
    intro n hn
    rcases List.mem_cons.mp hn with rfl | hn
    · exact Nat.le_refl _
    · exact Nat.le_succ_of_le (h.numbered n hn)
  · rw [hnumbers]
    refine List.nodup_cons.mpr ⟨fun hmem => ?_, h.apart⟩
    have hle := h.numbered _ hmem
    omega
  · intro generation' grantGeneration jobId' token' previous' ht hs
    obtain ⟨rfl, -⟩ := hlast _ _ _ _ _ ht hs
    rw [hmachine, hdownload]
    exact ⟨hphase, hjob, harming, hpath⟩
  · rintro g (⟨hheld, -⟩ | ⟨generation', grantGeneration, jobId', token', ht, hs⟩)
    · rw [hpath] at hheld
      cases hheld
    · obtain ⟨-, heq⟩ := hlast _ _ _ _ _ ht hs
      obtain ⟨commit, hcommit, n, j, tok, prev, hactor, hmem, hid⟩ :=
        h.issued g (.inl (hprevious g heq.symm))
      refine ⟨commit, hcommit, n, j, tok, prev, ?_, ?_, ?_⟩
      · rw [hmachine]
        exact hactor
      · rw [hmachine, houtbox]
        exact List.mem_cons_of_mem _ hmem
      · rw [hdownload]
        exact hid

theorem GrantInv.armNativeDownload (h : GrantInv log w) (hgen : generation ≤ w.machine.generation) :
    GrantInv log (w.armNativeDownload generation) := by
  unfold Flow.armNativeDownload
  split
  · exact h
  · rename_i hready
    split
    · rename_i token job htoken hjob
      split
      · exact h
      · split
        · refine GrantInv.scheduleGrantRefresh (h.granting ?_) hgen
          exact .of_action rfl rfl rfl (.inl ⟨rfl, rfl⟩) (.inr rfl) rfl
        · have hphase : w.machine.phase = .ready := by
            simp only [ne_eq, Bool.or_eq_true, decide_eq_true_eq, not_or, not_not] at hready
            exact hready.1
          refine h.request hphase (by rw [hjob]; rfl) ?_ rfl ⟨rfl, rfl⟩ rfl ⟨rfl, rfl, rfl⟩ rfl
          intro g hg
          split at hg
          · obtain ⟨path, hpath, hg⟩ := Option.bind_eq_some_iff.mp hg
            obtain ⟨expires, hexpires, rfl⟩ := Option.map_eq_some_iff.mp hg
            exact ⟨hpath, hexpires⟩
          · cases hg
    · exact h

/-- The last request is answered: what is kept then was issued. -/
theorem GrantInv.store (h : GrantInv log w)
    (hnone : ∀ generation grantGeneration jobId token previous,
      .grant generation grantGeneration jobId token previous ∈ w.tasks →
        ¬ w.Storable generation grantGeneration)
    (hphase : w.machine.phase = .ready) (haction : w'.toAction = w.toAction)
    (hnumber : w'.grantGeneration = w.grantGeneration) (houtbox : w'.outbox = w.outbox)
    (htimer : w'.grantRefreshTimer = w.grantRefreshTimer)
    (hheld : ∀ g : BrowserGrant, w'.downloadPath = some g.downloadPath →
      w'.grantExpiresAt = some g.expiresAt → Issued log w g) : GrantInv log w' := by
  have htasks : w'.tasks = w.tasks := congrArg Action.tasks haction
  have hnone' : ∀ generation grantGeneration jobId token previous,
      .grant generation grantGeneration jobId token previous ∈ w'.tasks →
        ¬ w'.Storable generation grantGeneration := by
    intro generation grantGeneration jobId token previous ht hs
    rw [htasks] at ht
    refine hnone _ _ _ _ _ ht ⟨?_, ?_⟩
    · exact hs.1.trans (congrArg (·.machine.generation) haction)
    · exact hs.2.trans hnumber
  have hrequests : w'.Numbered := by
    apply h.toNumbered.of_sent
    · rw [houtbox]
    · rw [htasks]
      exact fun _ ht _ => ht
    · exact Nat.le_of_eq hnumber.symm
  refine ⟨hrequests, ?_, ?_, ?_, ?_, ?_, ?_⟩
  · rw [htimer, congrArg Action.machine haction]
    exact h.timer
  · intro _
    rw [congrArg Action.machine haction]
    exact hphase
  · rw [htasks, hnumber]
    exact h.numbered
  · rw [htasks]
    exact h.apart
  · exact fun _ _ _ _ _ ht hs => absurd hs (hnone' _ _ _ _ _ ht)
  · rintro g (⟨hpath, hexpires⟩ | ⟨_, _, _, _, ht, hs⟩)
    · obtain ⟨commit, hcommit, n, j, tok, prev, hactor, hmem, hid⟩ := hheld g hpath hexpires
      refine ⟨commit, hcommit, n, j, tok, prev, ?_, ?_, ?_⟩
      · rw [congrArg Action.machine haction]
        exact hactor
      · rw [congrArg Action.machine haction, houtbox]
        exact hmem
      · rw [congrArg Action.downloadJob haction]
        exact hid
    · exact absurd hs (hnone' _ _ _ _ _ ht)

/-- The code after the last request, where what it stores was issued. -/
theorem GrantInv.stored {previous : Option BrowserGrant} {outcome : Except Thrown BrowserGrant}
    (h : GrantInv log w) (hs : w.Storable generation grantGeneration)
    (hnone : ∀ generation grantGeneration jobId token previous,
      .grant generation grantGeneration jobId token previous ∈ w.tasks →
        ¬ w.Storable generation grantGeneration)
    (hphase : w.machine.phase = .ready) (hpath : w.downloadPath = none)
    (hprevious : ∀ g, previous = some g → Issued log w g)
    (hanswer : ∀ g, outcome = .ok g → Issued log w g) :
    GrantInv log (w.grantAnswered generation grantGeneration previous outcome) := by
  have hstore : ∀ w' : Flow, w'.toAction = w.toAction → w'.grantGeneration = w.grantGeneration →
      w'.outbox = w.outbox → w'.grantRefreshTimer = w.grantRefreshTimer →
      (∀ g : BrowserGrant, w'.downloadPath = some g.downloadPath →
        w'.grantExpiresAt = some g.expiresAt → Issued log w g) → GrantInv log w' :=
    fun _ => h.store hnone hphase
  have hle : generation ≤ w.machine.generation := Nat.le_of_eq hs.1
  have hcurrent : ¬ (generation ≠ w.machine.generation ∨ grantGeneration ≠ w.grantGeneration) := by
    rintro (hne | hne)
    · exact hne hs.1
    · exact hne hs.2
  have hkept : ∀ g : BrowserGrant, Issued log w g → ∀ g' : BrowserGrant,
      some g.downloadPath = some g'.downloadPath → some g.expiresAt = some g'.expiresAt →
        Issued log w g' := by
    rintro ⟨path, expires⟩ hissued ⟨path', expires'⟩ ⟨⟩ ⟨⟩
    exact hissued
  unfold Flow.grantAnswered
  rw [if_neg hcurrent]
  cases outcome with
  | ok g =>
    dsimp only
    rw [if_neg (not_not.mpr hphase)]
    exact GrantInv.scheduleGrantRefresh (hstore _ rfl rfl rfl rfl (hkept g (hanswer g rfl))) hle
  | error err =>
    cases previous with
    | some g =>
      have hback : ∀ retry : Bool, GrantInv log _ := fun retry => GrantInv.scheduleGrantRefresh
        (w := { w with
          grantArming := false
          downloadPath := some g.downloadPath
          grantExpiresAt := some g.expiresAt
          grantNeedsRetry := retry })
        (hstore _ rfl rfl rfl rfl (hkept g (hprevious g rfl))) hle
      dsimp only
      split
      · exact hback _
      · exact (hback _).granting (.of_same rfl rfl)
    | none =>
      dsimp only
      split
      · refine hstore _ rfl rfl rfl rfl fun g hpath' _ => ?_
        rw [show w.downloadPath = some g.downloadPath from hpath'] at hpath
        cases hpath
      · exact hstore _ rfl rfl rfl rfl (by rintro g ⟨⟩)

theorem GrantInv.grantAnswered {jobId : Uuid} {token : AccessToken} {previous : Option BrowserGrant}
    {outcome : Except Thrown BrowserGrant} (h : GrantInv log w)
    (ht : .grant generation grantGeneration jobId token previous ∈ w.tasks)
    (hanswer : ∀ g, outcome = .ok g → ∃ commit ∈ log, commit.actor =
      .answer (.grant generation grantGeneration jobId token previous) (.grant g)) :
    GrantInv log ((w.finish (.grant generation grantGeneration jobId token previous)).grantAnswered
      generation grantGeneration previous outcome) := by
  have hfinish := h.granting (.finish (t := .grant generation grantGeneration jobId token previous))
  by_cases hs : w.Storable generation grantGeneration
  · obtain ⟨hphase, hjob, -, hpath⟩ := h.storable _ _ _ _ _ ht hs
    apply hfinish.stored hs _ hphase hpath
    · rintro g rfl
      exact h.issued g (.inr ⟨_, _, _, _, ht, hs⟩)
    · intro g hg
      obtain ⟨commit, hcommit, hactor⟩ := hanswer g hg
      have hmem : .grant generation grantGeneration jobId ∈ w.outbox := h.sent _ ht
      refine ⟨commit, hcommit, grantGeneration, jobId, token, previous, ?_, ?_, hjob⟩
      · rw [hs.1] at hactor
        exact hactor
      · rw [hs.1] at hmem
        exact hmem
    · -- The numbers are distinct, so no other answer may be stored.
      intro generation' n jobId' token' previous' ht' hs'
      have hperm : (grantNumbers w.tasks).Perm
          (grantGeneration :: grantNumbers
            (w.tasks.erase (.grant generation grantGeneration jobId token previous))) :=
        (List.perm_cons_erase ht).filterMap grantNumber
      have hnodup := hperm.nodup_iff.mp h.apart
      have heq : n = grantGeneration := hs'.2.trans hs.2.symm
      have hmem := mem_grantNumbers ht'
      rw [heq] at hmem
      exact (List.nodup_cons.mp hnodup).1 hmem
  · have hstale : generation ≠ w.machine.generation ∨ grantGeneration ≠ w.grantGeneration :=
      not_and_or.mp hs
    have hsame : (w.finish (.grant generation grantGeneration jobId token previous)).grantAnswered
        generation grantGeneration previous outcome =
          w.finish (.grant generation grantGeneration jobId token previous) := if_pos hstale
    rw [hsame]
    exact hfinish

theorem GrantInv.upgradeAnswered {outcome : Except Thrown DownloadJob} (h : GrantInv log w)
    (hjob : ∀ job, outcome = .ok job → generation = w.machine.generation →
      ∀ d, w.downloadJob = some d → d.id = job.id) :
    GrantInv log (w.upgradeAnswered generation outcome) := by
  have harm : ∀ w' : Flow, generation = w.machine.generation → w'.machine = w.machine →
      Granting w w' →
        GrantInv log (Flow.armNativeDownload generation { w' with upgradePending := false }) := by
    intro w' hgen hmachine hgranting
    have hfree : GrantInv log { w' with upgradePending := false } :=
      (h.granting hgranting).granting (.of_same rfl rfl)
    apply hfree.armNativeDownload
    exact Nat.le_of_eq (by rw [hmachine, hgen])
  unfold Flow.upgradeAnswered
  split
  · exact h
  rename_i hcurrent
  simp only [ne_eq, not_or, not_not] at hcurrent
  obtain ⟨hgen, hphase⟩ := hcurrent
  cases outcome with
  | ok job =>
    have hkept : ∀ id, w.downloadJob.map (·.id) = some id → some job.id = some id := by
      intro id hid
      obtain ⟨d, hd, rfl⟩ := Option.map_eq_some_iff.mp hid
      rw [hjob job rfl hgen d hd]
    have hset : Granting w
        { w with downloadJob := some job, promoted := true, upgradePending := false } :=
      .of_eq rfl rfl rfl fun h => ⟨h, hkept⟩
    refine harm (Flow.refreshQuota true (Flow.persist
      { w with downloadJob := some job, promoted := true, upgradePending := false })) hgen ?_
      (.trans (.trans hset .persist) .refreshQuota)
    rw [refreshQuota_toAction, persist_toAction]
  | error err =>
    have hfree : Granting w { w with upgradePending := false } :=
      .of_same rfl rfl
    dsimp only
    split
    · refine harm (Flow.refreshPremium { w with upgradePending := false }) hgen ?_
        (.trans hfree .refreshPremium)
      rw [refreshPremium_toAction]
    · exact harm _ hgen rfl hfree

theorem GrantInv.downloadPolled {job : DownloadJob} (h : GrantInv log w)
    (hgen : generation = w.machine.generation) (hphase : w.machine.phase = .downloading) :
    GrantInv log (w.downloadPolled caller generation job) := by
  have hready : w.machine.phase ≠ .ready := by simp [hphase]
  have hset : Granting w { w with downloadJob := some job } := .of_not_ready hready rfl rfl rfl
  have hquota : Granting w (Flow.refreshQuota true { w with downloadJob := some job }) :=
    .trans hset .refreshQuota
  have hfail : ∀ (phase : FlowPhase) (err : FlowError), phase.terminal →
      phase ∈ w.machine.phase.allowed →
      GrantInv log (Flow.fail phase (.flow err) generation
        (Flow.refreshQuota true { w with downloadJob := some job })) := by
    intro phase err hterminal hlegal
    apply h.granting
    refine .trans hquota (.fail ?_ hterminal)
    rw [refreshQuota_toAction]
    exact hlegal
  have hcancelled : w.machine.transition .cancelled =
      some ⟨.cancelled, w.machine.generation, w.machine.busy⟩ := by
    simp [FlowMachine.transition, hphase, FlowPhase.allowed]
  have htoReady : w.machine.transition .ready =
      some ⟨.ready, w.machine.generation, w.machine.busy⟩ := by
    simp [FlowMachine.transition, hphase, FlowPhase.allowed]
  obtain ⟨quotaRefresh, heq⟩ := Flow.refreshQuota_eq { w with downloadJob := some job } true
  subst hgen
  simp only [Flow.downloadPolled, ne_eq, not_true_eq_false, if_false]
  split
  · exact hfail _ _ rfl (by simp [hphase, FlowPhase.allowed])
  · simp only [heq, Flow.clearGrantState, hcancelled]
    apply h.granting
    apply Granting.cleared
    · exact fun _ ht _ => ht
    · exact .refl _
    · rfl
    · exact Nat.le_refl _
    · exact Nat.lt_succ_self _
    · rfl
    · rfl
  · exact hfail _ _ rfl (by simp [hphase, FlowPhase.allowed])
  · simp only [htoReady]
    have hmove : GrantInv log (Flow.refreshQuota true (Flow.persist
        { w with
          downloadJob := some job
          nativeDownloadHandoff := false
          machine := (⟨.ready, w.machine.generation, w.machine.busy⟩ : FlowMachine).endAction })) := by
      apply h.granting
      refine .after .refreshQuota (.after .persist ?_)
      exact .kept (fun _ ht _ => ht) (.refl _) rfl rfl rfl (.inl ⟨rfl, rfl⟩) (.inr rfl) rfl
        fun h => absurd h hready
    split
    · exact hmove.granting .upgradeToPremium
    · apply hmove.armNativeDownload
      rw [refreshQuota_toAction, persist_toAction]
      exact Nat.le_refl _

theorem GrantInv.downloadAnswered {outcome : Except Thrown DownloadJob} (h : GrantInv log w)
    (hgen : poll.generation = w.machine.generation) (hphase : w.machine.phase = .downloading) :
    GrantInv log (w.downloadAnswered caller poll outcome) := by
  have hready : w.machine.phase ≠ .ready := by simp [hphase]
  cases outcome with
  | error err =>
    simp only [Flow.downloadAnswered]
    split
    · exact h.granting (.spawn rfl)
    · exact h.granting (.catchDownload hphase)
  | ok job =>
    have htick : GrantInv log (w.downloadTick poll.generation job) :=
      h.granting (.downloadTick hready)
    have hmachine : (w.downloadTick poll.generation job).machine = w.machine := by
      rcases downloadTick_toAction hgen with haction | haction
      · rw [haction]
      · rw [haction]
    simp only [Flow.downloadAnswered]
    split
    · apply htick.downloadPolled
      · rw [hmachine]
        exact hgen
      · rw [hmachine]
        exact hphase
    · exact htick.granting (.spawn rfl)

end Flow

end FetchNow.MediaFlow
