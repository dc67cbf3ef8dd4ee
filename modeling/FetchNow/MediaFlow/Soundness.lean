import FetchNow.MediaFlow.Drivers

/-!
# What every reachable flow keeps

What each method does to the action, and from it that every step keeps the action sound.
-/
namespace FetchNow.MediaFlow

namespace Flow

variable {w w' : Flow} {generation grantGeneration : Nat} {err : Thrown} {phase : FlowPhase}
  {t : Await} {caller : DownloadCaller} {poll : Poll} {signal : Nat}

/-! ## Methods that leave the action alone -/

theorem persist_eq (w : Flow) : ∃ session, w.persist = { w with session } := by
  unfold persist
  split
  · exact ⟨_, rfl⟩
  · split
    · split
      · exact ⟨w.session, rfl⟩
      · exact ⟨_, rfl⟩
    · exact ⟨_, rfl⟩

@[simp] theorem persist_toAction : w.persist.toAction = w.toAction := by
  obtain ⟨session, h⟩ := w.persist_eq
  rw [h]

@[simp] theorem clearGrantState_toAction : w.clearGrantState.toAction = w.toAction := rfl

@[simp] theorem clearUpgradeState_toAction : w.clearUpgradeState.toAction = w.toAction := rfl

theorem refreshQuota_eq (w : Flow) (silent : Bool) :
    ∃ quotaRefresh, w.refreshQuota silent = { w with quotaRefresh } := by
  unfold refreshQuota
  split
  · exact ⟨w.quotaRefresh, rfl⟩
  · exact ⟨_, rfl⟩

@[simp] theorem refreshQuota_toAction {silent : Bool} :
    (w.refreshQuota silent).toAction = w.toAction := by
  obtain ⟨quotaRefresh, h⟩ := w.refreshQuota_eq silent
  rw [h]

@[simp] theorem refreshPremium_toAction : w.refreshPremium.toAction = w.toAction := by
  unfold refreshPremium
  split <;> rfl

@[simp] theorem invalidateExpiredGrantHref_toAction :
    w.invalidateExpiredGrantHref.toAction = w.toAction := by
  unfold invalidateExpiredGrantHref
  split <;> rfl

@[simp] theorem scheduleGrantRefresh_toAction :
    (w.scheduleGrantRefresh generation).toAction = w.toAction := by
  unfold scheduleGrantRefresh
  dsimp only
  split
  · rfl
  · split
    · rfl
    · split
      · rw [invalidateExpiredGrantHref_toAction]
      · rfl

theorem upgradeToPremium_toAction {userInitiated : Bool} :
    (w.upgradeToPremium userInitiated).toAction = w.toAction ∨
      ∃ d token, w.machine.phase = .ready ∧ w.downloadJob = some d ∧
        (w.upgradeToPremium userInitiated).toAction =
          { w.toAction with tasks := .upgrade w.machine.generation d.id token :: w.tasks } := by
  unfold upgradeToPremium
  split
  · exact .inl rfl
  · rename_i hready
    split
    · rename_i token d htoken hd
      split
      · exact .inl rfl
      · split
        · exact .inl rfl
        · split
          · exact .inl rfl
          · refine .inr ⟨d, token, ?_, hd, rfl⟩
            simp only [ne_eq, Bool.or_eq_true, decide_eq_true_eq, not_or, not_not] at hready
            exact hready.1.1
    · exact .inl rfl

theorem armNativeDownload_toAction :
    (w.armNativeDownload generation).toAction = w.toAction ∨
      ∃ d grantGeneration token previous, w.machine.phase = .ready ∧ w.downloadJob = some d ∧
        (w.armNativeDownload generation).toAction =
          { w.toAction with
            tasks := .grant generation grantGeneration d.id token previous :: w.tasks } := by
  unfold armNativeDownload
  split
  · exact .inl rfl
  · rename_i hready
    split
    · rename_i token d htoken hd
      split
      · exact .inl rfl
      · split
        · exact .inl (by rw [scheduleGrantRefresh_toAction])
        · refine .inr ⟨d, _, token, _, ?_, hd, rfl⟩
          simp only [ne_eq, Bool.or_eq_true, decide_eq_true_eq, not_or, not_not] at hready
          exact hready.1
    · exact .inl rfl

theorem armNativeDownload_machine : (w.armNativeDownload generation).machine = w.machine := by
  rcases @armNativeDownload_toAction w generation with haction | ⟨_, _, _, _, -, -, haction⟩
  · exact congrArg Action.machine haction
  · rw [haction]

/-! ## Failures -/

theorem fail_abort : w.fail phase .abort generation = w := by
  unfold fail
  split <;> simp

theorem fail_stale (hgen : generation ≠ w.machine.generation) :
    w.fail phase err generation = w := by
  simp [fail, hgen]

theorem fail_ended (hgen : generation = w.machine.generation) (herr : err ≠ .abort)
    (hlegal : phase ∈ w.machine.phase.allowed) (hterminal : phase.terminal) :
    w.toAction.Ended (w.fail phase err generation).toAction := by
  have hmachine : (w.machine.transition phase).getD w.machine.resetToIdle =
      ⟨phase, w.machine.generation, w.machine.busy⟩ := by
    have hsubmitting : phase ≠ .submitting := by rintro rfl; simp [FlowPhase.terminal] at hterminal
    have hidle : phase ≠ .idle := by rintro rfl; simp [FlowPhase.terminal] at hterminal
    simp [FlowMachine.transition, hlegal, hsubmitting, hidle]
  refine ⟨phase, hterminal, ?_⟩
  simp [fail, hgen, herr, hmachine, hterminal, endAction, clearGrantState, FlowMachine.endAction]

theorem catchSubmit_ended (hgen : generation = w.machine.generation) (herr : err ≠ .abort)
    (hphase : w.machine.phase = .submitting ∨ w.machine.phase = .inspecting) :
    w.toAction.Ended (w.catchSubmit err generation).toAction := by
  unfold catchSubmit
  refine fail_ended hgen herr ?_ ?_
  · rcases hphase with h | h <;> rw [h] <;> split_ifs <;> simp [FlowPhase.allowed]
  · split_ifs <;> rfl

theorem catchResume_ended (hgen : generation = w.machine.generation) (herr : err ≠ .abort)
    (hphase : w.machine.phase = .submitting ∨ w.machine.phase = .inspecting) :
    w.toAction.Ended (w.catchResume err generation).toAction := by
  unfold catchResume
  refine fail_ended hgen herr ?_ rfl
  rcases hphase with h | h <;> simp [h, FlowPhase.allowed]

theorem catchInspection_ended {caller : InspectionCaller}
    (hgen : generation = w.machine.generation) (herr : err ≠ .abort)
    (hphase : w.machine.phase = .submitting ∨ w.machine.phase = .inspecting) :
    w.toAction.Ended (catchInspection caller err generation w).toAction := by
  cases caller with
  | submit => exact catchSubmit_ended hgen herr hphase
  | resume => exact catchResume_ended hgen herr hphase

theorem catchInspection_abort {caller : InspectionCaller} :
    (catchInspection caller .abort generation w).toAction = w.toAction := by
  cases caller <;> simp [catchInspection, catchSubmit, catchResume, fail_abort]

theorem catchResumed_toAction (hgen : generation = w.machine.generation) :
    (w.catchResumed err generation).toAction =
      { w.toAction with downloadJob := none, machine := w.machine.endAction } := by
  simp only [catchResumed, hgen, ne_eq, not_true_eq_false, if_false]
  split <;> simp [endAction]

theorem catchEnqueue_cases (hgen : generation = w.machine.generation) (herr : err ≠ .abort)
    (hphase : w.machine.phase = .enqueueingDownload ∨ w.machine.phase = .downloading) :
    w.toAction.Ended (w.catchEnqueue err generation).toAction ∨
      (∃ retryable, err = .flow ⟨"MEDIA_CAPABILITY_REQUIRES_PREMIUM", retryable⟩) ∧
        (w.catchEnqueue err generation).toAction =
          { w.toAction with tasks := .enqueueLapsed generation false :: w.tasks } := by
  have hcancelled : w.machine.phase ≠ .cancelled := by rcases hphase with h | h <;> simp [h]
  have hended : w.toAction.Ended ((w.fail .downloadFailed err generation).refreshQuota true).toAction := by
    rw [refreshQuota_toAction]
    refine fail_ended hgen herr ?_ rfl
    rcases hphase with h | h <;> simp [h, FlowPhase.allowed]
  simp only [catchEnqueue, ← hgen, ne_eq, not_true_eq_false, if_false, hcancelled, herr, false_and]
  cases err with
  | flow e =>
    by_cases hcode : e.code = "MEDIA_CAPABILITY_REQUIRES_PREMIUM"
    · right
      refine ⟨⟨e.retryable, by rw [← hcode]⟩, ?_⟩
      simp [hcode, spawn]
    · left
      simpa [hcode] using hended
  | abort => exact absurd rfl herr
  | other => exact .inl hended

theorem catchEnqueue_abort : (w.catchEnqueue .abort generation).toAction = w.toAction := by
  unfold catchEnqueue
  split_ifs <;> simp [fail_abort]

/-! ## Polls -/

theorem head_ne_abort {deadlineMs expiresAt now : Int}
    (h : poll.head deadlineMs expiresAt now false = some err) : err ≠ .abort := by
  unfold Poll.head at h
  simp only [Bool.false_eq_true, if_false] at h
  split_ifs at h <;> cases h <;> simp

theorem readFailed_eq_error {err' : Thrown} (h : poll.readFailed err = .error err') : err' = err := by
  cases err with
  | flow e =>
    simp only [Poll.readFailed] at h
    split at h
    · cases h
    · exact (Except.error.inj h).symm
  | abort => exact (Except.error.inj h).symm
  | other => exact (Except.error.inj h).symm

theorem readFailed_eq_ok {poll' : Poll} (h : poll.readFailed err = .ok poll') :
    poll' = { poll with transient := poll.transient + 1, waiting := true } := by
  cases err with
  | flow e =>
    simp only [Poll.readFailed] at h
    split at h
    · exact (Except.ok.inj h).symm
    · cases h
  | abort => cases h
  | other => cases h

theorem readInspection_cases {caller : InspectionCaller}
    (hgen : poll.generation = w.machine.generation) (hphase : w.machine.phase = .inspecting)
    (hsignal : poll.signal ∉ w.aborted) :
    w.toAction.Ended (w.readInspection caller poll).toAction ∨
      (w.readInspection caller poll).toAction =
        { w.toAction with
          tasks := .inspectionPoll caller { poll with waiting := false } :: w.tasks } := by
  unfold readInspection
  simp only [hsignal, decide_false]
  split
  · rename_i err herr
    exact .inl (catchInspection_ended hgen (head_ne_abort herr) (.inr hphase))
  · exact .inr rfl

theorem pollInspection_cases {caller : InspectionCaller}
    (hgen : generation = w.machine.generation) (hphase : w.machine.phase = .inspecting)
    (habort : w.abort = some signal) (hsignal : signal ∉ w.aborted) :
    w.toAction.Ended (w.pollInspection caller generation).toAction ∨
      ∃ poll : Poll, poll.generation = generation ∧ poll.signal = signal ∧
        (w.pollInspection caller generation).toAction =
          { w.toAction with tasks := .inspectionPoll caller poll :: w.tasks } := by
  unfold pollInspection
  split
  · simp only [habort]
    rename_i token job _ _
    refine (readInspection_cases hgen hphase hsignal).imp_right fun h => ?_
    exact ⟨⟨generation, token, job.id, signal, w.now, 0, false⟩, rfl, rfl, by simpa [habort] using h⟩
  · exact .inl (catchInspection_ended hgen (by simp) (.inr hphase))

/-- A failed or finished poll of the inspection ends the action, or leads on to `inspected`. -/
theorem inspectionPolled_cases {caller : InspectionCaller} {job : InspectionJob}
    (hgen : generation = w.machine.generation) (hphase : w.machine.phase = .inspecting)
    (habort : w.abort = some signal) :
    w.toAction.Ended (w.inspectionPolled caller generation job).toAction ∨
      (w.inspectionPolled caller generation job).toAction =
        { w.toAction with machine := ⟨.inspected, w.machine.generation, false⟩ } ∨
      ∃ downloadId token, (w.inspectionPolled caller generation job).toAction =
        { w.toAction with
          machine := ⟨.inspected, w.machine.generation, w.machine.busy⟩
          tasks := .resumeDownload generation downloadId token signal :: w.tasks } := by
  have hlegal : ∀ phase : FlowPhase, phase = .expired ∨ phase = .inspectionFailed →
      phase ∈ w.machine.phase.allowed := by
    rintro phase (rfl | rfl) <;> simp [hphase, FlowPhase.allowed]
  have hinspected : w.machine.transition .inspected =
      some ⟨.inspected, w.machine.generation, w.machine.busy⟩ := by
    simp [FlowMachine.transition, hphase, FlowPhase.allowed]
  simp only [inspectionPolled, ← hgen, ne_eq, not_true_eq_false, if_false]
  split
  · exact .inl (fail_ended hgen (by simp) (hlegal _ (.inl rfl)) rfl)
  · exact .inl (fail_ended hgen (by simp) (hlegal _ (.inr rfl)) rfl)
  · simp only [hinspected, habort]
    right
    split
    · exact .inr ⟨_, _, by rw [hgen]; rfl⟩
    · exact .inl (by simp [endAction, FlowMachine.endAction, hgen])

theorem inspectionTick_toAction {job : InspectionJob} :
    (w.inspectionTick generation job).toAction = w.toAction := by
  unfold inspectionTick
  split
  · rfl
  · rw [persist_toAction]

theorem readDownload_cases (hsignal : poll.signal ∉ w.aborted) :
    (∃ err, err ≠ .abort ∧
        w.readDownload caller poll = catchDownload caller err poll.generation w) ∨
      w.readDownload caller poll = w.spawn (.downloadPoll caller { poll with waiting := false }) := by
  unfold readDownload
  simp only [hsignal, decide_false]
  split
  · rename_i err herr
    exact .inl ⟨err, head_ne_abort herr, rfl⟩
  · exact .inr rfl

theorem pollDownload_cases (habort : w.abort = some signal) (hsignal : signal ∉ w.aborted) :
    (∃ err, err ≠ .abort ∧
        w.pollDownload caller generation = catchDownload caller err generation w) ∨
      ∃ (poll : Poll) (job : DownloadJob), w.downloadJob = some job ∧ poll.generation = generation ∧
        poll.jobId = job.id ∧ poll.signal = signal ∧
        w.pollDownload caller generation = w.spawn (.downloadPoll caller poll) := by
  unfold pollDownload
  split
  · simp only [habort]
    rename_i token job _ hjob
    refine (readDownload_cases hsignal).imp_right fun h => ?_
    exact ⟨⟨generation, token, job.id, signal, w.now, 0, false⟩, job, hjob, rfl, rfl, rfl, h⟩
  · exact .inl ⟨_, by simp, rfl⟩

end Flow

end FetchNow.MediaFlow
