import FetchNow.MediaFlow.Soundness

/-!
# What the code after an await does to the action

The live driver that was answered is gone: its action ends, goes on with another driver, or waits
for the user. What was stale changes nothing.
-/
namespace FetchNow.MediaFlow

namespace Flow

open MediaFlow.Action

variable {w : Flow} {generation signal : Nat} {err : Thrown} {phase : FlowPhase} {t : Await}
  {caller : DownloadCaller} {poll : Poll} {stranded : Prop}

/-! ## Inspection -/

theorem catchInspection_inv {caller : InspectionCaller} (hs : w.Sound) (hidle : w.Undriven)
    (hgen : generation = w.machine.generation) (herr : err ≠ .abort)
    (hphase : w.machine.phase = .submitting ∨ w.machine.phase = .inspecting) :
    Inv stranded (catchInspection caller err generation w).toAction :=
  (catchInspection_ended hgen herr hphase).inv hs hidle

theorem readInspection_inv {caller : InspectionCaller} (hs : w.Sound) (hidle : w.Undriven)
    (hgen : poll.generation = w.machine.generation) (hphase : w.machine.phase = .inspecting)
    (habort : w.abort = some poll.signal) (hsignal : poll.signal ∉ w.aborted) :
    Inv stranded (w.readInspection caller poll).toAction := by
  rcases readInspection_cases hgen hphase hsignal with hended | heq
  · exact hended.inv hs hidle
  · rw [heq]
    apply Inv.spawn (t := .inspectionPoll caller { poll with waiting := false }) hs hidle rfl rfl hgen
    · exact .inl (by rw [hphase]; rfl)
    · exact hphase
    · rintro s ⟨⟩
      exact habort
    · rintro j ⟨⟩

theorem pollInspection_inv {caller : InspectionCaller} (hs : w.Sound) (hidle : w.Undriven)
    (hgen : generation = w.machine.generation) (hphase : w.machine.phase = .inspecting)
    (habort : w.abort = some signal) (hsignal : signal ∉ w.aborted) :
    Inv stranded (w.pollInspection caller generation).toAction := by
  rcases pollInspection_cases hgen hphase habort hsignal with
    hended | ⟨poll, hpoll, hown, heq⟩
  · exact hended.inv hs hidle
  · rw [heq]
    apply Inv.spawn (t := .inspectionPoll caller poll) hs hidle rfl rfl (hpoll.trans hgen)
    · exact .inl (by rw [hphase]; rfl)
    · exact hphase
    · rintro s ⟨⟩
      rw [hown]
      exact habort
    · rintro j ⟨⟩

/-- From `submitting`, a job that was read or created is polled. -/
theorem inspecting_inv {w' : Flow} {caller : InspectionCaller} (hs : w.Sound) (hidle : w.Undriven)
    (hgen : generation = w.machine.generation) (hphase : w.machine.phase = .submitting)
    (habort : w.abort = some signal) (hsignal : signal ∉ w.aborted)
    (heq : w'.toAction =
      { w.toAction with machine := ⟨.inspecting, w.machine.generation, w.machine.busy⟩ }) :
    Inv stranded (w'.pollInspection caller generation).toAction := by
  have hmove : Sound w'.toAction := by
    rw [heq]
    exact hs.move hidle (by simp) fun _ => hs.early (by rw [hphase]; rfl)
  have hmachine : w'.machine = ⟨.inspecting, w.machine.generation, w.machine.busy⟩ :=
    congrArg Action.machine heq
  have hidle' : Undriven w'.toAction := by
    rw [heq]
    exact hidle
  apply pollInspection_inv hmove hidle'
  · rw [hmachine]
    exact hgen
  · rw [hmachine]
  · rw [congrArg Action.abort heq]
    exact habort
  · rw [congrArg Action.aborted heq]
    exact hsignal

theorem transition_inspecting (hphase : w.machine.phase = .submitting) :
    w.machine.transition .inspecting =
      some ⟨.inspecting, w.machine.generation, w.machine.busy⟩ := by
  simp [FlowMachine.transition, hphase, FlowPhase.allowed]

theorem resumeAnswered_inv {outcome : Except Thrown InspectionJob} (hs : w.Sound)
    (hidle : w.Undriven) (hgen : generation = w.machine.generation)
    (hphase : w.machine.phase = .submitting) (habort : w.abort = some signal)
    (hsignal : signal ∉ w.aborted) (hout : outcome ≠ .error .abort) :
    Inv stranded (w.resumeAnswered generation outcome).toAction := by
  cases outcome with
  | error err =>
    have herr : err ≠ .abort := by
      rintro rfl
      exact hout rfl
    exact (catchResume_ended hgen herr (.inl hphase)).inv hs hidle
  | ok job =>
    subst hgen
    simp only [resumeAnswered, transition_inspecting hphase, ne_eq, not_true_eq_false, if_false]
    exact inspecting_inv hs hidle rfl hphase habort hsignal rfl

theorem submitAnswered_inv {outcome : Except Thrown InspectionJob} (hs : w.Sound)
    (hidle : w.Undriven) (hgen : generation = w.machine.generation)
    (hphase : w.machine.phase = .submitting) (habort : w.abort = some signal)
    (hsignal : signal ∉ w.aborted) (hout : outcome ≠ .error .abort) :
    Inv stranded (w.submitAnswered generation outcome).toAction := by
  cases outcome with
  | error err =>
    have herr : err ≠ .abort := by
      rintro rfl
      exact hout rfl
    exact (catchSubmit_ended hgen herr (.inl hphase)).inv hs hidle
  | ok job =>
    obtain ⟨session, hpersist⟩ := Flow.persist_eq { w with mediaJob := some job }
    subst hgen
    simp only [submitAnswered, hpersist, transition_inspecting hphase, ne_eq, not_true_eq_false,
      if_false]
    exact inspecting_inv hs hidle rfl hphase habort hsignal rfl

theorem inspectionAnswered_inv {caller : InspectionCaller} {outcome : Except Thrown InspectionJob}
    (hs : w.Sound) (hidle : w.Undriven) (hgen : poll.generation = w.machine.generation)
    (hphase : w.machine.phase = .inspecting) (habort : w.abort = some poll.signal)
    (hout : outcome ≠ .error .abort) :
    Inv stranded (w.inspectionAnswered caller poll outcome).toAction := by
  have hgo : ∀ (poll' : Poll) (w' : Flow), w'.toAction = w.toAction →
      poll'.generation = poll.generation → poll'.signal = poll.signal →
      Inv stranded (w'.spawn (.inspectionPoll caller poll')).toAction := by
    intro poll' w' haction hgen' hsignal'
    have heq : (w'.spawn (.inspectionPoll caller poll')).toAction =
        { w.toAction with tasks := .inspectionPoll caller poll' :: w.tasks } := by
      rw [← haction]
      rfl
    rw [heq]
    apply Inv.spawn (t := .inspectionPoll caller poll') hs hidle rfl rfl (hgen'.trans hgen)
    · exact .inl (by rw [hphase]; rfl)
    · exact hphase
    · rintro s ⟨⟩
      rw [hsignal']
      exact habort
    · rintro j ⟨⟩
  cases outcome with
  | error err =>
    have herr : err ≠ .abort := by
      rintro rfl
      exact hout rfl
    simp only [inspectionAnswered]
    split
    · rename_i poll' hpoll'
      rw [readFailed_eq_ok hpoll']
      exact hgo _ w rfl rfl rfl
    · rename_i err' herr'
      rw [readFailed_eq_error herr']
      exact (catchInspection_ended hgen herr (.inr hphase)).inv hs hidle
  | ok job =>
    have haction : (w.inspectionTick poll.generation job).toAction = w.toAction :=
      inspectionTick_toAction
    simp only [inspectionAnswered]
    split
    · have hmachine := congrArg Action.machine haction
      rcases inspectionPolled_cases
          (hgen.trans (congrArg FlowMachine.generation hmachine).symm)
          ((congrArg FlowMachine.phase hmachine).trans hphase)
          ((congrArg Action.abort haction).trans habort) with
        hended | heq | ⟨downloadId, token, heq⟩
      · rw [haction] at hended
        exact hended.inv hs hidle
      · rw [heq, haction]
        have hmove : Sound
            { w.toAction with machine := ⟨.inspected, w.machine.generation, false⟩ } :=
          hs.move hidle (by simp) fun _ => hs.early (by rw [hphase]; rfl)
        have hdriven : Driven stranded
            { w.toAction with machine := ⟨.inspected, w.machine.generation, false⟩ } :=
          Driven.idle rfl rfl
        exact { hmove, hdriven with }
      · rw [heq, haction]
        have hmove : Sound
            { w.toAction with machine := ⟨.inspected, w.machine.generation, w.machine.busy⟩ } :=
          hs.move hidle (by simp) fun _ => hs.early (by rw [hphase]; rfl)
        apply Inv.spawn (t := .resumeDownload _ downloadId token _) hmove hidle rfl rfl hgen
          (.inr rfl)
        · rfl
        · rintro s ⟨⟩
          exact habort
        · rintro j ⟨⟩
    · exact hgo _ _ haction rfl rfl

/-! ## Grants and upgrades -/

theorem upgradeToPremium_inv {userInitiated : Bool} (h : w.Inv stranded) :
    Inv stranded (w.upgradeToPremium userInitiated).toAction := by
  rcases upgradeToPremium_toAction (w := w) with
    heq | ⟨d, token, -, hjob, heq⟩
  · rw [heq]
    exact h
  · rw [heq]
    apply h.spawnOther (t := .upgrade w.machine.generation d.id token) (Nat.le_refl _) (fun _ => rfl)
      rfl rfl
    rintro - j ⟨⟩
    exact ⟨d, hjob, rfl⟩

theorem armNativeDownload_inv (h : w.Inv stranded) (hgen : generation ≤ w.machine.generation) :
    Inv stranded (w.armNativeDownload generation).toAction := by
  rcases armNativeDownload_toAction (w := w) with
    heq | ⟨d, grantGeneration, token, previous, -, hjob, heq⟩
  · rw [heq]
    exact h
  · rw [heq]
    apply h.spawnOther (t := .grant generation grantGeneration d.id token previous) hgen
      (fun _ => rfl) rfl rfl
    rintro - j ⟨⟩
    exact ⟨d, hjob, rfl⟩

/-! ## Download -/

/-- The flow is downloading, and has no download job any more. -/
def GaveUp (w : Flow) : Prop := w.downloadJob = none ∧ w.machine.phase = .downloading

theorem catchResumed_inv (hs : w.Sound) (hgen : generation = w.machine.generation)
    (hphase : w.machine.phase = .inspected ∨ w.machine.phase = .downloading)
    (hstrand : w.machine.phase = .downloading → stranded) :
    Inv stranded (w.catchResumed err generation).toAction := by
  rw [catchResumed_toAction hgen]
  have hsound : Sound { w.toAction with downloadJob := none, machine := w.machine.endAction } :=
    hs.noJob.setBusy
  have hdriven : Driven stranded
      { w.toAction with downloadJob := none, machine := w.machine.endAction } := by
    rcases hphase with hphase | hphase
    · exact Driven.idle rfl (by simp [hphase, FlowPhase.working])
    · exact Driven.downloading hphase (hstrand hphase)
  exact { hsound, hdriven with }

theorem catchEnqueue_inv (hs : w.Sound) (hidle : w.Undriven)
    (hgen : generation = w.machine.generation)
    (hphase : w.machine.phase = .enqueueingDownload ∨ w.machine.phase = .downloading)
    (herr : err ≠ .abort) : Inv stranded (w.catchEnqueue err generation).toAction := by
  rcases catchEnqueue_cases hgen herr hphase with hended | ⟨-, heq⟩
  · exact hended.inv hs hidle
  · rw [heq]
    apply Inv.spawn (t := .enqueueLapsed generation false) hs hidle rfl rfl hgen
    · rcases hphase with hphase | hphase <;> exact .inl (by rw [hphase]; rfl)
    · exact hphase.imp_right .inl
    · rintro s ⟨⟩
    · rintro j ⟨⟩

theorem catchDownload_inv (hs : w.Sound) (hidle : w.Undriven)
    (hgen : generation = w.machine.generation) (hphase : w.machine.phase = .downloading)
    (herr : err ≠ .abort)
    (hstrand : caller = .resumed →
      (catchDownload caller err generation w).GaveUp → stranded) :
    Inv stranded (catchDownload caller err generation w).toAction := by
  cases caller with
  | enqueue => exact catchEnqueue_inv hs hidle hgen (.inr hphase) herr
  | resumed =>
    have heq := @catchResumed_toAction w generation err hgen
    refine catchResumed_inv hs hgen (.inr hphase) fun _ => hstrand rfl ⟨?_, ?_⟩
    · exact congrArg Action.downloadJob heq
    · exact (congrArg (·.machine.phase) heq).trans hphase

theorem downloadPoll_spawn_inv (hs : w.Sound) (hidle : w.Undriven)
    (hgen : poll.generation = w.machine.generation) (hphase : w.machine.phase = .downloading)
    (habort : w.abort = some poll.signal) (habout : w.About poll.jobId) :
    Inv stranded (w.spawn (.downloadPoll caller poll)).toAction := by
  apply Inv.spawn (t := .downloadPoll caller poll) hs hidle rfl rfl hgen
  · exact .inl (by rw [hphase]; rfl)
  · exact hphase
  · rintro s ⟨⟩
    exact habort
  · rintro j ⟨⟩
    exact ⟨by rw [hphase]; rfl, habout⟩

theorem readDownload_inv (hs : w.Sound) (hidle : w.Undriven)
    (hgen : poll.generation = w.machine.generation) (hphase : w.machine.phase = .downloading)
    (habort : w.abort = some poll.signal) (hsignal : poll.signal ∉ w.aborted)
    (habout : w.About poll.jobId)
    (hstrand : caller = .resumed → (w.readDownload caller poll).GaveUp → stranded) :
    Inv stranded (w.readDownload caller poll).toAction := by
  rcases readDownload_cases hsignal with ⟨err, herr, heq⟩ | heq
  · rw [heq] at hstrand ⊢
    exact catchDownload_inv hs hidle hgen hphase herr hstrand
  · rw [heq]
    exact downloadPoll_spawn_inv hs hidle hgen hphase
      habort habout

theorem pollDownload_inv (hs : w.Sound) (hidle : w.Undriven)
    (hgen : generation = w.machine.generation) (hphase : w.machine.phase = .downloading)
    (habort : w.abort = some signal) (hsignal : signal ∉ w.aborted)
    (habout : ∀ job, w.downloadJob = some job → w.About job.id)
    (hstrand : caller = .resumed → (w.pollDownload caller generation).GaveUp → stranded) :
    Inv stranded (w.pollDownload caller generation).toAction := by
  rcases pollDownload_cases habort hsignal with
    ⟨err, herr, heq⟩ | ⟨poll, job, hjob, hpoll, hid, hown, heq⟩
  · rw [heq] at hstrand ⊢
    exact catchDownload_inv hs hidle hgen hphase herr hstrand
  · rw [heq]
    apply downloadPoll_spawn_inv hs hidle (hpoll.trans hgen) hphase
    · rw [hown]
      exact habort
    · rw [hid]
      exact habout job hjob

/-- A download job that the flow now has, where the drivers are gone. -/
theorem downloading_inv {w' : Flow} {job : DownloadJob} (hs : w.Sound) (hidle : w.Undriven)
    (hquiet : ∀ t ∈ w.tasks, t.isAborted w.aborted = false)
    (hgen : generation = w.machine.generation) (habort : w.abort = some signal)
    (hsignal : signal ∉ w.aborted) (habout : w.About job.id)
    (heq : w'.toAction =
      { w.toAction with
        machine := ⟨.downloading, w.machine.generation, w.machine.busy⟩
        downloadJob := some job })
    (hstrand : caller = .resumed → (w'.pollDownload caller generation).GaveUp → stranded) :
    Inv stranded (w'.pollDownload caller generation).toAction := by
  have hmove : Sound
      { w.toAction with machine := ⟨.downloading, w.machine.generation, w.machine.busy⟩ } :=
    hs.move hidle (by simp) (by simp [FlowPhase.early])
  have hmachine : w'.machine = ⟨.downloading, w.machine.generation, w.machine.busy⟩ :=
    congrArg Action.machine heq
  have hsound : w'.Sound := by
    rw [heq]
    exact hmove.setJob hquiet rfl habout
  have hundriven : w'.Undriven := by
    rw [heq]
    exact hidle
  have hfresh : signal ∉ w'.aborted := by
    rw [congrArg Action.aborted heq]
    exact hsignal
  apply pollDownload_inv hsound hundriven _ _ ((congrArg Action.abort heq).trans habort) hfresh _
    hstrand
  · rw [hmachine]
    exact hgen
  · rw [hmachine]
  · intro job' hjob'
    rw [congrArg Action.downloadJob heq] at hjob'
    cases hjob'
    rw [heq]
    exact ⟨habout.1, fun d hd => by cases hd; rfl⟩

theorem resumeDownloadAnswered_inv {outcome : Except Thrown DownloadJob} (hs : w.Sound)
    (hidle : w.Undriven) (hquiet : ∀ t ∈ w.tasks, t.isAborted w.aborted = false)
    (hgen : generation = w.machine.generation) (hphase : w.machine.phase = .inspected)
    (habort : w.abort = some signal) (hsignal : signal ∉ w.aborted)
    (hstrand : (w.resumeDownloadAnswered generation outcome).GaveUp → stranded) :
    Inv stranded (w.resumeDownloadAnswered generation outcome).toAction := by
  cases outcome with
  | error err => exact catchResumed_inv hs hgen (.inl hphase) (by simp [hphase])
  | ok download =>
    have henqueue : w.machine.transition .enqueueingDownload =
        some ⟨.enqueueingDownload, w.machine.generation, w.machine.busy⟩ := by
      simp [FlowMachine.transition, hphase, FlowPhase.allowed]
    have hdownload : (⟨.enqueueingDownload, w.machine.generation, w.machine.busy⟩ :
        FlowMachine).transition .downloading =
          some ⟨.downloading, w.machine.generation, w.machine.busy⟩ := by
      simp [FlowMachine.transition, FlowPhase.allowed]
    subst hgen
    simp only [resumeDownloadAnswered, henqueue, hdownload, ne_eq, not_true_eq_false, if_false]
      at hstrand ⊢
    have habout : w.About download.id := (hs.early (by rw [hphase]; rfl)).about download.id
    exact downloading_inv hs hidle hquiet rfl habort hsignal habout rfl fun _ => hstrand

theorem createAnswered_inv {outcome : Except Thrown DownloadJob} (hs : w.Sound)
    (hidle : w.Undriven) (hquiet : ∀ t ∈ w.tasks, t.isAborted w.aborted = false)
    (hgen : generation = w.machine.generation) (hphase : w.machine.phase = .enqueueingDownload)
    (habort : w.abort = some signal) (hsignal : signal ∉ w.aborted)
    (hout : outcome ≠ .error .abort) :
    Inv stranded (w.createAnswered generation outcome).toAction := by
  cases outcome with
  | error err =>
    have herr : err ≠ .abort := by
      rintro rfl
      exact hout rfl
    exact catchEnqueue_inv hs hidle hgen (.inl hphase) herr
  | ok job =>
    have hdownload : w.machine.transition .downloading =
        some ⟨.downloading, w.machine.generation, w.machine.busy⟩ := by
      simp [FlowMachine.transition, hphase, FlowPhase.allowed]
    have habout : w.About job.id := (hs.early (by rw [hphase]; rfl)).about job.id
    subst hgen
    simp only [createAnswered, hdownload, ne_eq, not_true_eq_false, if_false]
    exact downloading_inv hs hidle hquiet rfl habort hsignal habout persist_toAction
      fun hcaller => by cases hcaller

/-- What the tick of a download poll does to the action. -/
theorem downloadTick_toAction {job : DownloadJob} (hgen : generation = w.machine.generation) :
    (w.downloadTick generation job).toAction = w.toAction ∨
      (w.downloadTick generation job).toAction = { w.toAction with downloadJob := some job } := by
  simp only [downloadTick, hgen, ne_eq, not_true_eq_false, if_false]
  split
  · exact .inl rfl
  · exact .inr persist_toAction

/-- Where no driver is left, a finished download is handed over, or upgraded first. -/
theorem readyDownload_inv {w' : Flow} {job : DownloadJob} {c : Prop} [Decidable c] (hidle : w.Undriven)
    (hquiet : ∀ t ∈ w.tasks, t.isAborted w.aborted = false)
    (hset : Sound { w.toAction with downloadJob := some job })
    (heq : w'.toAction =
      { w.toAction with
        machine := ⟨.ready, w.machine.generation, false⟩
        downloadJob := some job }) :
    Inv stranded
      (if c then w'.upgradeToPremium false
        else w'.armNativeDownload w.machine.generation).toAction := by
  have hcurrent : ∀ t ∈ w.tasks, t.current w.machine.generation = false := by
    intro t ht
    have hlive := hidle t ht
    simpa [Await.live, hquiet t ht] using hlive
  have hinv : Inv stranded w'.toAction := by
    rw [heq]
    have hdriven : Driven stranded
        { w.toAction with
          machine := ⟨.ready, w.machine.generation, false⟩, downloadJob := some job } :=
      Driven.idle rfl rfl
    exact { hset.moveReady hcurrent, hdriven with }
  split
  · exact upgradeToPremium_inv hinv
  · apply armNativeDownload_inv hinv
    exact Nat.le_of_eq (by rw [congrArg Action.machine heq])

theorem fail_inv {c : Action} {err : FlowError} (haction : w.toAction = c) (hs : c.Sound)
    (hidle : c.Undriven) (hgen : generation = c.machine.generation)
    (hlegal : phase ∈ c.machine.phase.allowed) (hterminal : phase.terminal) :
    Inv stranded (w.fail phase (.flow err) generation).toAction := by
  subst haction
  exact (fail_ended hgen (by simp) hlegal hterminal).inv hs hidle

theorem downloadPolled_inv {job : DownloadJob} (hs : w.Sound) (hidle : w.Undriven)
    (hquiet : ∀ t ∈ w.tasks, t.isAborted w.aborted = false)
    (hgen : generation = w.machine.generation) (hphase : w.machine.phase = .downloading)
    (habout : w.About job.id) :
    Inv stranded (w.downloadPolled caller generation job).toAction := by
  have hset : Sound { w.toAction with downloadJob := some job } :=
    hs.setJob hquiet (by rw [hphase]; rfl) habout
  obtain ⟨quotaRefresh, hquota⟩ := Flow.refreshQuota_eq { w with downloadJob := some job } true
  have hfail : ∀ (phase : FlowPhase) (err : FlowError), phase.terminal →
      phase ∈ w.machine.phase.allowed →
      Inv stranded (fail phase (.flow err) generation
        (refreshQuota true { w with downloadJob := some job })).toAction := by
    intro phase err hterminal hlegal
    exact fail_inv refreshQuota_toAction hset hidle hgen hlegal hterminal
  have hcancelled : w.machine.transition .cancelled =
      some ⟨.cancelled, w.machine.generation, w.machine.busy⟩ := by
    simp [FlowMachine.transition, hphase, FlowPhase.allowed]
  have hready : w.machine.transition .ready =
      some ⟨.ready, w.machine.generation, w.machine.busy⟩ := by
    simp [FlowMachine.transition, hphase, FlowPhase.allowed]
  subst hgen
  simp only [downloadPolled, ne_eq, not_true_eq_false, if_false]
  split
  · exact hfail _ _ rfl (by simp [hphase, FlowPhase.allowed])
  · simp only [hquota, clearGrantState, hcancelled]
    have hmove : Sound
        { w.toAction with
          downloadJob := some job, machine := ⟨.cancelled, w.machine.generation, false⟩ } :=
      hset.move hidle (by simp) (by simp [FlowPhase.early])
    have hdriven : Driven stranded
        { w.toAction with
          downloadJob := some job, machine := ⟨.cancelled, w.machine.generation, false⟩ } :=
      Driven.idle rfl rfl
    exact { hmove, hdriven with }
  · exact hfail _ _ rfl (by simp [hphase, FlowPhase.allowed])
  · simp only [hready]
    apply readyDownload_inv hidle hquiet hset
    rw [refreshQuota_toAction, persist_toAction]
    rfl

theorem downloadAnswered_inv {outcome : Except Thrown DownloadJob} (hs : w.Sound)
    (hidle : w.Undriven) (hquiet : ∀ t ∈ w.tasks, t.isAborted w.aborted = false)
    (hgen : poll.generation = w.machine.generation) (hphase : w.machine.phase = .downloading)
    (habort : w.abort = some poll.signal) (habout : w.About poll.jobId)
    (hjob : ∀ job, outcome = .ok job → job.id = poll.jobId) (hout : outcome ≠ .error .abort)
    (hstrand : caller = .resumed → (w.downloadAnswered caller poll outcome).GaveUp → stranded) :
    Inv stranded (w.downloadAnswered caller poll outcome).toAction := by
  cases outcome with
  | error err =>
    have herr : err ≠ .abort := by
      rintro rfl
      exact hout rfl
    simp only [downloadAnswered] at hstrand ⊢
    split
    · rename_i poll' hpoll'
      rw [readFailed_eq_ok hpoll']
      exact downloadPoll_spawn_inv hs hidle hgen hphase habort habout
    · rename_i err' herr'
      simp only [herr'] at hstrand
      rw [readFailed_eq_error herr'] at hstrand ⊢
      exact catchDownload_inv hs hidle hgen hphase herr hstrand
  | ok job =>
    have habout' : w.About job.id := by
      rw [hjob job rfl]
      exact habout
    have hset : Sound { w.toAction with downloadJob := some job } :=
      hs.setJob hquiet (by rw [hphase]; rfl) habout'
    simp only [downloadAnswered]
    rcases downloadTick_toAction hgen with haction | haction
    · generalize w.downloadTick poll.generation job = w' at haction ⊢
      split
      · apply downloadPolled_inv <;> rw [haction] <;> assumption
      · apply downloadPoll_spawn_inv <;> rw [haction] <;> assumption
    · generalize w.downloadTick poll.generation job = w' at haction ⊢
      split
      · apply downloadPolled_inv <;> rw [haction] <;> try assumption
        exact ⟨habout'.1, fun d hd => by cases hd; rfl⟩
      · apply downloadPoll_spawn_inv <;> rw [haction] <;> try assumption
        exact ⟨habout.1, fun d hd => by cases hd; exact hjob job rfl⟩

theorem enqueueQuotaSettled_inv {formatOptionId : OptionId} {rejected : Option Thrown}
    (hs : w.Sound) (hidle : w.Undriven) (hgen : generation = w.machine.generation)
    (hphase : w.machine.phase = .enqueueingDownload) (hrejected : rejected ≠ some .abort) :
    Inv stranded (w.enqueueQuotaSettled generation formatOptionId rejected).toAction := by
  cases rejected with
  | some err =>
    have herr : err ≠ .abort := by
      rintro rfl
      exact hrejected rfl
    exact catchEnqueue_inv hs hidle hgen (.inl hphase) herr
  | none =>
    simp only [enqueueQuotaSettled]
    split
    · exact catchEnqueue_inv hs hidle hgen (.inl hphase) (by simp)
    · split
      · rename_i job signal _ habort
        apply Inv.spawn (t := .enqueueCreate generation job.id formatOptionId w.token signal)
          hs hidle rfl rfl hgen
        · exact .inl (by rw [hphase]; rfl)
        · exact hphase
        · rintro s ⟨⟩
          exact habort
        · rintro j ⟨⟩
      · exact catchEnqueue_inv hs hidle hgen (.inl hphase) (by simp)

/-- The lapse of Premium leads back to the choice of a format, but not from a running download. -/
theorem enqueueLapsedSettled_inv (hs : w.Sound) (hidle : w.Undriven)
    (hgen : generation = w.machine.generation) (hbusy : w.machine.phase = .cancelled →
      w.machine.busy = false)
    (hphase : w.machine.phase = .enqueueingDownload ∨ w.machine.phase = .downloading ∨
      w.machine.phase = .cancelled)
    (hstrand : w.machine.phase = .downloading → stranded) :
    Inv stranded (w.enqueueLapsedSettled generation).toAction := by
  subst hgen
  rcases hphase with hphase | hphase | hphase
  · have hinspected : w.machine.transitionIn .inspected w.machine.generation =
        some ⟨.inspected, w.machine.generation, w.machine.busy⟩ := by
      simp [FlowMachine.transitionIn, FlowMachine.transition, hphase, FlowPhase.allowed]
    simp only [enqueueLapsedSettled, hinspected]
    have hmove : Sound
        { w.toAction with machine := ⟨.inspected, w.machine.generation, false⟩ } :=
      hs.move hidle (by simp) fun _ => hs.early (by rw [hphase]; rfl)
    have hdriven : Driven stranded
        { w.toAction with machine := ⟨.inspected, w.machine.generation, false⟩ } :=
      Driven.idle rfl rfl
    exact { hmove, hdriven with }
  · have hillegal : w.machine.transitionIn .inspected w.machine.generation = none := by
      simp [FlowMachine.transitionIn, FlowMachine.transition, hphase, FlowPhase.allowed]
    simp only [enqueueLapsedSettled, hillegal]
    have hdriven : Driven stranded w.toAction := Driven.downloading hphase (hstrand hphase)
    exact { hs, hdriven with }
  · have hillegal : w.machine.transitionIn .inspected w.machine.generation = none := by
      simp [FlowMachine.transitionIn, FlowMachine.transition, hphase, FlowPhase.allowed]
    simp only [enqueueLapsedSettled, hillegal]
    have hdriven : Driven stranded w.toAction :=
      Driven.idle (hbusy hphase) (by rw [hphase]; rfl)
    exact { hs, hdriven with }

/-! ## Upgrade, grant and cancellation -/

/-- The action whose download the answer of an upgrade brings. -/
def upgraded (w : Flow) (outcome : Except Thrown DownloadJob) : Action :=
  match outcome with
  | .ok job => { w.toAction with downloadJob := some job }
  | .error _ => w.toAction

theorem upgradeAnswered_cases (outcome : Except Thrown DownloadJob) :
    w.upgradeAnswered generation outcome = w ∨
      generation = w.machine.generation ∧ w.machine.phase = .ready ∧
        ∃ w' : Flow, w'.toAction = w.upgraded outcome ∧
          w.upgradeAnswered generation outcome = w'.armNativeDownload generation := by
  unfold upgradeAnswered
  split
  · exact .inl rfl
  · rename_i hcurrent
    simp only [ne_eq, not_or, not_not] at hcurrent
    refine .inr ⟨hcurrent.1, hcurrent.2, _, ?_, rfl⟩
    cases outcome with
    | ok job =>
      show (refreshQuota true (persist _)).toAction = _
      rw [refreshQuota_toAction, persist_toAction]
      rfl
    | error err =>
      show (ite _ _ _ : Flow).toAction = _
      split
      · exact refreshPremium_toAction
      · rfl

theorem upgradeAnswered_inv {outcome : Except Thrown DownloadJob} (h : w.Inv stranded)
    (hquiet : ∀ t ∈ w.tasks, t.isAborted w.aborted = false)
    (habout : ∀ job, outcome = .ok job → generation = w.machine.generation → w.About job.id) :
    Inv stranded (w.upgradeAnswered generation outcome).toAction := by
  rcases upgradeAnswered_cases (w := w) outcome with
    heq | ⟨hgen, hphase, w', haction, heq⟩
  · rw [heq]
    exact h
  · have hinv : Inv stranded (w.upgraded outcome) := by
      cases outcome with
      | error err => exact h
      | ok job =>
        have hset : Sound { w.toAction with downloadJob := some job } :=
          h.toSound.setJob hquiet (by rw [hphase]; rfl) (habout job rfl hgen)
        have hdriven : Driven stranded { w.toAction with downloadJob := some job } :=
          h.toDriven.setJob
        exact { hset, hdriven with }
    rw [heq]
    apply armNativeDownload_inv
    · rw [haction]
      exact hinv
    · rw [congrArg Action.machine haction, hgen]
      cases outcome <;> exact Nat.le_refl _

theorem grantAnswered_toAction {grantGeneration : Nat} {previous : Option BrowserGrant}
    {outcome : Except Thrown BrowserGrant} :
    (w.grantAnswered generation grantGeneration previous outcome).toAction = w.toAction := by
  unfold grantAnswered
  split
  · rfl
  · split
    · split
      · rfl
      · rw [scheduleGrantRefresh_toAction]
    · split
      · dsimp only
        split <;> rw [scheduleGrantRefresh_toAction]
      · split <;> rfl

theorem cancelAnswered_inv {outcome : Except Thrown DownloadJob} (h : w.Inv stranded)
    (hquiet : ∀ t ∈ w.tasks, t.isAborted w.aborted = false)
    (hcurrent : ∀ job, outcome = .ok job → generation = w.machine.generation →
      w.machine.phase.early = false ∧ w.About job.id) :
    Inv stranded (w.cancelAnswered generation outcome).toAction := by
  unfold cancelAnswered
  split
  · exact h
  rename_i hgen
  simp only [ne_eq, not_not] at hgen
  cases outcome with
  | error err =>
    dsimp only
    split <;> exact h
  | ok job =>
    obtain ⟨hearly, habout⟩ := hcurrent job rfl hgen
    have hset : Inv stranded { w.toAction with downloadJob := some job } := by
      have hsound : Sound { w.toAction with downloadJob := some job } :=
        h.toSound.setJob hquiet hearly habout
      have hdriven : Driven stranded { w.toAction with downloadJob := some job } :=
        h.toDriven.setJob
      exact { hsound, hdriven with }
    obtain ⟨quotaRefresh, hquota⟩ := Flow.refreshQuota_eq { w with downloadJob := some job } true
    simp only [hquota, clearGrantState]
    split
    · split
      · exact hset
      · rename_i machine hmachine
        obtain ⟨-, rfl⟩ := (FlowMachine.transition_eq_some (by simp) (by simp)).mp hmachine
        have hsound : Sound
            { w.toAction with
              downloadJob := some job
              machine := ⟨.cancelled, w.machine.generation, false⟩
              aborted := w.abort.toList ++ w.aborted } :=
          hset.toSound.cancel hearly
        have hdriven : Driven stranded
            { w.toAction with
              downloadJob := some job
              machine := ⟨.cancelled, w.machine.generation, false⟩
              aborted := w.abort.toList ++ w.aborted } :=
          Driven.idle rfl rfl
        exact { hsound, hdriven with }
    · exact hset

/-! ## What is stale -/

/-- What an answer of an earlier generation must leave alone. -/
structure Scene where
  phase : FlowPhase
  generation : Nat
  token : Option AccessToken
  mediaJob : Option InspectionJob
  downloadJob : Option DownloadJob
  selectedFormatId : Option OptionId
  session : FlowSession
  grant : GrantState

def scene (w : Flow) : Scene where
  phase := w.machine.phase
  generation := w.machine.generation
  token := w.token
  mediaJob := w.mediaJob
  downloadJob := w.downloadJob
  selectedFormatId := w.selectedFormatId
  session := w.session
  grant := w.toGrantState

/-- The scene is left alone. A stale poll or request may go on, and a stale lapse frees the
machine. -/
structure Ignored (w w' : Flow) : Prop where
  scene : w'.scene = w.scene
  action : w'.toAction = w.toAction ∨
    w'.toAction = { w.toAction with machine := w.machine.endAction } ∨
    ∃ t : Await, t.generation < w.machine.generation ∧ t.resumes = false ∧ t.honest ∧
      t.grantNumber = none ∧ w'.toAction = { w.toAction with tasks := t :: w.tasks }

variable {w' : Flow}

theorem Ignored.refl (w : Flow) : Ignored w w := ⟨rfl, .inl rfl⟩

theorem Ignored.of_eq (heq : w' = w) : Ignored w w' := by
  rw [heq]
  exact .refl w

theorem Ignored.inv (hignored : Ignored w w') (h : w.Inv stranded) : w'.Inv stranded := by
  rcases hignored.action with haction | haction | ⟨t, hgen, hresumes, hhonest, -, haction⟩
  · rw [haction]
    exact h
  · rw [haction]
    exact h.setBusyFalse
  · rw [haction]
    apply h.spawnOther (Nat.le_of_lt hgen) _ hresumes hhonest
    · intro heq
      omega
    · intro heq
      omega

theorem Ignored.spawn (hgen : t.generation < w.machine.generation) (hresumes : t.resumes = false)
    (hhonest : t.honest) (hnumber : t.grantNumber = none) :
    Ignored w (w.spawn t) :=
  ⟨rfl, .inr (.inr ⟨t, hgen, hresumes, hhonest, hnumber, rfl⟩)⟩

theorem catchInspection_ignored (caller : InspectionCaller)
    (hgen : generation ≠ w.machine.generation) :
    Ignored w (catchInspection caller err generation w) := by
  cases caller with
  | submit => exact .of_eq (fail_stale hgen)
  | resume =>
    rw [show catchInspection .resume err generation w = { w with resumeDownloadId := none } from
      fail_stale (w := { w with resumeDownloadId := none }) hgen]
    exact ⟨rfl, .inl rfl⟩

theorem readInspection_ignored {caller : InspectionCaller}
    (hgen : poll.generation < w.machine.generation) :
    Ignored w (w.readInspection caller poll) := by
  unfold readInspection
  dsimp only
  split
  · exact catchInspection_ignored _ (Nat.ne_of_lt hgen)
  · exact .spawn hgen rfl rfl rfl

theorem inspectionAnswered_ignored {caller : InspectionCaller}
    {outcome : Except Thrown InspectionJob} (hgen : poll.generation < w.machine.generation) :
    Ignored w (w.inspectionAnswered caller poll outcome) := by
  have hne : poll.generation ≠ w.machine.generation := Nat.ne_of_lt hgen
  cases outcome with
  | error err =>
    simp only [inspectionAnswered]
    split
    · rename_i poll' hpoll'
      rw [readFailed_eq_ok hpoll']
      exact .spawn hgen rfl rfl rfl
    · exact catchInspection_ignored _ hne
  | ok job =>
    have htick : w.inspectionTick poll.generation job = w := if_pos hne
    simp only [inspectionAnswered, htick]
    split
    · exact .of_eq (if_pos hne)
    · exact .spawn hgen rfl rfl rfl

theorem resumeAnswered_ignored {outcome : Except Thrown InspectionJob}
    (hgen : generation ≠ w.machine.generation) :
    Ignored w (w.resumeAnswered generation outcome) := by
  cases outcome with
  | error err => exact catchInspection_ignored .resume hgen
  | ok job => exact .of_eq (if_pos hgen)

theorem submitAnswered_ignored {outcome : Except Thrown InspectionJob}
    (hgen : generation ≠ w.machine.generation) :
    Ignored w (w.submitAnswered generation outcome) := by
  cases outcome with
  | error err => exact catchInspection_ignored .submit hgen
  | ok job => exact .of_eq (if_pos hgen)

theorem catchEnqueue_ignored (hgen : generation ≠ w.machine.generation) :
    Ignored w (w.catchEnqueue err generation) :=
  .of_eq (if_pos hgen)

/-- A stale restore has already given up its download. -/
theorem catchResumed_ignored (hgen : generation ≠ w.machine.generation)
    (hjob : w.downloadJob = none) : Ignored w (w.catchResumed err generation) := by
  have heq : w.catchResumed err generation = { w with downloadJob := none } := if_pos hgen
  rw [heq, ← hjob]
  exact .refl w

theorem catchDownload_ignored (hgen : generation ≠ w.machine.generation)
    (hjob : caller = .resumed → w.downloadJob = none) :
    Ignored w (catchDownload caller err generation w) := by
  cases caller with
  | resumed => exact catchResumed_ignored hgen (hjob rfl)
  | enqueue => exact catchEnqueue_ignored hgen

theorem readDownload_ignored (hgen : poll.generation < w.machine.generation) :
    Ignored w (w.readDownload .enqueue poll) := by
  unfold readDownload
  dsimp only
  split
  · exact catchEnqueue_ignored (Nat.ne_of_lt hgen)
  · exact .spawn hgen rfl rfl rfl

theorem downloadAnswered_ignored {outcome : Except Thrown DownloadJob}
    (hgen : poll.generation < w.machine.generation) :
    Ignored w (w.downloadAnswered .enqueue poll outcome) := by
  have hne : poll.generation ≠ w.machine.generation := Nat.ne_of_lt hgen
  cases outcome with
  | error err =>
    simp only [downloadAnswered]
    split
    · rename_i poll' hpoll'
      rw [readFailed_eq_ok hpoll']
      exact .spawn hgen rfl rfl rfl
    · exact catchEnqueue_ignored hne
  | ok job =>
    have htick : w.downloadTick poll.generation job = w := if_pos hne
    simp only [downloadAnswered, htick]
    split
    · exact .of_eq (if_pos hne)
    · exact .spawn hgen rfl rfl rfl

theorem createAnswered_ignored {outcome : Except Thrown DownloadJob}
    (hgen : generation ≠ w.machine.generation) :
    Ignored w (w.createAnswered generation outcome) := by
  cases outcome with
  | error err => exact catchEnqueue_ignored hgen
  | ok job => exact .of_eq (if_pos hgen)

theorem enqueueQuotaSettled_ignored {formatOptionId : OptionId} {rejected : Option Thrown}
    (hgen : generation < w.machine.generation) :
    Ignored w (w.enqueueQuotaSettled generation formatOptionId rejected) := by
  have hne : generation ≠ w.machine.generation := Nat.ne_of_lt hgen
  cases rejected with
  | some err => exact catchEnqueue_ignored hne
  | none =>
    simp only [enqueueQuotaSettled]
    split
    · exact catchEnqueue_ignored hne
    · split
      · exact .spawn hgen rfl rfl rfl
      · exact catchEnqueue_ignored hne

theorem enqueueLapsedSettled_ignored (hgen : generation ≠ w.machine.generation) :
    Ignored w (w.enqueueLapsedSettled generation) := by
  have hmachine : w.machine.transitionIn .inspected generation = some w.machine := by
    simp [FlowMachine.transitionIn, hgen]
  simp only [enqueueLapsedSettled, hmachine]
  exact ⟨rfl, .inr (.inl rfl)⟩

theorem upgradeAnswered_ignored {outcome : Except Thrown DownloadJob}
    (hgen : generation ≠ w.machine.generation) :
    Ignored w (w.upgradeAnswered generation outcome) :=
  .of_eq (if_pos (.inl hgen))

theorem grantAnswered_ignored {grantGeneration : Nat} {previous : Option BrowserGrant}
    {outcome : Except Thrown BrowserGrant} (hgen : generation ≠ w.machine.generation) :
    Ignored w (w.grantAnswered generation grantGeneration previous outcome) :=
  .of_eq (if_pos (.inl hgen))

theorem cancelAnswered_ignored {outcome : Except Thrown DownloadJob}
    (hgen : generation ≠ w.machine.generation) :
    Ignored w (w.cancelAnswered generation outcome) :=
  .of_eq (if_pos hgen)

end Flow

end FetchNow.MediaFlow
