import FetchNow.MediaFlow.Grants

/-!
# What every run of the flow keeps

The invariant of the action and of its download link, kept by every event: a user action, a page
event, a timer, an answer or a reaction.
-/
namespace FetchNow.MediaFlow

open Transactions (Commit Run)

namespace Action

variable {c : Action} {t : Await} {stranded : Prop}

theorem Sound.about_job (h : Sound c) (ht : t ∈ c.tasks) (hgen : t.generation = c.machine.generation)
    {id : Uuid} (hjob : t.job = some id) : c.About id := by
  obtain ⟨id', habout⟩ := h.about
  obtain rfl := habout.1 t ht hgen id hjob
  exact habout

/-- Nothing of the generation to come is under way. -/
theorem Sound.undriven_renew (h : Sound c) (phase : FlowPhase) (busy : Bool) :
    Undriven { c with machine := ⟨phase, c.machine.generation + 1, busy⟩ } := by
  intro t ht
  apply Await.not_live_of_not_current
  apply Await.not_current_of_ne
  have hle : t.generation ≤ c.machine.generation := h.bounded t ht
  show t.generation ≠ c.machine.generation + 1
  omega

/-- A driver that is not aborted is stopped by the controller of its action. -/
theorem Sound.aborted_of_live (h : Sound c) (ht : t ∈ c.tasks)
    (hlive : t.live c.machine.generation c.aborted) (hsignal : t.signal ≠ none) :
    t.isAborted (c.abort.toList ++ c.aborted) := by
  obtain ⟨s, hs⟩ := Option.ne_none_iff_exists'.mp hsignal
  have hown := h.own t ht hlive s hs
  exact Await.isAborted_iff.mpr ⟨s, hs, by simp [hown]⟩

theorem Sound.abortOwn (h : Sound c) : Sound { c with aborted := c.abort.toList ++ c.aborted } := by
  apply h.abort
  intro s hs
  exact h.freshAbort s (by simpa using hs)

/-- On an idle machine no restored download is under way. -/
theorem Sound.resumes_aborted (h : Sound c) (hquiet : ∀ t ∈ c.tasks, t.isAborted c.aborted = false)
    (hphase : c.machine.phase = .idle) : ∀ u ∈ c.tasks, u.resumes → u.isAborted c.aborted := by
  intro u hu hresumes
  rcases Nat.lt_or_ge u.generation c.machine.generation with hlt | hge
  · exact (h.stale u hu hresumes hlt).1
  · have hle := h.bounded u hu
    have hlive : u.live c.machine.generation c.aborted := by
      have hdriver : u.drives = true := by cases u <;> simp_all [Await.resumes, Await.drives]
      have heq : u.generation = c.machine.generation := by omega
      simp [Await.live, Await.current, hdriver, heq, hquiet u hu]
    have hfits := h.fits u hu hlive
    cases u <;> simp_all [Await.resumes, Await.Fits]

/-- A new action: what was under way is stale and aborted. -/
theorem Sound.start (h : Sound c) (hstale : ∀ u ∈ c.tasks, u.resumes → u.isAborted c.aborted)
    (hdrives : t.drives) (hgen : t.generation = c.machine.generation + 1) (hfits : t.Fits .submitting)
    (hsignal : t.signal = some c.nextSignal) (hjob : t.job = none) (hhonest : t.honest) :
    Inv stranded
      { machine := ⟨.submitting, c.machine.generation + 1, true⟩
        tasks := t :: c.tasks
        abort := some c.nextSignal
        aborted := c.abort.toList ++ c.aborted
        nextSignal := c.nextSignal + 1
        downloadJob := none } := by
  have hnew : Sound
      { c with machine := ⟨.submitting, c.machine.generation + 1, true⟩, downloadJob := none } :=
    h.noJob.renew (by simp) hstale rfl
  have hidle : Undriven
      { c with
        machine := ⟨.submitting, c.machine.generation + 1, true⟩
        aborted := c.abort.toList ++ c.aborted
        downloadJob := none } := by
    intro u hu
    have hold := h.undriven_renew .submitting true u hu
    by_contra hlive
    rw [Await.live_of_append (eq_true_of_ne_false hlive)] at hold
    cases hold
  have hready := hnew.abortOwn.newAbort hidle
  apply Inv.spawn hready hidle hdrives hhonest hgen (.inl rfl) hfits
  · intro s hs
    rw [hsignal] at hs
    exact hs
  · intro j hj
    rw [hjob] at hj
    cases hj

/-- A download is enqueued: a restored one that is still being read is given up. -/
theorem Sound.enqueue (h : Sound c) (hphase : c.machine.phase = .inspected) {formatOptionId : OptionId} :
    Inv stranded
      { machine := ⟨.enqueueingDownload, c.machine.generation, true⟩
        tasks := .enqueueQuota c.machine.generation formatOptionId none :: c.tasks
        abort := some c.nextSignal
        aborted := c.abort.toList ++ c.aborted
        nextSignal := c.nextSignal + 1
        downloadJob := c.downloadJob } := by
  have hidle : Undriven { c with aborted := c.abort.toList ++ c.aborted } := by
    intro u hu
    by_contra hne
    have hlive := eq_true_of_ne_false hne
    have hbefore := Await.live_of_append hlive
    have hfits := h.fits u hu hbefore
    rw [hphase] at hfits
    have hsignal : u.signal ≠ none := by
      cases u <;> simp_all [Await.Fits, Await.signal, Await.live, Await.current, Await.drives]
    have haborted := h.aborted_of_live hu hbefore hsignal
    simp [Await.live, haborted] at hlive
  have hmove : Sound
      { c with
        machine := ⟨.enqueueingDownload, c.machine.generation, true⟩
        aborted := c.abort.toList ++ c.aborted } :=
    h.abortOwn.move hidle (by simp) fun _ => h.early (by rw [hphase]; rfl)
  have hready := hmove.newAbort hidle
  apply Inv.spawn (t := .enqueueQuota c.machine.generation formatOptionId none) hready hidle rfl rfl
    rfl (.inl rfl) rfl
  · rintro s ⟨⟩
  · rintro j ⟨⟩

/-- Starting over: what was under way is stale and aborted. -/
theorem Sound.reset (h : Sound c) (hquiet : ∀ t ∈ c.tasks, t.isAborted c.aborted = false) :
    Inv stranded
      { machine := ⟨.idle, c.machine.generation + 1, false⟩
        tasks := c.tasks
        abort := none
        aborted := c.abort.toList ++ c.aborted
        nextSignal := c.nextSignal
        downloadJob := none } := by
  have hstale : ∀ u ∈ c.tasks, u.resumes → u.isAborted (c.abort.toList ++ c.aborted) := by
    intro u hu hresumes
    rcases Nat.lt_or_ge u.generation c.machine.generation with hlt | hge
    · exact Await.isAborted_append (h.stale u hu hresumes hlt).1
    · have hle := h.bounded u hu
      have hlive : u.live c.machine.generation c.aborted := by
        have hdriver : u.drives = true := by cases u <;> simp_all [Await.resumes, Await.drives]
        have heq : u.generation = c.machine.generation := by omega
        simp [Await.live, Await.current, hdriver, heq, hquiet u hu]
      apply h.aborted_of_live hu hlive
      cases u <;> simp_all [Await.resumes, Await.signal]
  have hnew : Sound
      { c with
        machine := ⟨.idle, c.machine.generation + 1, false⟩
        aborted := c.abort.toList ++ c.aborted
        downloadJob := none } :=
    h.abortOwn.noJob.renew (by simp) hstale rfl
  have hidle := h.abortOwn.noJob.undriven_renew .idle false
  have hsound := hnew.noAbort hidle
  have hdriven : Driven stranded
      { machine := ⟨.idle, c.machine.generation + 1, false⟩
        tasks := c.tasks
        abort := none
        aborted := c.abort.toList ++ c.aborted
        nextSignal := c.nextSignal
        downloadJob := none } := Driven.idle rfl rfl
  exact { hsound, hdriven with }

end Action

namespace Flow

open MediaFlow.Action Await

variable {w w' : Flow} {generation : Nat} {t : Await} {stranded : Prop}
  {log : List (Commit Event Flow)}

structure Inv (stranded : Prop) (log : List (Commit Event Flow)) (w : Flow) : Prop where
  action : Action.Inv stranded w.toAction
  grants : GrantInv log w

theorem Inv.mono {stranded' : Prop} (h : Inv stranded log w) (himp : stranded → stranded')
    (commit : Commit Event Flow) : Inv stranded' (commit :: log) w :=
  ⟨h.action.mono himp, h.grants.cons commit⟩

/-- What leaves the action alone, and the grants or clears them. -/
theorem Inv.same (h : Inv stranded log w) (hgranting : Granting w w')
    (haction : w'.toAction = w.toAction) : Inv stranded log w' :=
  ⟨by rw [haction]; exact h.action, h.grants.granting hgranting⟩

theorem Inv.arm (h : Inv stranded log w) (hgen : generation ≤ w.machine.generation) :
    Inv stranded log (w.armNativeDownload generation) :=
  ⟨armNativeDownload_inv h.action hgen, h.grants.armNativeDownload hgen⟩

theorem Inv.upgrade {userInitiated : Bool} (h : Inv stranded log w) :
    Inv stranded log (w.upgradeToPremium userInitiated) :=
  ⟨upgradeToPremium_inv h.action, h.grants.granting .upgradeToPremium⟩

/-! ## User actions -/

theorem submit_inv {token : AccessToken} (h : Inv stranded log w)
    (hquiet : ∀ t ∈ w.tasks, t.isAborted w.aborted = false) :
    Inv stranded log (w.submit token) := by
  unfold submit
  split
  · exact h
  · rename_i machine hbegin
    obtain ⟨hbusy, rfl⟩ := FlowMachine.beginAction_eq_some.mp hbegin
    dsimp only
    split
    · constructor
      · have hmachine : (⟨w.machine.phase, w.machine.generation, false⟩ : FlowMachine) = w.machine := by
          rw [← hbusy]
        have hsound : Sound { w.toAction with downloadJob := none } := h.action.toSound.noJob
        have hdriven : Driven stranded { w.toAction with downloadJob := none } :=
          h.action.toDriven.setJob
        show Action.Inv stranded
          { w.toAction with
            downloadJob := none, machine := ⟨w.machine.phase, w.machine.generation, false⟩ }
        rw [hmachine]
        exact { hsound, hdriven with }
      · apply h.grants.granting
        apply Granting.cleared
        · exact fun _ ht _ => ht
        · exact .refl _
        · rfl
        · exact Nat.le_refl _
        · exact Nat.lt_succ_self _
        · rfl
        · rfl
    · rename_i machine' hmachine'
      obtain ⟨hphase, rfl⟩ := FlowMachine.transition_submitting.mp hmachine'
      constructor
      · have hstale := h.action.toSound.resumes_aborted hquiet hphase
        exact h.action.toSound.start hstale rfl rfl rfl rfl rfl rfl
      · apply h.grants.granting
        refine .after (.spawn rfl) ?_
        apply Granting.cleared
        · exact fun _ ht _ => ht
        · exact .refl _
        · rfl
        · exact Nat.le_succ _
        · exact Nat.lt_succ_self _
        · rfl
        · rfl

theorem selectFormat_inv {formatOptionId : OptionId} (h : Inv stranded log w) :
    Inv stranded log (w.selectFormat formatOptionId) := by
  unfold selectFormat
  split
  · exact h
  · split
    · split
      · exact h.same (.after .persist (.of_same rfl rfl)) persist_toAction
      · exact h
    · exact h

theorem enqueueDownload_inv (h : Inv stranded log w) :
    Inv stranded log w.enqueueDownload := by
  have hrefused : Inv stranded log { w with machine := w.machine.endAction } :=
    ⟨h.action.setBusyFalse, h.grants.granting (.of_eq rfl rfl rfl fun h => ⟨h, fun _ hid => hid⟩)⟩
  unfold enqueueDownload
  split
  · exact h
  rename_i hphase
  simp only [ne_eq, not_not] at hphase
  split
  · exact h
  rename_i machine hbegin
  obtain ⟨hbusy, rfl⟩ := FlowMachine.beginAction_eq_some.mp hbegin
  split
  · split
    · have htransition : ({ w.machine with busy := true } : FlowMachine).transition
          .enqueueingDownload = some ⟨.enqueueingDownload, w.machine.generation, true⟩ := by
        simp [FlowMachine.transition, hphase, FlowPhase.allowed]
      simp only [clearGrantState, clearUpgradeState, htransition, abortAction, newAbort]
      constructor
      · show Action.Inv stranded { (Flow.refreshQuota false _).toAction with tasks := _ }
        rw [refreshQuota_toAction]
        exact h.action.toSound.enqueue hphase
      · apply h.grants.granting
        refine .after (.spawn rfl) (.after .refreshQuota ?_)
        apply Granting.cleared
        · exact fun _ ht _ => ht
        · exact .refl _
        · rfl
        · exact Nat.le_refl _
        · exact Nat.lt_succ_self _
        · rfl
        · rfl
    · exact hrefused
  · exact hrefused

theorem onNativeDownloadClick_inv (h : Inv stranded log w) :
    Inv stranded log w.onNativeDownloadClick := by
  unfold onNativeDownloadClick
  split
  · exact h
  · split
    · apply (h.same .invalidateExpiredGrantHref invalidateExpiredGrantHref_toAction).arm
      exact Nat.le_refl _
    · refine h.same (.after .persist ?_) persist_toAction
      exact .of_action rfl rfl rfl (.inl ⟨rfl, rfl⟩) (.inr rfl) rfl

theorem retryGrantAccess_inv (h : Inv stranded log w) : Inv stranded log w.retryGrantAccess := by
  unfold retryGrantAccess
  split
  · exact h
  · have hretry : Granting w { w with errorText := none, grantNeedsRetry := true } :=
      .of_action rfl rfl rfl (.inl ⟨rfl, rfl⟩) (.inr rfl) rfl
    apply (h.same hretry rfl).arm
    exact Nat.le_refl _

theorem cancelTask_inv (h : Inv stranded log w) : Inv stranded log w.cancelTask := by
  unfold cancelTask
  split
  · rename_i token job htoken hjob
    split
    · constructor
      · apply h.action.spawnOther (t := .cancel w.machine.generation job.id token w.abort)
          (Nat.le_refl _) (fun _ => rfl) rfl rfl
        rintro - j ⟨⟩
        exact ⟨job, hjob, rfl⟩
      · exact h.grants.granting (.spawn rfl)
    · exact h
  · exact h

theorem startOver_inv (h : Inv stranded log w)
    (hquiet : ∀ t ∈ w.tasks, t.isAborted w.aborted = false) : Inv stranded log w.startOver := by
  constructor
  · exact h.action.toSound.reset hquiet
  · apply h.grants.granting
    apply Granting.cleared
    · exact fun _ ht _ => ht
    · exact .refl _
    · rfl
    · exact Nat.le_succ _
    · exact Nat.lt_succ_self _
    · rfl
    · rfl

/-! ## Page events -/

theorem onPageHide_inv (h : Inv stranded log w) : Inv stranded log w.onPageHide := by
  obtain ⟨session, hpersist⟩ := w.persist_eq
  unfold onPageHide
  rw [hpersist]
  constructor
  · have hsound := h.action.toSound.abortOwn
    have hdriven := h.action.toDriven.abort h.action.toSound
    exact { hsound, hdriven with }
  · apply h.grants.granting
    exact .kept (fun _ ht _ => ht) (.refl _) rfl rfl rfl (.inl ⟨rfl, rfl⟩) (.inl rfl) rfl
      fun h => ⟨h, fun _ hid => hid⟩

theorem onForegroundResume_inv (h : Inv stranded log w) :
    Inv stranded log w.onForegroundResume := by
  have hpremium : Inv stranded log w.refreshPremium :=
    h.same .refreshPremium refreshPremium_toAction
  have hquota : Inv stranded log
      (if w.refreshPremium.nativeDownloadHandoff then w.refreshPremium.refreshQuota true
        else w.refreshPremium) := by
    split
    · exact hpremium.same .refreshQuota refreshQuota_toAction
    · exact hpremium
  unfold onForegroundResume
  dsimp only
  generalize (if w.refreshPremium.nativeDownloadHandoff then w.refreshPremium.refreshQuota true
    else w.refreshPremium) = w' at hquota ⊢
  split
  · exact hquota
  · have hvalid : Inv stranded log w'.invalidateExpiredGrantHref :=
      hquota.same .invalidateExpiredGrantHref invalidateExpiredGrantHref_toAction
    split
    · exact hvalid
    · split
      · refine ⟨?_, hvalid.grants.scheduleGrantRefresh (Nat.le_refl _)⟩
        rw [scheduleGrantRefresh_toAction]
        exact hvalid.action
      · exact hvalid.arm (Nat.le_refl _)

theorem initializeAccount_inv (h : Inv stranded log w) : Inv stranded log w.initializeAccount := by
  have hquota : Inv stranded log (w.refreshQuota true) :=
    h.same .refreshQuota refreshQuota_toAction
  constructor
  · apply hquota.action.spawnOther (t := .account none) (Nat.zero_le _) (fun _ => rfl) rfl rfl
    rintro - j ⟨⟩
  · exact hquota.grants.granting (.spawn rfl)

/-- A new generation: no request of the old ones may be stored. -/
theorem GrantInv.renew (h : GrantInv log w)
    (hbounded : ∀ t ∈ w.tasks, t.generation ≤ w.machine.generation)
    (hpath : w'.downloadPath = none)
    (htasks : grantNumbers w'.tasks = grantNumbers w.tasks ∧
      ∀ t ∈ w'.tasks, t.grantNumber.isSome → t ∈ w.tasks)
    (hgen : w'.machine.generation = w.machine.generation + 1)
    (hnumber : w'.grantGeneration = w.grantGeneration) (houtbox : w'.outbox = w.outbox)
    (htimer : w'.grantRefreshTimer = w.grantRefreshTimer) : GrantInv log w' := by
  obtain ⟨hnumbers, hsub⟩ := htasks
  have hrequests : w'.Numbered := by
    apply h.toNumbered.of_sent
    · rw [houtbox]
    · exact hsub
    · exact Nat.le_of_eq hnumber.symm
  have hnone : ∀ generation grantGeneration jobId token previous,
      .grant generation grantGeneration jobId token previous ∈ w'.tasks →
        ¬ w'.Storable generation grantGeneration := by
    intro generation grantGeneration jobId token previous ht hs
    have hle : generation ≤ w.machine.generation := hbounded _ (hsub _ ht rfl)
    have heq := hs.1
    omega
  refine ⟨hrequests, ?_, ?_, ?_, ?_, ?_, ?_⟩
  · intro timer ht
    rw [htimer] at ht
    rw [hgen]
    exact Nat.le_succ_of_le (h.timer timer ht)
  · simp [hpath]
  · rw [hnumbers, hnumber]
    exact h.numbered
  · rw [hnumbers]
    exact h.apart
  · exact fun _ _ _ _ _ ht hs => absurd hs (hnone _ _ _ _ _ ht)
  · rintro g (⟨hheld, -⟩ | ⟨_, _, _, _, ht, hs⟩)
    · rw [hpath] at hheld
      cases hheld
    · exact absurd hs (hnone _ _ _ _ _ ht)

/-- An idle flow that holds nothing yet. -/
structure Blank (w : Flow) : Prop where
  machine : w.machine.phase = .idle ∧ w.machine.busy = false
  abort : w.abort = none
  job : w.downloadJob = none
  path : w.downloadPath = none
  old : ∀ t ∈ w.tasks, t.resumes → t.generation < w.machine.generation

theorem resume_inv {record : RecoveryRecord} {mediaJobId : Uuid} (h : Inv stranded log w)
    (hblank : w.Blank) : Inv stranded log (w.resume record mediaJobId) := by
  obtain ⟨hphase, hbusy⟩ := hblank.machine
  have hbegin : w.machine.beginAction = some { w.machine with busy := true } :=
    FlowMachine.beginAction_eq_some.mpr ⟨hbusy, rfl⟩
  have htransition : ({ w.machine with busy := true } : FlowMachine).transition .submitting =
      some ⟨.submitting, w.machine.generation + 1, true⟩ :=
    FlowMachine.transition_submitting.mpr ⟨hphase, rfl⟩
  simp only [resume, hbegin, htransition, newAbort]
  constructor
  · have hstale : ∀ u ∈ w.tasks, u.resumes → u.isAborted w.aborted := fun u hu hresumes =>
      (h.action.stale u hu hresumes (hblank.old u hu hresumes)).1
    have hstart : Action.Inv stranded
        { machine := ⟨.submitting, w.machine.generation + 1, true⟩
          tasks := .resumeRead (w.machine.generation + 1) mediaJobId record.token w.nextSignal ::
            w.tasks
          abort := some w.nextSignal
          aborted := w.abort.toList ++ w.aborted
          nextSignal := w.nextSignal + 1
          downloadJob := none } :=
      h.action.toSound.start hstale rfl rfl rfl rfl rfl rfl
    rw [hblank.abort, ← hblank.job] at hstart
    exact hstart
  · apply h.grants.renew h.action.bounded
    · exact hblank.path
    · refine ⟨rfl, fun t ht hs => ?_⟩
      rcases List.mem_cons.mp ht with rfl | ht
      · cases hs
      · exact ht
    · rfl
    · rfl
    · rfl
    · rfl

/-- A page that is shown again, or loaded, restores what its session storage holds. -/
theorem restore_inv (h : Inv stranded log w) (hblank : w.Blank) : Inv stranded log w.restore := by
  unfold restore
  dsimp only
  split
  · exact h.same (.of_same rfl rfl) rfl
  · split
    · exact h.same (.of_same rfl rfl) rfl
    · rename_i record _ mediaJobId _
      apply resume_inv
      · exact h.same (.of_same rfl rfl) rfl
      · exact ⟨hblank.machine, hblank.abort, hblank.job, hblank.path, hblank.old⟩

theorem onPageShow_inv {persisted : Bool} (h : Inv stranded log w)
    (hquiet : ∀ t ∈ w.tasks, t.isAborted w.aborted = false) :
    Inv stranded log (w.onPageShow persisted) := by
  unfold onPageShow
  split
  · apply initializeAccount_inv
    apply restore_inv
    · constructor
      · exact h.action.toSound.reset hquiet
      · apply h.grants.granting
        apply Granting.cleared
        · exact fun _ ht _ => ht
        · exact .refl _
        · rfl
        · exact Nat.le_succ _
        · exact Nat.lt_succ_self _
        · rfl
        · rfl
    · refine ⟨⟨rfl, rfl⟩, rfl, rfl, rfl, ?_⟩
      intro t ht _
      exact Nat.lt_succ_of_le (h.action.bounded t ht)
  · exact onForegroundResume_inv h

theorem initial_inv {hooks : ControllerHooks} {session : FlowSession} {now : Int} :
    Inv stranded log (initial hooks session now) := by
  constructor
  · have hsound : Sound (initial hooks session now).toAction :=
      { bounded := by simp [initial]
        freshAborted := by simp [initial]
        freshAbort := by simp [initial]
        own := by simp [initial]
        fits := by simp [initial]
        alone := List.Pairwise.nil
        ready := by simp [initial]
        stale := by simp [initial]
        early := fun h => by cases h
        about := ⟨0, by simp [initial], by simp [initial]⟩
        honest := by simp [initial] }
    have hdriven : Driven stranded (initial hooks session now).toAction := Driven.idle rfl rfl
    exact { hsound, hdriven with }
  · have hrequests : Numbered (initial hooks session now) :=
      ⟨by simp [initial, Request.sentNumbers], List.nodup_nil, by simp [initial]⟩
    refine ⟨hrequests, by simp [initial], by simp [initial], by simp [initial, grantNumbers],
      List.nodup_nil, by simp [initial], ?_⟩
    rintro g (⟨hpath, -⟩ | ⟨_, _, _, _, ht, -⟩)
    · cases hpath
    · cases ht

theorem load_inv : Inv stranded log w.load := by
  apply initializeAccount_inv
  apply restore_inv initial_inv
  exact ⟨⟨rfl, rfl⟩, rfl, rfl, rfl, by simp [initial]⟩

/-! ## Answers and wakes -/

/-- The code after a driver: it was live, or it is stale. -/
theorem Inv.driver (h : Inv stranded log w) (ht : t ∈ w.tasks)
    (hquiet : t.isAborted w.aborted = false) (hdrives : t.drives)
    (hlive : t.generation = w.machine.generation → Sound (w.finish t).toAction →
      Undriven (w.finish t).toAction → t.Fits w.machine.phase →
        (∀ s, t.signal = some s → w.abort = some s ∧ s ∉ w.aborted) →
          Action.Inv stranded w'.toAction ∧ (GrantInv log (w.finish t) → GrantInv log w'))
    (hstale : t.generation < w.machine.generation → Ignored (w.finish t) w') :
    Inv stranded log w' := by
  have hfinish : GrantInv log (w.finish t) := h.grants.granting .finish
  by_cases hgen : t.generation = w.machine.generation
  · have hcurrent : t.live w.machine.generation w.aborted := by
      simp [Await.live, Await.current, hdrives, hgen, hquiet]
    obtain ⟨haction, hgrants⟩ := hlive hgen (h.action.toSound.sublist List.erase_sublist)
      (h.action.undriven_erase ht hcurrent) (h.action.fits t ht hcurrent) (fun s hs => by
        refine ⟨h.action.own t ht hcurrent s hs, fun hmem => ?_⟩
        rw [Await.isAborted_iff.mpr ⟨s, hs, hmem⟩] at hquiet
        cases hquiet)
    exact ⟨haction, hgrants hfinish⟩
  · have hlt : t.generation < w.machine.generation :=
      Nat.lt_of_le_of_ne (h.action.bounded t ht) hgen
    have hdead : t.live w.machine.generation w.aborted = false :=
      Await.not_live_of_not_current (Await.not_current_of_ne hgen)
    have hignored := hstale hlt
    exact ⟨hignored.inv (h.action.erase hdead), hfinish.granting hignored.granting⟩

/-- What no driver is may be dropped. -/
theorem Inv.finish (h : Inv stranded log w) (hdead : t.live w.machine.generation w.aborted = false) :
    Inv stranded log (w.finish t) :=
  ⟨h.action.erase hdead, h.grants.granting .finish⟩

theorem not_live_of_not_drives {generation : Nat} {aborted : List Nat} (h : t.drives = false) :
    t.live generation aborted = false := by
  simp [Await.live, Await.current, h]

theorem error_ne_abort {α : Type} {err : Thrown} (h : err ≠ .abort) :
    (Except.error err : Except Thrown α) ≠ .error .abort := by
  rintro ⟨⟩
  exact h rfl

/-- The download of an await of this generation is the one at hand. -/
theorem Inv.about_finish (h : Inv stranded log w) (ht : t ∈ w.tasks)
    (hgen : t.generation = w.machine.generation) {id : Uuid} (hjob : t.job = some id) :
    Action.About (w.finish t).toAction id := by
  obtain ⟨htasks, hdownload⟩ := h.action.about_job ht hgen hjob
  exact ⟨fun u hu => htasks u (List.mem_of_mem_erase hu), hdownload⟩

theorem inspectionPoll_inv {caller : InspectionCaller} {poll : Poll}
    (outcome : Except Thrown InspectionJob) (h : Inv stranded log w)
    (ht : .inspectionPoll caller poll ∈ w.tasks)
    (hquiet : (Await.inspectionPoll caller poll).isAborted w.aborted = false)
    (hout : outcome ≠ .error .abort) :
    Inv stranded log
      ((w.finish (.inspectionPoll caller poll)).inspectionAnswered caller poll outcome) := by
  apply h.driver ht hquiet rfl
  · intro hgen hs hidle hfits hown
    exact ⟨inspectionAnswered_inv hs hidle hgen hfits (hown _ rfl).1 hout,
      fun hgrants => hgrants.granting (.inspectionAnswered hfits)⟩
  · exact fun hlt => inspectionAnswered_ignored hlt

theorem inspectionWake_inv {caller : InspectionCaller} {poll : Poll} {timedOut : Bool}
    (h : Inv stranded log w) (ht : .inspectionPoll caller poll ∈ w.tasks)
    (hquiet : (Await.inspectionPoll caller poll).isAborted w.aborted = false) :
    Inv stranded log
      ((w.finish (.inspectionPoll caller poll)).woken (.inspectionPoll caller poll) timedOut) := by
  apply h.driver ht hquiet rfl
  · intro hgen hs hidle hfits hown
    simp only [woken]
    split
    · exact ⟨catchInspection_inv hs hidle hgen (by simp) (.inr hfits),
        fun hgrants => hgrants.granting (.catchInspection (.inr hfits))⟩
    · exact ⟨readInspection_inv hs hidle hgen hfits (hown _ rfl).1 (hown _ rfl).2,
        fun hgrants => hgrants.granting (.readInspection hfits)⟩
  · intro hlt
    simp only [woken]
    split
    · exact catchInspection_ignored _ (Nat.ne_of_lt hlt)
    · exact readInspection_ignored hlt

/-- A restored download is never stale where nothing is aborted. -/
theorem Inv.not_stale (h : Inv stranded log w) (ht : t ∈ w.tasks)
    (hquiet : t.isAborted w.aborted = false) (hlt : t.generation < w.machine.generation) :
    t.resumes = false := by
  by_contra hresumes
  have haborted := (h.action.stale t ht (eq_true_of_ne_false hresumes) hlt).1
  rw [hquiet] at haborted
  cases haborted

theorem downloadPoll_inv {caller : DownloadCaller} {poll : Poll}
    (outcome : Except Thrown DownloadJob) (h : Inv stranded log w)
    (ht : .downloadPoll caller poll ∈ w.tasks)
    (hquiet : ∀ t ∈ w.tasks, t.isAborted w.aborted = false)
    (hjob : ∀ job, outcome = .ok job → job.id = poll.jobId) (hout : outcome ≠ .error .abort)
    (hstrand : caller = .resumed →
      ((w.finish (.downloadPoll caller poll)).downloadAnswered caller poll outcome).GaveUp →
        stranded) :
    Inv stranded log
      ((w.finish (.downloadPoll caller poll)).downloadAnswered caller poll outcome) := by
  have hquiet' : ∀ t ∈ (w.finish (.downloadPoll caller poll)).tasks, t.isAborted w.aborted = false :=
    fun t ht => hquiet t (List.mem_of_mem_erase ht)
  apply h.driver ht (hquiet _ ht) rfl
  · intro hgen hs hidle hfits hown
    have habout := h.about_finish ht hgen rfl
    exact ⟨downloadAnswered_inv hs hidle hquiet' hgen hfits (hown _ rfl).1 habout hjob hout hstrand,
      fun hgrants => hgrants.downloadAnswered hgen hfits⟩
  · intro hlt
    have hfresh := h.not_stale ht (hquiet _ ht) hlt
    cases caller with
    | resumed => cases hfresh
    | enqueue => exact downloadAnswered_ignored hlt

theorem downloadWake_inv {caller : DownloadCaller} {poll : Poll} {timedOut : Bool}
    (h : Inv stranded log w) (ht : .downloadPoll caller poll ∈ w.tasks)
    (hquiet : ∀ t ∈ w.tasks, t.isAborted w.aborted = false)
    (hstrand : caller = .resumed →
      ((w.finish (.downloadPoll caller poll)).woken (.downloadPoll caller poll) timedOut).GaveUp →
        stranded) :
    Inv stranded log
      ((w.finish (.downloadPoll caller poll)).woken (.downloadPoll caller poll) timedOut) := by
  apply h.driver ht (hquiet _ ht) rfl
  · intro hgen hs hidle hfits hown
    have habout := h.about_finish ht hgen rfl
    simp only [woken] at hstrand ⊢
    cases timedOut with
    | true =>
      exact ⟨catchDownload_inv hs hidle hgen hfits (by simp) hstrand,
        fun hgrants => hgrants.granting (.catchDownload hfits)⟩
    | false =>
      exact ⟨readDownload_inv hs hidle hgen hfits (hown _ rfl).1 (hown _ rfl).2 habout hstrand,
        fun hgrants => hgrants.granting (.readDownload hfits)⟩
  · intro hlt
    have hfresh := h.not_stale ht (hquiet _ ht) hlt
    cases caller with
    | resumed => cases hfresh
    | enqueue =>
      simp only [woken]
      split
      · exact catchEnqueue_ignored (Nat.ne_of_lt hlt)
      · exact readDownload_ignored hlt

theorem upgradeAnswer_inv {generation : Nat} {jobId : Uuid} {token : AccessToken}
    (outcome : Except Thrown DownloadJob) (h : Inv stranded log w)
    (ht : .upgrade generation jobId token ∈ w.tasks)
    (hquiet : ∀ t ∈ w.tasks, t.isAborted w.aborted = false)
    (hjob : ∀ job, outcome = .ok job → job.id = jobId) :
    Inv stranded log
      ((w.finish (.upgrade generation jobId token)).upgradeAnswered generation outcome) := by
  have hfinish : Inv stranded log (w.finish (.upgrade generation jobId token)) :=
    h.finish (not_live_of_not_drives rfl)
  constructor
  · apply upgradeAnswered_inv hfinish.action
    · exact fun t ht => hquiet t (List.mem_of_mem_erase ht)
    · intro job hout hgen
      rw [hjob job hout]
      exact h.about_finish ht hgen rfl
  · apply hfinish.grants.upgradeAnswered
    intro job hout hgen d hd
    rw [hjob job hout]
    exact (h.action.about_job ht hgen rfl).2 d hd

theorem cancelAnswer_inv {generation : Nat} {jobId : Uuid} {token : AccessToken}
    {signal : Option Nat} (outcome : Except Thrown DownloadJob) (h : Inv stranded log w)
    (ht : .cancel generation jobId token signal ∈ w.tasks)
    (hquiet : ∀ t ∈ w.tasks, t.isAborted w.aborted = false)
    (hjob : ∀ job, outcome = .ok job → job.id = jobId) :
    Inv stranded log
      ((w.finish (.cancel generation jobId token signal)).cancelAnswered generation outcome) := by
  have hfinish : Inv stranded log (w.finish (.cancel generation jobId token signal)) :=
    h.finish (not_live_of_not_drives rfl)
  constructor
  · apply cancelAnswered_inv hfinish.action
    · exact fun t ht => hquiet t (List.mem_of_mem_erase ht)
    · intro job hout hgen
      refine ⟨?_, ?_⟩
      · by_contra hearly
        have hnone := (h.action.early (eq_true_of_ne_false hearly)).2 _ ht hgen
        cases hnone
      · rw [hjob job hout]
        exact h.about_finish ht hgen rfl
  · apply hfinish.grants.granting
    apply Granting.cancelAnswered
    intro job hout hgen d hd
    rw [hjob job hout]
    exact (h.action.about_job ht hgen rfl).2 d hd

/-- An await that was answered, where nothing is aborted. -/
theorem answered_inv {a : Answer} (h : Inv stranded log w) (ht : t ∈ w.tasks)
    (hquiet : ∀ t ∈ w.tasks, t.isAborted w.aborted = false) (haccepts : t.accepts a)
    (hcommit : ∃ commit ∈ log, commit.actor = .answer t a)
    (hstrand : t.resumes → ((w.finish t).answered t a).GaveUp → stranded) :
    Inv stranded log ((w.finish t).answered t a) := by
  have hquiet' : ∀ u ∈ (w.finish t).tasks, u.isAborted w.aborted = false :=
    fun u hu => hquiet u (List.mem_of_mem_erase hu)
  cases t with
  | resumeRead generation jobId token signal =>
    have hanswer : ∀ outcome : Except Thrown InspectionJob, outcome ≠ .error .abort →
        Inv stranded log ((w.finish (.resumeRead generation jobId token signal)).resumeAnswered
          generation outcome) := by
      intro outcome hout
      apply h.driver ht (hquiet _ ht) rfl
      · intro hgen hs hidle hfits hown
        exact ⟨resumeAnswered_inv hs hidle hgen hfits (hown _ rfl).1 (hown _ rfl).2 hout,
          fun hgrants => hgrants.granting (.resumeAnswered hfits)⟩
      · exact fun hlt => resumeAnswered_ignored (Nat.ne_of_lt hlt)
    cases a with
    | inspection job => exact hanswer (.ok job) (by simp)
    | error err => exact hanswer (.error err) (error_ne_abort (by simpa [accepts] using haccepts))
    | download | grant => cases haccepts
  | submitCreate generation token signal =>
    have hanswer : ∀ outcome : Except Thrown InspectionJob, outcome ≠ .error .abort →
        Inv stranded log ((w.finish (.submitCreate generation token signal)).submitAnswered
          generation outcome) := by
      intro outcome hout
      apply h.driver ht (hquiet _ ht) rfl
      · intro hgen hs hidle hfits hown
        exact ⟨submitAnswered_inv hs hidle hgen hfits (hown _ rfl).1 (hown _ rfl).2 hout,
          fun hgrants => hgrants.granting (.submitAnswered hfits)⟩
      · exact fun hlt => submitAnswered_ignored (Nat.ne_of_lt hlt)
    cases a with
    | inspection job => exact hanswer (.ok job) (by simp)
    | error err => exact hanswer (.error err) (error_ne_abort (by simpa [accepts] using haccepts))
    | download | grant => cases haccepts
  | inspectionPoll caller poll =>
    cases a with
    | inspection job => exact inspectionPoll_inv (.ok job) h ht (hquiet _ ht) (by simp)
    | error err =>
      have herr : err ≠ .abort := by
        have hboth : poll.waiting = false ∧ err ≠ .abort := by simpa [accepts] using haccepts
        exact hboth.2
      exact inspectionPoll_inv (.error err) h ht (hquiet _ ht) (error_ne_abort herr)
    | download | grant => cases haccepts
  | resumeDownload generation downloadId token signal =>
    have hanswer : ∀ outcome : Except Thrown DownloadJob,
        (((w.finish (.resumeDownload generation downloadId token signal)).resumeDownloadAnswered
          generation outcome).GaveUp → stranded) →
        Inv stranded log ((w.finish
          (.resumeDownload generation downloadId token signal)).resumeDownloadAnswered
            generation outcome) := by
      intro outcome hstrand
      apply h.driver ht (hquiet _ ht) rfl
      · intro hgen hs hidle hfits hown
        exact ⟨resumeDownloadAnswered_inv hs hidle hquiet' hgen hfits (hown _ rfl).1 (hown _ rfl).2
            hstrand,
          fun hgrants => hgrants.granting (.resumeDownloadAnswered hfits)⟩
      · intro hlt
        have hfresh := h.not_stale ht (hquiet _ ht) hlt
        cases hfresh
    cases a with
    | download job => exact hanswer (.ok job) (hstrand rfl)
    | error err => exact hanswer (.error err) (hstrand rfl)
    | inspection | grant => cases haccepts
  | downloadPoll caller poll =>
    cases a with
    | download job =>
      have hid : poll.waiting = false ∧ job.id = poll.jobId := by simpa [accepts] using haccepts
      apply downloadPoll_inv (.ok job) h ht hquiet
      · rintro job' ⟨⟩
        exact hid.2
      · simp
      · rintro rfl
        exact hstrand rfl
    | error err =>
      have herr : poll.waiting = false ∧ err ≠ .abort := by simpa [accepts] using haccepts
      apply downloadPoll_inv (.error err) h ht hquiet
      · intro job' hjob'
        cases hjob'
      · exact error_ne_abort herr.2
      · rintro rfl
        exact hstrand rfl
    | inspection | grant => cases haccepts
  | enqueueCreate generation mediaJobId formatOptionId token signal =>
    have hanswer : ∀ outcome : Except Thrown DownloadJob, outcome ≠ .error .abort →
        Inv stranded log ((w.finish
          (.enqueueCreate generation mediaJobId formatOptionId token signal)).createAnswered
            generation outcome) := by
      intro outcome hout
      apply h.driver ht (hquiet _ ht) rfl
      · intro hgen hs hidle hfits hown
        exact ⟨createAnswered_inv hs hidle hquiet' hgen hfits (hown _ rfl).1 (hown _ rfl).2 hout,
          fun hgrants => hgrants.granting (.createAnswered hfits)⟩
      · exact fun hlt => createAnswered_ignored (Nat.ne_of_lt hlt)
    cases a with
    | download job => exact hanswer (.ok job) (by simp)
    | error err => exact hanswer (.error err) (error_ne_abort (by simpa [accepts] using haccepts))
    | inspection | grant => cases haccepts
  | upgrade generation jobId token =>
    cases a with
    | download job =>
      apply upgradeAnswer_inv (.ok job) h ht hquiet
      rintro job' ⟨⟩
      simpa [accepts] using haccepts
    | error err => exact upgradeAnswer_inv (.error err) h ht hquiet fun _ hok => by cases hok
    | inspection | grant => cases haccepts
  | grant generation grantGeneration jobId token previous =>
    have hanswer : ∀ outcome : Except Thrown BrowserGrant,
        (∀ g, outcome = .ok g → ∃ commit ∈ log, commit.actor =
          .answer (.grant generation grantGeneration jobId token previous) (.grant g)) →
        Inv stranded log ((w.finish
          (.grant generation grantGeneration jobId token previous)).grantAnswered
            generation grantGeneration previous outcome) := by
      intro outcome hout
      have hfinish : Inv stranded log
          (w.finish (.grant generation grantGeneration jobId token previous)) :=
        h.finish (not_live_of_not_drives rfl)
      refine ⟨?_, h.grants.grantAnswered ht hout⟩
      rw [grantAnswered_toAction]
      exact hfinish.action
    cases a with
    | grant g =>
      apply hanswer (.ok g)
      rintro g' ⟨⟩
      exact hcommit
    | error err => exact hanswer (.error err) fun _ hok => by cases hok
    | inspection | download => cases haccepts
  | cancel generation jobId token signal =>
    cases a with
    | download job =>
      apply cancelAnswer_inv (.ok job) h ht hquiet
      rintro job' ⟨⟩
      simpa [accepts] using haccepts
    | error err => exact cancelAnswer_inv (.error err) h ht hquiet fun _ hok => by cases hok
    | inspection | grant => cases haccepts
  | enqueueQuota | enqueueLapsed | account => cases a <;> cases haccepts

/-! ## Reactions -/

theorem Inv.ignored (h : Inv stranded log w) (hignored : Ignored w w') : Inv stranded log w' :=
  ⟨hignored.inv h.action, h.grants.granting hignored.granting⟩

theorem catchInspection_aborted (caller : InspectionCaller) (h : Inv stranded log w) :
    Inv stranded log (catchInspection caller .abort generation w) := by
  cases caller with
  | submit =>
    rw [show catchInspection .submit .abort generation w = w from fail_abort]
    exact h
  | resume =>
    rw [show catchInspection .resume .abort generation w = { w with resumeDownloadId := none } from
      fail_abort]
    exact h.same (.of_same rfl rfl) rfl

theorem catchEnqueue_aborted (h : Inv stranded log w) :
    Inv stranded log (w.catchEnqueue .abort generation) := by
  unfold catchEnqueue
  split
  · exact h
  · split
    · exact h
    · split
      · exact h
      · rw [fail_abort]
        exact h.same .refreshQuota refreshQuota_toAction

/-- A restored download whose read was aborted is given up. -/
theorem catchResumed_aborted (h : Inv stranded log w)
    (hstale : generation ≠ w.machine.generation → w.downloadJob = none)
    (hready : generation = w.machine.generation → w.machine.phase ≠ .ready) :
    Inv stranded log (w.catchResumed .abort generation) := by
  by_cases hgen : generation = w.machine.generation
  · refine ⟨?_, h.grants.granting (.catchResumed (hready hgen))⟩
    rw [catchResumed_toAction hgen]
    have hsound : Sound { w.toAction with downloadJob := none, machine := w.machine.endAction } :=
      h.action.toSound.noJob.setBusy
    have hdriven : Driven stranded
        { w.toAction with downloadJob := none, machine := w.machine.endAction } :=
      h.action.setBusyFalse.toDriven.setJob
    exact { hsound, hdriven with }
  · exact h.ignored (catchResumed_ignored hgen (hstale hgen))

theorem restored_aborted (h : Inv stranded log w) (ht : t ∈ w.tasks) (hresumes : t.resumes)
    (hdead : t.live w.machine.generation w.aborted = false) :
    Inv stranded log ((w.finish t).catchResumed .abort t.generation) := by
  apply catchResumed_aborted (h.finish hdead)
  · intro hne
    have hlt := Nat.lt_of_le_of_ne (h.action.bounded t ht) hne
    exact (h.action.stale t ht hresumes hlt).2
  · intro hgen hphase
    have hcurrent := h.action.ready hphase t ht
    have hdrives : t.drives = true := by cases t <;> simp_all [Await.resumes, Await.drives]
    rw [Await.current, hdrives, show t.generation = w.machine.generation from hgen] at hcurrent
    simp at hcurrent

/-- An await whose signal was aborted. -/
theorem rejected_inv (h : Inv stranded log w) (ht : t ∈ w.tasks) (haborted : w.isAborted t) :
    Inv stranded log ((w.finish t).rejected t) := by
  have hdead : ∀ s, t.signal = some s → s ∈ w.aborted →
      t.live w.machine.generation w.aborted = false := by
    intro s hs hmem
    simp [Await.live, Await.isAborted_iff.mpr ⟨s, hs, hmem⟩]
  cases t with
  | resumeRead generation jobId token signal =>
    have hmem : signal ∈ w.aborted := by simpa [isAborted, Await.signal] using haborted
    exact catchInspection_aborted .resume (h.finish (hdead _ rfl hmem))
  | submitCreate generation token signal =>
    have hmem : signal ∈ w.aborted := by simpa [isAborted, Await.signal] using haborted
    exact catchInspection_aborted .submit (h.finish (hdead _ rfl hmem))
  | inspectionPoll caller poll =>
    have hmem : poll.signal ∈ w.aborted := by simpa [isAborted, Await.signal] using haborted
    exact catchInspection_aborted _ (h.finish (hdead _ rfl hmem))
  | resumeDownload generation downloadId token signal =>
    have hmem : signal ∈ w.aborted := by simpa [isAborted, Await.signal] using haborted
    exact restored_aborted h ht rfl (hdead _ rfl hmem)
  | downloadPoll caller poll =>
    have hmem : poll.signal ∈ w.aborted := by simpa [isAborted, Await.signal] using haborted
    cases caller with
    | resumed => exact restored_aborted h ht rfl (hdead _ rfl hmem)
    | enqueue => exact catchEnqueue_aborted (h.finish (hdead _ rfl hmem))
  | enqueueCreate generation mediaJobId formatOptionId token signal =>
    have hmem : signal ∈ w.aborted := by simpa [isAborted, Await.signal] using haborted
    exact catchEnqueue_aborted (h.finish (hdead _ rfl hmem))
  | cancel generation jobId token signal =>
    have hfinish : Inv stranded log (w.finish (.cancel generation jobId token signal)) :=
      h.finish (not_live_of_not_drives rfl)
    have hsame : (w.finish (.cancel generation jobId token signal)).cancelAnswered generation
        (.error .abort) = w.finish (.cancel generation jobId token signal) := by
      simp [cancelAnswered]
    show Inv stranded log ((w.finish (.cancel generation jobId token signal)).cancelAnswered
      generation (.error .abort))
    rw [hsame]
    exact hfinish
  | grant generation grantGeneration jobId token previous =>
    have hfinish : Inv stranded log
        (w.finish (.grant generation grantGeneration jobId token previous)) :=
      h.finish (not_live_of_not_drives rfl)
    show Inv stranded log ((w.finish
      (.grant generation grantGeneration jobId token previous)).grantAnswered generation
        grantGeneration previous (.error .abort))
    refine ⟨?_, h.grants.grantAnswered ht fun _ hok => by cases hok⟩
    rw [grantAnswered_toAction]
    exact hfinish.action
  | upgrade | enqueueQuota | enqueueLapsed | account => cases haborted

theorem reaction_inv (h : Inv stranded log w) (ht : t ∈ w.tasks) (hreacts : w.reacts t)
    (hstrand : t = .enqueueLapsed w.machine.generation true → w.machine.phase = .downloading →
      stranded) :
    Inv stranded log ((w.finish t).reaction t) := by
  have hrejected (hsettled : t.settled = false) : Inv stranded log ((w.finish t).rejected t) := by
    apply rejected_inv h ht
    simpa [reacts, hsettled] using hreacts
  cases t with
  | enqueueQuota generation formatOptionId settled =>
    cases settled with
    | none => cases hreacts
    | some rejected =>
      have hhonest := h.action.honest _ ht
      apply h.driver ht rfl rfl
      · intro hgen hs hidle hfits hown
        refine ⟨enqueueQuotaSettled_inv hs hidle hgen hfits ?_,
          fun hgrants => hgrants.granting (.enqueueQuotaSettled hfits)⟩
        rintro rfl
        cases hhonest
      · exact fun hlt => enqueueQuotaSettled_ignored hlt
  | enqueueLapsed generation settled =>
    cases settled with
    | false => cases hreacts
    | true =>
      apply h.driver ht rfl rfl
      · intro hgen hs hidle hfits hown
        have hready : w.machine.phase ≠ .ready := by
          rcases hfits with hphase | hphase | hphase <;> simp [hphase]
        refine ⟨enqueueLapsedSettled_inv hs hidle hgen ?_ hfits ?_,
          fun hgrants => hgrants.granting (.enqueueLapsedSettled hready)⟩
        · intro hphase
          by_contra hbusy
          have hworks := h.action.phase (eq_true_of_ne_false hbusy)
          rw [show w.machine.phase = .cancelled from hphase] at hworks
          rcases hworks with hworks | hworks <;> cases hworks
        · intro hphase
          apply hstrand _ hphase
          rw [show generation = w.machine.generation from hgen]
      · exact fun hlt => enqueueLapsedSettled_ignored (Nat.ne_of_lt hlt)
  | account settled =>
    cases settled with
    | none => cases hreacts
    | some rejected =>
      have hfinish : Inv stranded log (w.finish (.account (some rejected))) :=
        h.finish (not_live_of_not_drives rfl)
      simp only [reaction, accountSettled]
      split
      · exact hfinish
      · exact hfinish.same .refreshPremium refreshPremium_toAction
  | resumeRead | submitCreate | inspectionPoll | resumeDownload | downloadPoll | enqueueCreate
  | upgrade | grant | cancel => exact hrejected rfl

/-! ## Settled refreshes -/

/-- What the invariant reads of an await, but for the phase it fits. -/
def core (t : Await) : Nat × Bool × Option Nat × Bool × Option Uuid :=
  (t.generation, t.drives, t.signal, t.resumes, t.job)

/-- Settling the waiters of a refresh. -/
theorem Inv.settle {f : Await → Await} (h : Inv stranded log w) (hcore : ∀ t, core (f t) = core t)
    (hfits : ∀ t phase, t.Fits phase → (f t).Fits phase) (hhonest : ∀ t, t.honest → (f t).honest)
    (hgrant : ∀ t, t.grantNumber.isSome ∨ (f t).grantNumber.isSome → f t = t)
    (haction : w'.toAction = { w.toAction with tasks := w.tasks.map f })
    (hsame : w'.toGrantState = w.toGrantState) : Inv stranded log w' := by
  simp only [core, Prod.mk.injEq] at hcore
  constructor
  · rw [haction]
    have hsound := h.action.toSound.map (fun t => (hcore t).1) (fun t => (hcore t).2.1)
      (fun t => (hcore t).2.2.1) (fun t => (hcore t).2.2.2.1) (fun t => (hcore t).2.2.2.2)
      (fun t => hfits t w.machine.phase) hhonest
    have hdriven := h.action.toDriven.map (fun t => (hcore t).1) (fun t => (hcore t).2.1)
      (fun t => (hcore t).2.2.1)
    exact { hsound, hdriven with }
  · apply h.grants.granting
    have htasks : w'.tasks = w.tasks.map f := congrArg Action.tasks haction
    have hnumber : ∀ t, (f t).grantNumber = t.grantNumber := by
      intro t
      cases hold : t.grantNumber with
      | some n => rw [hgrant t (.inl (by simp [hold])), hold]
      | none =>
        by_contra hnew
        obtain ⟨n, hn⟩ := Option.ne_none_iff_exists'.mp hnew
        rw [hgrant t (.inr (by simp [hn])), hold] at hn
        cases hn
    have hnumbers : grantNumbers w'.tasks = grantNumbers w.tasks := by
      rw [htasks, grantNumbers, List.filterMap_map]
      exact List.filterMap_congr fun t _ => hnumber t
    apply Granting.kept
    · intro t ht hs
      rw [htasks] at ht
      obtain ⟨u, hu, rfl⟩ := List.mem_map.mp ht
      rw [hgrant u (.inr hs)]
      exact hu
    · rw [hnumbers]
    · rw [hsame]
    · rw [haction]
    · rw [hsame]
    · rw [hsame]
      exact .inl ⟨rfl, rfl⟩
    · rw [hsame]
      exact .inr rfl
    · rw [hsame]
    · rw [haction]
      exact fun h => ⟨h, fun _ hid => hid⟩

theorem quotaSettled_eq (outcome : Except Thrown (Option FreeQuota)) (w : Flow) :
    ∃ rejected freeQuota, rejected ≠ some .abort ∧ w.quotaSettled outcome =
      { w with freeQuota, quotaRefresh := none, tasks := w.tasks.map (settleQuota rejected) } := by
  cases outcome with
  | ok next => exact ⟨none, next, by simp, rfl⟩
  | error err =>
    by_cases hsilent : err = .abort ∨ w.quotaRefresh = some true
    · exact ⟨none, w.freeQuota, by simp, by simp [quotaSettled, hsilent]⟩
    · refine ⟨some err, w.freeQuota, ?_, by simp [quotaSettled, hsilent]⟩
      rintro ⟨⟩
      exact hsilent (.inl rfl)

theorem quotaSettled_inv {outcome : Except Thrown (Option FreeQuota)} (h : Inv stranded log w) :
    Inv stranded log (w.quotaSettled outcome) := by
  obtain ⟨rejected, freeQuota, habort, heq⟩ := quotaSettled_eq outcome w
  rw [heq]
  apply h.settle (f := settleQuota rejected)
  · intro t
    cases t with
    | enqueueQuota _ _ settled | account settled => cases settled <;> rfl
    | _ => rfl
  · intro t phase hfits
    cases t with
    | enqueueQuota _ _ settled | account settled => cases settled <;> exact hfits
    | _ => exact hfits
  · intro t hhonest
    cases t with
    | enqueueQuota _ _ settled =>
      cases settled with
      | some _ => exact hhonest
      | none =>
        cases rejected with
        | none => rfl
        | some err => cases err <;> first | rfl | exact absurd rfl habort
    | account settled => cases settled <;> rfl
    | _ => rfl
  · intro t hgrant
    cases t with
    | enqueueQuota _ _ settled | account settled =>
      cases settled <;> rcases hgrant with hgrant | hgrant <;> cases hgrant
    | _ => rfl
  · rfl
  · rfl

theorem premiumSettled_inv {outcome : Except Thrown Bool} (h : Inv stranded log w) :
    Inv stranded log (w.premiumSettled outcome) := by
  have hsettle : ∀ premiumState, Inv stranded log
      { w with premiumState, premiumRefresh := false, tasks := w.tasks.map settlePremium } := by
    intro premiumState
    apply h.settle (f := settlePremium)
    · intro t
      cases t with
      | enqueueLapsed _ settled => cases settled <;> rfl
      | _ => rfl
    · intro t phase hfits
      cases t with
      | enqueueLapsed _ settled => cases settled <;> exact hfits
      | _ => exact hfits
    · intro t hhonest
      cases t with
      | enqueueLapsed _ settled => cases settled <;> rfl
      | _ => exact hhonest
    · intro t hgrant
      cases t with
      | enqueueLapsed _ settled =>
        cases settled <;> rcases hgrant with hgrant | hgrant <;> cases hgrant
      | _ => rfl
    · rfl
    · rfl
  have hupgrade : ∀ w' : Flow, Inv stranded log w' →
      Inv stranded log (if w'.premiumState = .active then w'.upgradeToPremium false else w') := by
    intro w' h'
    split
    · exact h'.upgrade
    · exact h'
  exact hupgrade _ (hsettle _)

/-! ## Runs -/

/-- The await that an event resumes. -/
def resumedBy : Event → Option Await
  | .answer t _ | .wake t _ | .react t => some t
  | _ => none

/-- The event leaves a download without a driver: the read of a restored one failed for good, or
the lapse of Premium was noticed only while it was running. -/
def Strands (commit : Commit Event Flow) : Prop :=
  (∃ t, resumedBy commit.actor = some t ∧ t.resumes ∧ commit.after.GaveUp) ∨
    (commit.actor = .react (.enqueueLapsed commit.before.machine.generation true) ∧
      commit.before.machine.phase = .downloading)

theorem external_inv {e : Event} (h : Inv stranded log w)
    (hquiet : ∀ t ∈ w.tasks, t.isAborted w.aborted = false) (hstep : w.external e = some w')
    (hcommit : ∃ commit ∈ log, commit.actor = e)
    (hstrand : (∃ t, resumedBy e = some t ∧ t.resumes ∧ w'.GaveUp) → stranded) :
    Inv stranded log w' := by
  cases e with
  | submit token => exact Option.some.inj hstep ▸ submit_inv h hquiet
  | selectFormat formatOptionId => exact Option.some.inj hstep ▸ selectFormat_inv h
  | enqueueDownload => exact Option.some.inj hstep ▸ enqueueDownload_inv h
  | upgradeToPremium => exact Option.some.inj hstep ▸ h.upgrade
  | nativeDownloadClick => exact Option.some.inj hstep ▸ onNativeDownloadClick_inv h
  | retryGrantAccess => exact Option.some.inj hstep ▸ retryGrantAccess_inv h
  | startOver => exact Option.some.inj hstep ▸ startOver_inv h hquiet
  | cancelTask => exact Option.some.inj hstep ▸ cancelTask_inv h
  | pageHide => exact Option.some.inj hstep ▸ onPageHide_inv h
  | foregroundResume => exact Option.some.inj hstep ▸ onForegroundResume_inv h
  | pageShow persisted => exact Option.some.inj hstep ▸ onPageShow_inv h hquiet
  | reload => exact Option.some.inj hstep ▸ load_inv
  | grantRefresh =>
    obtain ⟨timer, htimer, hstep⟩ := Option.bind_eq_some_iff.mp hstep
    split at hstep
    · obtain rfl := Option.some.inj hstep
      have hstop : Granting w { w with grantRefreshTimer := none } :=
        .of_action rfl rfl rfl (.inl ⟨rfl, rfl⟩) (.inl rfl) rfl
      exact (h.same hstop rfl).arm (h.grants.timer timer htimer)
    · cases hstep
  | elapse ms =>
    exact Option.some.inj hstep ▸ h.same (.of_same rfl rfl) rfl
  | quota outcome =>
    simp only [external] at hstep
    split at hstep
    · exact Option.some.inj hstep ▸ quotaSettled_inv h
    · cases hstep
  | premium outcome =>
    simp only [external] at hstep
    split at hstep
    · exact Option.some.inj hstep ▸ premiumSettled_inv h
    · cases hstep
  | answer t a =>
    simp only [external] at hstep
    split at hstep
    · rename_i hmay
      obtain rfl := Option.some.inj hstep
      exact answered_inv h hmay.1 hquiet hmay.2 hcommit fun hresumes hgave =>
        hstrand ⟨t, rfl, hresumes, hgave⟩
    · cases hstep
  | wake t timedOut =>
    simp only [external] at hstep
    split at hstep
    · rename_i hmay
      obtain ⟨ht, hwakes⟩ := hmay
      obtain rfl := Option.some.inj hstep
      cases t with
      | inspectionPoll caller poll => exact inspectionWake_inv h ht (hquiet _ ht)
      | downloadPoll caller poll =>
        apply downloadWake_inv h ht hquiet
        rintro rfl hgave
        exact hstrand ⟨_, rfl, rfl, hgave⟩
      | _ => cases hwakes
    · cases hstep
  | react t => cases hstep

theorem quiet_spec (hquiet : w.quiet) : ∀ t ∈ w.tasks, t.isAborted w.aborted = false := by
  intro t ht
  have hreacts := List.all_eq_true.mp hquiet t ht
  simp only [reacts, Bool.not_eq_true', Bool.or_eq_false_iff] at hreacts
  cases t with
  | grant => rfl
  | _ => exact hreacts.1

/-- Every step keeps the invariant. -/
theorem step_inv {e : Event} (h : Inv stranded log w) (hstep : w.step e = some w') :
    Inv (stranded ∨ Strands ⟨e, w, w'⟩) (⟨e, w, w'⟩ :: log) w' := by
  have h' : Inv (stranded ∨ Strands ⟨e, w, w'⟩) (⟨e, w, w'⟩ :: log) w := h.mono .inl _
  have hcommit : ∃ commit ∈ (⟨e, w, w'⟩ :: log : List (Commit Event Flow)), commit.actor = e :=
    ⟨_, List.mem_cons_self, rfl⟩
  unfold step at hstep
  split at hstep
  · split at hstep
    · rename_i t hmay
      obtain rfl := Option.some.inj hstep
      apply reaction_inv h' hmay.1 hmay.2
      rintro rfl hphase
      exact .inr (.inr ⟨rfl, hphase⟩)
    · cases hstep
  · split at hstep
    · rename_i hquiet
      exact external_inv h' (quiet_spec hquiet) hstep hcommit fun hgave => .inr (.inl hgave)
    · cases hstep

end Flow

end FetchNow.MediaFlow
