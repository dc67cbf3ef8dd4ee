import FetchNow.MediaFlow.Reachable

/-!
# Every run of the flow

The flow is never left without a driver unless it was hidden or its download stranded, nothing of
an earlier generation shows, and a download link is the one the server issued for the download at
hand.
-/
namespace FetchNow.MediaFlow

open Transactions (Commit Run)

/-- The page is loaded. -/
def Event.loads : Event → Bool
  | reload => true
  | _ => false

/-- The call of `cancelTask`. -/
def Await.cancels : Await → Bool
  | cancel .. => true
  | _ => false

namespace Flow

open MediaFlow.Action Await

variable {w w' : Flow} {e : Event} {t : Await} {stranded : Prop} {log : List (Commit Event Flow)}
  {hooks : ControllerHooks} {session : FlowSession} {now : Int}

/-- A step of the page. -/
def Steps (e : Event) (w w' : Flow) : Prop := w.step e = some w'

/-- The commits since the page was loaded. -/
def sinceLoad (log : List (Commit Event Flow)) : List (Commit Event Flow) :=
  log.takeWhile fun commit => !commit.actor.loads

theorem sinceLoad_cons {commit : Commit Event Flow} (hloads : commit.actor.loads = false) :
    sinceLoad (commit :: log) = commit :: sinceLoad log := by
  simp [sinceLoad, hloads]

theorem reload_inv (hloads : e.loads) (hstep : Steps e w w') : Inv stranded log w' := by
  cases e with
  | reload =>
    simp only [Steps, step] at hstep
    split at hstep
    · obtain rfl := Option.some.inj hstep
      exact load_inv
    · cases hstep
  | _ => cases hloads

theorem run_inv (hrun : Run Steps (initial hooks session now) log w) :
    Inv (∃ commit ∈ sinceLoad log, Strands commit) (sinceLoad log) w := by
  induction hrun with
  | start => exact initial_inv
  | @commit log e w w' hrun hstep ih =>
    by_cases hloads : e.loads = true
    · exact reload_inv hloads hstep
    · have hsince : sinceLoad (⟨e, w, w'⟩ :: log) = ⟨e, w, w'⟩ :: sinceLoad log :=
        sinceLoad_cons (eq_false_of_ne_true hloads)
      rw [hsince]
      have hinv := step_inv ih hstep
      refine ⟨hinv.action.mono ?_, hinv.grants⟩
      rintro (⟨commit, hcommit, hstrands⟩ | hstrands)
      · exact ⟨commit, List.mem_cons_of_mem _ hcommit, hstrands⟩
      · exact ⟨_, List.mem_cons_self, hstrands⟩

/-- The run of the events, where each of them can happen. -/
def play (log : List (Commit Event Flow)) (w : Flow) :
    List Event → Option (List (Commit Event Flow) × Flow)
  | [] => some (log, w)
  | e :: events => (w.step e).bind fun w' => play (⟨e, w, w'⟩ :: log) w' events

theorem play_run {events : List Event} {log' : List (Commit Event Flow)} {start : Flow}
    (hrun : Run Steps start log w) (hplay : play log w events = some (log', w')) :
    Run Steps start log' w' := by
  induction events generalizing log w with
  | nil =>
    cases hplay
    exact hrun
  | cons e events ih =>
    obtain ⟨next, hstep, hnext⟩ := Option.bind_eq_some_iff.mp hplay
    exact ih (.commit hrun hstep) hnext

/-- A secure page that picks the first format. -/
def securePage : Flow :=
  initial ⟨true, fun formats _ => formats.head?.map (·.formatOptionId)⟩ none 0

/-- A submission up to its ready download, whose calls are made with this signal and the next. -/
def readyEvents (generation signal : Nat) (id : Uuid) : List Event :=
  let format : MediaFormat := ⟨5, .progressive, true, true, true, .normalVideo, false⟩
  let poll : Poll := ⟨generation, 7, 1, signal, 0, 0, false⟩
  [.submit 7,
    .answer (.submitCreate generation 7 signal)
      (.inspection ⟨1, .queued, 60000, none, none, .legacy⟩),
    .answer (.inspectionPoll .submit poll)
      (.inspection ⟨1, .inspected, 60000, none, some ⟨[format], false⟩, .legacy⟩),
    .enqueueDownload,
    .quota (.ok (some (.free 3))),
    .react (.enqueueQuota generation 5 (some none)),
    .answer (.enqueueCreate generation 1 5 (some 7) (signal + 1))
      (.download ⟨id, .queued, 5, 0, 60000, none, .queued, none, 0, true⟩),
    .answer (.downloadPoll .enqueue { poll with jobId := id, signal := signal + 1 })
      (.download ⟨id, .ready, 5, 9, 60000, none, .ready, none, 1, false⟩)]

/-- A submission, up to its download link. -/
def linkEvents : List Event :=
  readyEvents 1 0 2 ++ [.answer (.grant 1 3 2 7 none) (.grant ⟨"/download", 50000⟩)]

/-- With Premium a first download is upgraded, and a second one has its link when that upgrade
fails. -/
def staleEvents : List Event :=
  [.foregroundResume, .premium (.ok true)] ++ readyEvents 1 0 2 ++
    [.startOver, .quota (.ok none)] ++ readyEvents 3 2 4 ++
    [.answer (.upgrade 3 4 7) (.error .other),
      .answer (.grant 3 8 4 7 none) (.grant ⟨"/download", 50000⟩),
      .answer (.upgrade 1 2 7) (.error .other)]

/-! ## Earlier generations -/

theorem answered_ignored {a : Answer} (hfresh : t.resumes = false)
    (hlt : t.generation < w.machine.generation) : Ignored w (w.answered t a) := by
  have hne : t.generation ≠ w.machine.generation := Nat.ne_of_lt hlt
  cases t with
  | resumeRead =>
    cases a <;> simp only [answered] <;> first | exact .refl w | exact resumeAnswered_ignored hne
  | submitCreate =>
    cases a <;> simp only [answered] <;> first | exact .refl w | exact submitAnswered_ignored hne
  | inspectionPoll =>
    cases a <;> simp only [answered] <;> first | exact .refl w | exact inspectionAnswered_ignored hlt
  | resumeDownload => cases hfresh
  | downloadPoll caller =>
    cases caller with
    | resumed => cases hfresh
    | enqueue =>
      cases a <;> simp only [answered] <;> first | exact .refl w | exact downloadAnswered_ignored hlt
  | enqueueCreate =>
    cases a <;> simp only [answered] <;> first | exact .refl w | exact createAnswered_ignored hne
  | upgrade =>
    cases a <;> simp only [answered] <;> first | exact .refl w | exact upgradeAnswered_ignored hne
  | grant =>
    cases a <;> simp only [answered] <;> first | exact .refl w | exact grantAnswered_ignored hne
  | cancel =>
    cases a <;> simp only [answered] <;> first | exact .refl w | exact cancelAnswered_ignored hne
  | enqueueQuota | enqueueLapsed | account => cases a <;> exact .refl w

theorem woken_ignored {timedOut : Bool} (hfresh : t.resumes = false)
    (hlt : t.generation < w.machine.generation) : Ignored w (w.woken t timedOut) := by
  have hne : t.generation ≠ w.machine.generation := Nat.ne_of_lt hlt
  cases t with
  | inspectionPoll =>
    simp only [woken]
    split
    · exact catchInspection_ignored _ hne
    · exact readInspection_ignored hlt
  | downloadPoll caller =>
    cases caller with
    | resumed => cases hfresh
    | enqueue =>
      simp only [woken]
      split
      · exact catchEnqueue_ignored hne
      · exact readDownload_ignored hlt
  | _ => exact .refl _

/-- A restored download of an earlier generation was given up before. -/
theorem reaction_scene (hrestored : t.resumes → w.downloadJob = none)
    (hlt : t.generation < w.machine.generation) : (w.reaction t).scene = w.scene := by
  have hne : t.generation ≠ w.machine.generation := Nat.ne_of_lt hlt
  cases t with
  | resumeRead => exact (resumeAnswered_ignored hne).scene
  | submitCreate => exact (submitAnswered_ignored hne).scene
  | inspectionPoll => exact (catchInspection_ignored _ hne).scene
  | resumeDownload => exact (catchResumed_ignored hne (hrestored rfl)).scene
  | downloadPoll caller =>
    apply Ignored.scene
    apply catchDownload_ignored hne
    rintro rfl
    exact hrestored rfl
  | enqueueQuota _ _ settled =>
    cases settled with
    | none => rfl
    | some rejected => exact (enqueueQuotaSettled_ignored hlt).scene
  | enqueueCreate => exact (createAnswered_ignored hne).scene
  | enqueueLapsed _ settled =>
    cases settled with
    | false => rfl
    | true => exact (enqueueLapsedSettled_ignored hne).scene
  | upgrade => exact (upgradeAnswered_ignored hne).scene
  | grant => exact (grantAnswered_ignored hne).scene
  | cancel => exact (cancelAnswered_ignored hne).scene
  | account settled =>
    cases settled with
    | none => rfl
    | some rejected =>
      simp only [reaction, accountSettled]
      split
      · rfl
      · unfold refreshPremium
        split <;> rfl

/-- An event that resumes an await: a reaction, or an answer or a wake while no call is aborted. -/
theorem resumed_cases (hstep : w.step e = some w') (hresumed : resumedBy e = some t) :
    t ∈ w.tasks ∧ (w' = (w.finish t).reaction t ∨
      w.quiet ∧ ((∃ a, w' = (w.finish t).answered t a) ∨
        ∃ timedOut, w' = (w.finish t).woken t timedOut)) := by
  unfold step at hstep
  split at hstep
  · rename_i u
    obtain rfl : u = t := Option.some.inj hresumed
    split at hstep
    · rename_i hmay
      exact ⟨hmay.1, .inl (Option.some.inj hstep).symm⟩
    · cases hstep
  · split at hstep
    · rename_i hquiet
      cases e with
      | answer u a =>
        obtain rfl : u = t := Option.some.inj hresumed
        simp only [external] at hstep
        split at hstep
        · rename_i hmay
          exact ⟨hmay.1, .inr ⟨hquiet, .inl ⟨a, (Option.some.inj hstep).symm⟩⟩⟩
        · cases hstep
      | wake u timedOut =>
        obtain rfl : u = t := Option.some.inj hresumed
        simp only [external] at hstep
        split at hstep
        · rename_i hmay
          exact ⟨hmay.1, .inr ⟨hquiet, .inr ⟨timedOut, (Option.some.inj hstep).symm⟩⟩⟩
        · cases hstep
      | react u => cases hstep
      | _ => cases hresumed
    · cases hstep

/-- Whatever an event resumes of an earlier generation, its answer, its wake or its rejection, the
phase, the jobs, the choice, the token, the recovery record and the download link stay. -/
theorem step_stale (h : Inv stranded log w) (hstep : w.step e = some w')
    (hresumed : resumedBy e = some t) (hlt : t.generation < w.machine.generation) :
    w'.scene = w.scene := by
  obtain ⟨ht, hcases⟩ := resumed_cases hstep hresumed
  rcases hcases with rfl | ⟨hquiet, ⟨a, rfl⟩ | ⟨timedOut, rfl⟩⟩
  · exact reaction_scene (w := w.finish t)
      (fun hresumes => (h.action.stale t ht hresumes hlt).2) hlt
  · have hfresh := h.not_stale ht (quiet_spec hquiet t ht) hlt
    exact (answered_ignored (w := w.finish t) hfresh hlt).scene
  · have hfresh := h.not_stale ht (quiet_spec hquiet t ht) hlt
    exact (woken_ignored (w := w.finish t) hfresh hlt).scene

/-- In every run. A refresh that callers of several generations share is no such await, only their
reaction to it is. -/
theorem stale_run (hrun : Run Steps (initial hooks session now) log w) :
    ∀ commit ∈ log, ∀ t, resumedBy commit.actor = some t →
      t.generation < commit.before.machine.generation →
        commit.after.scene = commit.before.scene := by
  intro commit hcommit t hresumed hlt
  obtain ⟨newer, older, rfl⟩ := List.append_of_mem hcommit
  obtain ⟨hbefore, hstep⟩ := hrun.before rfl
  exact step_stale (run_inv hbefore) hstep hresumed hlt

theorem stale_run_upgrade : ∃ log w, Run Steps securePage log w ∧
    w.downloadHref = some "/download" ∧ ∃ commit ∈ log,
      resumedBy commit.actor = some (.upgrade 1 2 7) ∧
        commit.before.machine.generation = 3 ∧ commit.after.scene = commit.before.scene := by
  have hlast : (play [] securePage staleEvents).map (fun run =>
      (run.1.head?.map fun commit => (resumedBy commit.actor, commit.before.machine.generation),
        run.2.downloadHref)) =
      some (some (some (.upgrade 1 2 7), 3), some "/download") := by decide
  obtain ⟨⟨log, w⟩, hplay, hlog⟩ := Option.map_eq_some_iff.mp hlast
  obtain ⟨hcommits, hhref⟩ := Prod.mk.inj hlog
  obtain ⟨commit, hhead, hcommit⟩ := Option.map_eq_some_iff.mp hcommits
  obtain ⟨hresumed, hgeneration⟩ := Prod.mk.inj hcommit
  have hrun := play_run .start hplay
  have hmem : commit ∈ log := List.mem_of_mem_head? hhead
  have hlt : (Await.upgrade 1 2 7).generation < commit.before.machine.generation := by
    rw [hgeneration]
    decide
  exact ⟨log, w, hrun, hhref, commit, hmem, hresumed, hgeneration,
    stale_run hrun commit hmem _ hresumed hlt⟩

/-! ## The flow does not get stuck -/

/-- The phases in which the flow waits for the user. -/
def waits : FlowPhase → Bool
  | .idle | .inspected | .ready => true
  | phase => phase.terminal

theorem waits_iff {phase : FlowPhase} : waits phase = true ↔ phase.working = false := by
  cases phase <;> simp [waits, FlowPhase.working, FlowPhase.terminal]

/-- The code after a call that drives nothing and cancels nothing. -/
theorem answered_machine {a : Answer} (hdrives : t.drives = false) (hcancels : t.cancels = false) :
    (w.answered t a).machine = w.machine := by
  have hupgrade (generation : Nat) (outcome : Except Thrown DownloadJob) :
      (w.upgradeAnswered generation outcome).machine = w.machine := by
    rcases upgradeAnswered_cases (w := w) outcome with heq | ⟨-, -, next, haction, heq⟩
    · rw [heq]
    · have hnext : next.machine = w.machine := by
        rw [congrArg Action.machine haction]
        cases outcome <;> rfl
      rw [heq, armNativeDownload_machine, hnext]
  cases t with
  | upgrade => cases a <;> first | rfl | exact hupgrade _ _
  | grant => cases a <;> first | rfl | exact congrArg Action.machine grantAnswered_toAction
  | account => cases a <;> rfl
  | cancel => cases hcancels
  | _ => cases hdrives

theorem woken_machine {timedOut : Bool} (hdrives : t.drives = false) :
    (w.woken t timedOut).machine = w.machine := by
  cases t with
  | upgrade | grant | account | cancel => rfl
  | _ => cases hdrives

theorem reaction_machine (hdrives : t.drives = false) (hcancels : t.cancels = false) :
    (w.reaction t).machine = w.machine := by
  cases t with
  | upgrade | grant => exact answered_machine rfl rfl
  | account settled =>
    cases settled with
    | none => rfl
    | some rejected =>
      simp only [reaction, accountSettled]
      split
      · rfl
      · rw [refreshPremium_toAction]
  | cancel => cases hcancels
  | _ => cases hdrives

/-- An aborted driver only frees the machine. -/
theorem reaction_aborted (haborted : t.isAborted w.aborted)
    (hgen : t.generation = w.machine.generation) (hdrives : t.drives) :
    (w.reaction t).machine = w.machine ∨ (w.reaction t).machine = w.machine.endAction := by
  have hinspection : ∀ caller generation,
      (catchInspection caller .abort generation w).machine = w.machine := fun _ _ =>
    congrArg Action.machine catchInspection_abort
  have hresumed : ∀ generation, generation = w.machine.generation →
      (w.catchResumed .abort generation).machine = w.machine.endAction := fun generation heq =>
    congrArg Action.machine (catchResumed_toAction heq)
  cases t with
  | resumeRead generation => exact .inl (hinspection .resume generation)
  | submitCreate generation => exact .inl (hinspection .submit generation)
  | inspectionPoll caller poll => exact .inl (hinspection caller poll.generation)
  | resumeDownload => exact .inr (hresumed _ hgen)
  | downloadPoll caller poll =>
    cases caller with
    | resumed => exact .inr (hresumed _ hgen)
    | enqueue => exact .inl (congrArg Action.machine catchEnqueue_abort)
  | enqueueCreate => exact .inl (congrArg Action.machine catchEnqueue_abort)
  | enqueueQuota | enqueueLapsed => cases haborted
  | upgrade | grant | cancel | account => cases hdrives

/-- Beside the live driver only a cancellation moves the action on. -/
theorem step_unmoved (h : Inv stranded log w) (hstep : w.step e = some w')
    (hresumed : resumedBy e = some t) (hlive : t.live w.machine.generation w.aborted = false)
    (hcancels : t.cancels = false) :
    w'.machine.phase = w.machine.phase ∧ w'.machine.generation = w.machine.generation := by
  obtain ⟨ht, hcases⟩ := resumed_cases hstep hresumed
  rcases Nat.lt_or_eq_of_le (h.action.bounded t ht) with hlt | hgen
  · have hscene := step_stale h hstep hresumed hlt
    exact ⟨congrArg Scene.phase hscene, congrArg Scene.generation hscene⟩
  · by_cases hdrives : t.drives = true
    · have haborted : t.isAborted w.aborted = true := by
        simpa [Await.live, Await.current, hdrives, hgen] using hlive
      rcases hcases with rfl | ⟨hquiet, -⟩
      · rcases reaction_aborted (w := w.finish t) haborted hgen hdrives with heq | heq
        · rw [heq]
          exact ⟨rfl, rfl⟩
        · rw [heq]
          exact ⟨rfl, rfl⟩
      · -- Nothing is answered while a call is aborted.
        rw [quiet_spec hquiet t ht] at haborted
        cases haborted
    · have hother := eq_false_of_ne_true hdrives
      have heq : w'.machine = w.machine := by
        rcases hcases with rfl | ⟨-, ⟨a, rfl⟩ | ⟨timedOut, rfl⟩⟩
        · exact reaction_machine (w := w.finish t) hother hcancels
        · exact answered_machine (w := w.finish t) hother hcancels
        · exact woken_machine (w := w.finish t) hother
      rw [heq]
      exact ⟨rfl, rfl⟩

/-- At most one driver of the current generation may still be answered, and it is the one of the
phase. What else is resumed leaves the phase and the generation, a call of `cancelTask` apart.
Where there is no driver, the flow waits for the user, unless its page was hidden, or its download
stranded since the page was loaded. -/
theorem driven_run (hrun : Run Steps (initial hooks session now) log w) :
    (w.tasks.Pairwise fun t u => ¬ (t.live w.machine.generation w.aborted ∧
      u.live w.machine.generation w.aborted)) ∧
    (∀ t ∈ w.tasks, t.live w.machine.generation w.aborted → t.Fits w.machine.phase) ∧
    (∀ e t w', Steps e w w' → resumedBy e = some t →
      t.live w.machine.generation w.aborted = false → t.cancels = false →
        w'.machine.phase = w.machine.phase ∧ w'.machine.generation = w.machine.generation) ∧
    (w.Undriven → ¬ w.Hidden →
      (w.machine.busy = false ∧ waits w.machine.phase) ∨
        (w.machine.phase = .downloading ∧ ∃ commit ∈ sinceLoad log, Strands commit)) := by
  have h := (run_inv hrun).action
  refine ⟨h.alone, h.fits, ?_, fun hidle hshown => ?_⟩
  · intro e t w' hstep hresumed hlive hcancels
    exact step_unmoved (run_inv hrun) hstep hresumed hlive hcancels
  by_cases hwork : w.machine.phase.working ∨ w.machine.busy
  · rcases h.carried hwork with ⟨t, ht, hlive⟩ | hhidden | hstranded
    · exact hidle.absurd ht hlive
    · exact absurd hhidden hshown
    · exact .inr ⟨hstranded.2, hstranded.1⟩
  · simp only [not_or, Bool.not_eq_true] at hwork
    exact .inl ⟨hwork.2, waits_iff.mpr hwork.1⟩

theorem driven_run_link : ∃ log w, Run Steps securePage log w ∧ w.machine.phase = .ready ∧
    w.machine.busy = false := by
  have hlast : (play [] securePage linkEvents).map (fun run =>
      (run.2.machine.phase, run.2.tasks, run.2.abort, run.2.aborted)) =
        some (.ready, [], some 1, [0]) := by decide
  obtain ⟨⟨log, w⟩, hplay, hw⟩ := Option.map_eq_some_iff.mp hlast
  simp only [Prod.mk.injEq] at hw
  obtain ⟨hphase, htasks, habort, haborted⟩ := hw
  have hrun := play_run .start hplay
  have hidle : w.Undriven := by simp [Undriven, htasks]
  have hshown : ¬ w.Hidden := by simp [Hidden, habort, haborted]
  obtain ⟨-, -, -, hfree⟩ := driven_run hrun
  rcases hfree hidle hshown with ⟨hbusy, -⟩ | ⟨hdownloading, -⟩
  · exact ⟨log, w, hrun, hphase, hbusy⟩
  · simp [hphase] at hdownloading

/-! ## Download links -/

/-- The requests for grants that were sent since the page was loaded have numbers of their own, and
those pending are among them. While the answer to one may still be stored no link is shown. A link
that is shown was issued by the server since the page was loaded, in this generation and for the
download at hand, with an expiry more than two seconds ahead; it is shown only in the phase `ready`
of a secure page. -/
theorem link_run (hrun : Run Steps (initial hooks session now) log w) :
    (Request.sentNumbers w.outbox).Nodup ∧ (∀ t ∈ w.tasks, w.Sent t) ∧
    (∀ t ∈ w.tasks, ∀ u ∈ w.tasks, ∀ n, t.grantNumber = some n → u.grantNumber = some n → t = u) ∧
    ((∃ generation grantGeneration jobId token previous,
      .grant generation grantGeneration jobId token previous ∈ w.tasks ∧
        w.Storable generation grantGeneration) → w.downloadHref = none) ∧
    ∀ path, w.downloadHref = some path →
      w.machine.phase = .ready ∧ w.hooks.secureContext ∧
        ∃ expiresAt, w.now + GRANT_HANDOFF_SAFETY_MS < expiresAt ∧
          Issued (sinceLoad log) w ⟨path, expiresAt⟩ := by
  have h := (run_inv hrun).grants
  refine ⟨h.distinct, h.sent, ?_, ?_, ?_⟩
  · intro t ht u hu n htn hun
    by_contra hne
    have hperm := (List.perm_cons_erase ht).filterMap grantNumber
    have hnodup := hperm.nodup_iff.mp h.apart
    simp only [List.filterMap_cons, htn, List.nodup_cons] at hnodup
    exact hnodup.1 (List.mem_filterMap.mpr ⟨u, (List.mem_erase_of_ne (Ne.symm hne)).mpr hu, hun⟩)
  · rintro ⟨generation, grantGeneration, jobId, token, previous, ht, hs⟩
    obtain ⟨-, -, harming, -⟩ := h.storable _ _ _ _ _ ht hs
    simp [downloadHref, harming]
  · intro path hpath
    simp only [downloadHref] at hpath
    split at hpath
    · rename_i harmed
      have hready := h.armed (by simp [hpath])
      simp only [hready, Bool.and_eq_true, Bool.not_eq_true', decide_true, Bool.true_and,
        Bool.not_eq_false'] at harmed
      obtain ⟨⟨⟨⟨hsecure, -⟩, -⟩, hvalid⟩, -⟩ := harmed
      refine ⟨hready, by simpa using hsecure, ?_⟩
      unfold grantStillValid at hvalid
      split at hvalid
      · rename_i expiresAt path' hexpires _
        refine ⟨expiresAt, ?_, h.issued _ (.inl ⟨hpath, hexpires⟩)⟩
        have hlt := of_decide_eq_true hvalid
        omega
      · cases hvalid
    · cases hpath

theorem link_run_link : ∃ log w, Run Steps securePage log w ∧
    w.downloadHref = some "/download" ∧
      ∃ expiresAt, Issued (sinceLoad log) w ⟨"/download", expiresAt⟩ := by
  have hlast : (play [] securePage linkEvents).map (·.2.downloadHref) =
      some (some "/download") := by decide
  obtain ⟨⟨log, w⟩, hplay, hhref⟩ := Option.map_eq_some_iff.mp hlast
  have hrun := play_run .start hplay
  obtain ⟨-, -, -, -, hlink⟩ := link_run hrun
  obtain ⟨-, -, expiresAt, -, hissued⟩ := hlink _ hhref
  exact ⟨log, w, hrun, hhref, expiresAt, hissued⟩

end Flow

end FetchNow.MediaFlow
