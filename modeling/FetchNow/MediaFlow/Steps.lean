import FetchNow.MediaFlow.Controller

/-!
# The steps of the flow

An event runs the controller up to its next `await`. The reactions of the microtask queue come
first: an aborted call rejects, and whoever awaits a settled refresh goes on. Any other event, be
it a user action, a page event, a timer or an answer, finds the queue empty.
-/
namespace FetchNow.MediaFlow

namespace Flow

/-! ## Inspection -/

def catchSubmit (err : Thrown) (generation : Nat) (w : Flow) : Flow :=
  let code :=
    match err with
    | .flow e => e.code
    | _ => "NETWORK_ERROR"
  let phase : FlowPhase :=
    if code = "UNSUPPORTED_PROVIDER" ∨ code = "WRAPPER_UNSUPPORTED" ∨ code = "WRAPPER_UNRESOLVED" ∨
        code = "RESOLVED_PROVIDER_UNSUPPORTED" then .unsupported
    else if code = "NETWORK_ERROR" then .networkError
    else .inspectionFailed
  w.fail phase err generation

def catchResume (err : Thrown) (generation : Nat) (w : Flow) : Flow :=
  { w with resumeDownloadId := none }.fail .networkError err generation

def catchInspection : InspectionCaller → Thrown → Nat → Flow → Flow
  | .submit => catchSubmit
  | .resume => catchResume

/-- The `catch` of `pollInspection` around a restored download. -/
def catchResumed (err : Thrown) (generation : Nat) (w : Flow) : Flow :=
  let w := { w with downloadJob := none }
  if generation ≠ w.machine.generation then w
  else
    let w := w.endAction.persist
    if err = .abort then w else { w with errorText := some (.message err.mapped.code) }

/-- The loop of the inspection poll, from its head to its next read. -/
def readInspection (caller : InspectionCaller) (poll : Poll) (w : Flow) : Flow :=
  let expiresAt := (w.mediaJob.map (·.expiresAt)).getD (w.now + 60000)
  match poll.head Poll.INSPECTION_DEADLINE_MS expiresAt w.now (poll.signal ∈ w.aborted) with
  | some err => catchInspection caller err poll.generation w
  | none => w.spawn (.inspectionPoll caller { poll with waiting := false })

def pollInspection (caller : InspectionCaller) (generation : Nat) (w : Flow) : Flow :=
  match w.token, w.mediaJob with
  | some token, some job =>
    match w.abort with
    | some signal =>
      w.readInspection caller
        { generation, token, jobId := job.id, signal, started := w.now, transient := 0
          waiting := false }
    | none => catchInspection caller .other generation w
  | _, _ =>
    catchInspection caller (.flow (flowErrorFromCode (some "INTERNAL_ERROR"))) generation w

/-- `onTick` of the inspection poll. -/
def inspectionTick (generation : Nat) (job : InspectionJob) (w : Flow) : Flow :=
  if generation ≠ w.machine.generation then w else { w with mediaJob := some job }.persist

/-- `pollInspection`, after its poll. -/
def inspectionPolled (caller : InspectionCaller) (generation : Nat) (job : InspectionJob)
    (w : Flow) : Flow :=
  if generation ≠ w.machine.generation then w
  else
    let w := { w with mediaJob := some job }
    match job.state with
    | .expired =>
      { w with resumeDownloadId := none }.fail .expired
        (.flow (flowErrorFromCode (some "JOB_EXPIRED"))) generation
    | .failed =>
      { w with resumeDownloadId := none }.fail .inspectionFailed
        (.flow (flowErrorFromCode job.errorCode)) generation
    | _ =>
      match w.machine.transition .inspected with
      | none => catchInspection caller .other generation w
      | some machine =>
        let kept := reconcileSelectedFormatId job.formats job.muxingRequired w.selectedFormatId
        let resumeId := w.resumeDownloadId
        let w :=
          { w with
            machine
            selectedFormatId :=
              kept.or (w.hooks.pickHighestEligibleFormat job.formats job.muxingRequired)
            resumeDownloadId := none }
        match resumeId, w.token with
        | some id, some token =>
          match w.abort with
          | some signal => w.spawn (.resumeDownload generation id token signal)
          | none => w.catchResumed .other generation
        | _, _ => w.endAction.persist

def inspectionAnswered (caller : InspectionCaller) (poll : Poll) (outcome : Except Thrown InspectionJob)
    (w : Flow) : Flow :=
  match outcome with
  | .error err =>
    match poll.readFailed err with
    | .ok poll => w.spawn (.inspectionPoll caller poll)
    | .error err => catchInspection caller err poll.generation w
  | .ok job =>
    let w := w.inspectionTick poll.generation job
    if job.isTerminal then w.inspectionPolled caller poll.generation job
    else w.spawn (.inspectionPoll caller { poll with transient := 0, waiting := true })

/-- `resume`, after its read. -/
def resumeAnswered (generation : Nat) (outcome : Except Thrown InspectionJob) (w : Flow) : Flow :=
  match outcome with
  | .error err => w.catchResume err generation
  | .ok job =>
    if generation ≠ w.machine.generation then w
    else
      let w := { w with mediaJob := some job }
      match w.machine.transition .inspecting with
      | none => w.catchResume .other generation
      | some machine => { w with machine }.pollInspection .resume generation

/-- `submit`, after its call. -/
def submitAnswered (generation : Nat) (outcome : Except Thrown InspectionJob) (w : Flow) : Flow :=
  match outcome with
  | .error err => w.catchSubmit err generation
  | .ok job =>
    if generation ≠ w.machine.generation then w
    else
      let w := { w with mediaJob := some job }.persist
      match w.machine.transition .inspecting with
      | none => w.catchSubmit .other generation
      | some machine => { w with machine }.pollInspection .submit generation

/-! ## Download -/

def catchEnqueue (err : Thrown) (generation : Nat) (w : Flow) : Flow :=
  if generation ≠ w.machine.generation then w
  else if w.machine.phase = .cancelled then w
  else if err = .abort ∧ w.abort.any (· ∈ w.aborted) then w
  else
    match err with
    | .flow e =>
      if e.code = "MEDIA_CAPABILITY_REQUIRES_PREMIUM" then
        w.refreshPremium.spawn (.enqueueLapsed generation false)
      else (w.fail .downloadFailed err generation).refreshQuota true
    | _ => (w.fail .downloadFailed err generation).refreshQuota true

def catchDownload : DownloadCaller → Thrown → Nat → Flow → Flow
  | .resumed => catchResumed
  | .enqueue => catchEnqueue

/-- The loop of the download poll, from its head to its next read. -/
def readDownload (caller : DownloadCaller) (poll : Poll) (w : Flow) : Flow :=
  let expiresAt := (w.downloadJob.map (·.expiresAt)).getD (w.now + 60000)
  match poll.head Poll.DOWNLOAD_DEADLINE_MS expiresAt w.now (poll.signal ∈ w.aborted) with
  | some err => catchDownload caller err poll.generation w
  | none => w.spawn (.downloadPoll caller { poll with waiting := false })

def pollDownload (caller : DownloadCaller) (generation : Nat) (w : Flow) : Flow :=
  match w.token, w.downloadJob with
  | some token, some job =>
    match w.abort with
    | some signal =>
      w.readDownload caller
        { generation, token, jobId := job.id, signal, started := w.now, transient := 0
          waiting := false }
    | none => catchDownload caller .other generation w
  | _, _ =>
    catchDownload caller (.flow (flowErrorFromCode (some "INTERNAL_ERROR"))) generation w

/-- `onTick` of the download poll. -/
def downloadTick (generation : Nat) (job : DownloadJob) (w : Flow) : Flow :=
  if generation ≠ w.machine.generation then w
  else if w.downloadJob.any (job.isStaleDownloadPoll ·) then w
  else { w with downloadJob := some job }.persist

/-- `pollDownload`, after its poll. -/
def downloadPolled (caller : DownloadCaller) (generation : Nat) (job : DownloadJob)
    (w : Flow) : Flow :=
  if generation ≠ w.machine.generation then w
  else
    let w := { w with downloadJob := some job }
    match job.state with
    | .expired =>
      (w.refreshQuota true).fail .expired (.flow (flowErrorFromCode (some "DOWNLOAD_EXPIRED")))
        generation
    | .cancelled =>
      let w := { w.refreshQuota true with errorText := none }.clearGrantState
      match w.machine.transition .cancelled with
      | none => catchDownload caller .other generation w
      | some machine => { w with machine := machine.endAction, session := none, token := none }
    | .failed =>
      (w.refreshQuota true).fail .downloadFailed (.flow (flowErrorFromCode job.errorCode)) generation
    | _ =>
      let w := { w with nativeDownloadHandoff := false }
      match w.machine.transition .ready with
      | none => catchDownload caller .other generation w
      | some machine =>
        let w := ({ w with machine := machine.endAction }.persist).refreshQuota true
        if w.premiumState = .active ∧ w.promoted = false then w.upgradeToPremium false
        else w.armNativeDownload generation

def downloadAnswered (caller : DownloadCaller) (poll : Poll) (outcome : Except Thrown DownloadJob)
    (w : Flow) : Flow :=
  match outcome with
  | .error err =>
    match poll.readFailed err with
    | .ok poll => w.spawn (.downloadPoll caller poll)
    | .error err => catchDownload caller err poll.generation w
  | .ok job =>
    let w := w.downloadTick poll.generation job
    if job.isTerminal then w.downloadPolled caller poll.generation job
    else w.spawn (.downloadPoll caller { poll with transient := 0, waiting := true })

/-- `pollInspection`, after the read of a restored download. -/
def resumeDownloadAnswered (generation : Nat) (outcome : Except Thrown DownloadJob)
    (w : Flow) : Flow :=
  match outcome with
  | .error err => w.catchResumed err generation
  | .ok download =>
    if generation ≠ w.machine.generation then w
    else
      let w :=
        { w with downloadJob := some download, selectedFormatId := some download.formatOptionId }
      match w.machine.transition .enqueueingDownload with
      | none => w.catchResumed .other generation
      | some machine =>
        match machine.transition .downloading with
        | none => { w with machine }.catchResumed .other generation
        | some machine => { w with machine }.pollDownload .resumed generation

/-- `enqueueDownload`, after the quota refresh. -/
def enqueueQuotaSettled (generation : Nat) (formatOptionId : OptionId) (rejected : Option Thrown)
    (w : Flow) : Flow :=
  match rejected with
  | some err => w.catchEnqueue err generation
  | none =>
    if w.freeQuota = some (.free 0) then
      w.catchEnqueue (.flow (flowErrorFromCode (some "FREE_DOWNLOAD_QUOTA_EXHAUSTED"))) generation
    else
      match w.mediaJob, w.abort with
      | some job, some signal =>
        w.spawn (.enqueueCreate generation job.id formatOptionId w.token signal)
      | _, _ => w.catchEnqueue .other generation

/-- `enqueueDownload`, after `createDownloadJob`. -/
def createAnswered (generation : Nat) (outcome : Except Thrown DownloadJob) (w : Flow) : Flow :=
  match outcome with
  | .error err => w.catchEnqueue err generation
  | .ok job =>
    if generation ≠ w.machine.generation then w
    else
      let w := { w with downloadJob := some job }
      match w.machine.transition .downloading with
      | none => w.catchEnqueue .other generation
      | some machine => ({ w with machine }.persist).pollDownload .enqueue generation

/-- `enqueueDownload`, in its `catch`, after the Premium refresh; the generation is not checked. -/
def enqueueLapsedSettled (generation : Nat) (w : Flow) : Flow :=
  let w := { w with errorText := some .premiumLapsed }
  match w.machine.transitionIn .inspected generation with
  | none => w
  | some machine => { w with machine := machine.endAction }

/-! ## Upgrade, grant and cancellation -/

/-- `upgradeToPremium`, after its call, with its `finally`. -/
def upgradeAnswered (generation : Nat) (outcome : Except Thrown DownloadJob) (w : Flow) : Flow :=
  if generation ≠ w.machine.generation ∨ w.machine.phase ≠ .ready then w
  else
    let w :=
      match outcome with
      | .ok job =>
        { w with downloadJob := some job, promoted := true, upgradePending := false
          }.persist.refreshQuota true
      | .error err =>
        let w := { w with upgradePending := false }
        if err.mapped.code = "MEDIA_CAPABILITY_REQUIRES_PREMIUM" then w.refreshPremium else w
    { w with upgradePending := false }.armNativeDownload generation

/-- `armNativeDownload`, after its call. -/
def grantAnswered (generation grantGeneration : Nat) (previous : Option BrowserGrant)
    (outcome : Except Thrown BrowserGrant) (w : Flow) : Flow :=
  if generation ≠ w.machine.generation ∨ grantGeneration ≠ w.grantGeneration then w
  else
    match outcome with
    | .ok grant =>
      if w.machine.phase ≠ .ready then w
      else
        { w with
          downloadPath := some grant.downloadPath
          grantExpiresAt := some grant.expiresAt
          grantArming := false
          grantNeedsRetry := false
          errorText := none }.scheduleGrantRefresh generation
    | .error err =>
      let w := { w with grantArming := false }
      match previous with
      | some grant =>
        let w :=
          { w with
            downloadPath := some grant.downloadPath
            grantExpiresAt := some grant.expiresAt
            grantNeedsRetry := if err = Thrown.abort then w.grantNeedsRetry else false
          }.scheduleGrantRefresh generation
        if err = .abort then w else { w with errorText := some (.message err.mapped.code) }
      | none =>
        if err = .abort then w
        else
          { w with
            downloadPath := none
            grantExpiresAt := none
            grantNeedsRetry := true
            errorText := some (.message err.mapped.code) }

/-- `cancelTask`, after its call. -/
def cancelAnswered (generation : Nat) (outcome : Except Thrown DownloadJob) (w : Flow) : Flow :=
  if generation ≠ w.machine.generation then w
  else
    match outcome with
    | .ok job =>
      let w := { w with downloadJob := some job }
      if job.state = .cancelled then
        let w := { w.refreshQuota true with errorText := none }.clearGrantState
        match w.machine.transition .cancelled with
        | none => { w with errorText := some (.message Thrown.other.mapped.code) }
        | some machine =>
          { w with machine := machine.endAction, session := none, token := none }.abortAction
      else w
    | .error err =>
      if err = .abort then w else { w with errorText := some (.message err.mapped.code) }

/-! ## Settled refreshes -/

/-- The refresh settles for the callers that await it: they go on as reactions. -/
def settleQuota (rejected : Option Thrown) : Await → Await
  | .enqueueQuota generation formatOptionId none =>
    .enqueueQuota generation formatOptionId (some rejected)
  | .account none => .account (some rejected)
  | t => t

def settlePremium : Await → Await
  | .enqueueLapsed generation false => .enqueueLapsed generation true
  | t => t

/-- `refreshQuota`, after its call. -/
def quotaSettled (outcome : Except Thrown (Option FreeQuota)) (w : Flow) : Flow :=
  let rejected :=
    match outcome with
    | .ok _ => none
    | .error err => if err = .abort ∨ w.quotaRefresh = some true then none else some err
  { w with
    freeQuota :=
      match outcome with
      | .ok next => next
      | .error _ => w.freeQuota
    quotaRefresh := none
    tasks := w.tasks.map (settleQuota rejected) }

/-- `refreshPremium`, after its call. -/
def premiumSettled (outcome : Except Thrown Bool) (w : Flow) : Flow :=
  let w :=
    { w with
      premiumState :=
        match outcome with
        | .ok true => .active
        | .ok false => .free
        | .error err => if err = .abort then w.premiumState else .error
      premiumRefresh := false
      tasks := w.tasks.map settlePremium }
  if w.premiumState = .active then w.upgradeToPremium false else w

/-- `initializeAccount`, after the quota refresh. -/
def accountSettled (rejected : Option Thrown) (w : Flow) : Flow :=
  if rejected.isSome then w else w.refreshPremium

/-! ## User actions -/

def submit (token : AccessToken) (w : Flow) : Flow :=
  match w.machine.beginAction with
  | none => w
  | some machine =>
    let w :=
      { w with
        machine, errorText := none, mediaJob := none, downloadJob := none, selectedFormatId := none
        resumeDownloadId := none }.clearGrantState.clearUpgradeState
    match w.machine.transition .submitting with
    | none => w.endAction
    | some machine =>
      let w := { w with machine }.abortAction.newAbort
      { w with token := some token }.spawn
        (.submitCreate w.machine.generation token (w.abort.getD 0))

def formats (w : Flow) : List MediaFormat := (w.mediaJob.map (·.formats)).getD []

/-- The refusals that `selectFormat` and `enqueueDownload` share. -/
def usable (job : InspectionJob) (format : MediaFormat) (w : Flow) : Bool :=
  (if format.mediaKind = .audioOnly then job.providerCapabilities.canExtractAudio
    else job.providerCapabilities.canDownloadVideo) &&
  format.canUseFormat (w.premiumState = .active) && !job.muxingRequired

def selectFormat (formatOptionId : OptionId) (w : Flow) : Flow :=
  if w.machine.phase ≠ .inspected then w
  else
    match w.mediaJob, w.formats.find? (·.formatOptionId = formatOptionId) with
    | some job, some format =>
      if job.providerCapabilities.canSelectQuality && w.usable job format then
        { w with selectedFormatId := some format.formatOptionId }.persist
      else w
    | _, _ => w

def enqueueDownload (w : Flow) : Flow :=
  if w.machine.phase ≠ .inspected then w
  else
    match w.machine.beginAction with
    | none => w
    | some machine =>
      match w.token, w.mediaJob, w.formats.find? (some ·.formatOptionId = w.selectedFormatId) with
      | some _, some job, some format =>
        if w.usable job format then
          let w := { w with machine, errorText := none }.clearGrantState.clearUpgradeState
          match w.machine.transition .enqueueingDownload with
          | none => w.endAction
          | some machine =>
            let w := { w with machine }.abortAction.newAbort
            (w.refreshQuota false).spawn
              (.enqueueQuota w.machine.generation format.formatOptionId none)
        else { w with machine := machine.endAction }
      | _, _, _ => { w with machine := machine.endAction }

def onNativeDownloadClick (w : Flow) : Flow :=
  if w.machine.phase ≠ .ready ∨ w.grantArming then w
  else if w.downloadPath.isNone ∨ w.grantStillValid GRANT_HANDOFF_SAFETY_MS = false then
    let w := w.invalidateExpiredGrantHref
    w.armNativeDownload w.machine.generation
  else { w with nativeDownloadHandoff := true }.persist

def retryGrantAccess (w : Flow) : Flow :=
  if w.machine.phase ≠ .ready ∨ w.grantArming then w
  else { w with errorText := none, grantNeedsRetry := true }.armNativeDownload w.machine.generation

def cancelTask (w : Flow) : Flow :=
  match w.token, w.downloadJob with
  | some token, some job =>
    if job.cancellable ∧
        (w.machine.phase = .downloading ∨ w.machine.phase = .enqueueingDownload) then
      w.spawn (.cancel w.machine.generation job.id token w.abort)
    else w
  | _, _ => w

/-- The fields that `onPageShow` and `startOver` reset. -/
def clear (w : Flow) : Flow :=
  { { w.abortAction with abort := none }.clearGrantState with
    token := none, mediaJob := none, downloadJob := none, selectedFormatId := none
    errorText := none, restored := false, resumeDownloadId := none }.clearUpgradeState

def startOver (w : Flow) : Flow :=
  { { w with machine := w.machine.resetToIdle }.clear with session := none }

/-! ## Page events -/

def resume (record : RecoveryRecord) (mediaJobId : Uuid) (w : Flow) : Flow :=
  match w.machine.beginAction with
  | none => w
  | some machine =>
    match machine.transition .submitting with
    | none => { w with machine }
    | some machine =>
      let w := { w with machine }.newAbort
      w.spawn (.resumeRead w.machine.generation mediaJobId record.token (w.abort.getD 0))

def restore (w : Flow) : Flow :=
  let w' := { w with session := (w.session.read w.now).2 }
  match (w.session.read w.now).1 with
  | none => w'
  | some record =>
    match record.mediaJobId with
    | none => { w' with session := none }
    | some mediaJobId =>
      { w' with
        token := some record.token
        selectedFormatId := record.formatOptionId
        resumeDownloadId := record.downloadJobId
        restored := true }.resume record mediaJobId

def onPageHide (w : Flow) : Flow :=
  let w := w.persist.abortAction
  { w with
    grantAborted := w.grantAbort.toList ++ w.grantAborted
    grantRefreshTimer := none }

def onForegroundResume (w : Flow) : Flow :=
  let w := w.refreshPremium
  let w := if w.nativeDownloadHandoff then w.refreshQuota true else w
  if w.machine.phase ≠ .ready then w
  else
    let w := w.invalidateExpiredGrantHref
    if !w.hooks.secureContext || w.grantArming then w
    else if w.grantStillValid GRANT_REISSUE_BUFFER_MS then
      w.scheduleGrantRefresh w.machine.generation
    else w.armNativeDownload w.machine.generation

def onPageShow (persisted : Bool) (w : Flow) : Flow :=
  if persisted then
    { w.clear with machine := w.machine.resetToIdle }.restore.initializeAccount
  else w.onForegroundResume

/-- The page is loaded, again or for the first time: a new controller on the same storage. -/
def load (w : Flow) : Flow :=
  (Flow.initial w.hooks w.session w.now).restore.initializeAccount

/-! ## Events -/

end Flow

inductive Answer where
  | inspection (job : InspectionJob)
  | download (job : DownloadJob)
  | grant (grant : BrowserGrant)
  | error (err : Thrown)
  deriving DecidableEq, Repr

/-- The answers a call may get: the server answers about the job it was asked about, and only an
abort rejects with an `AbortError`. -/
def Await.accepts : Await → Answer → Bool
  | resumeRead _ jobId _ _, .inspection job => job.id = jobId
  | submitCreate .., .inspection _ => true
  | inspectionPoll _ poll, .inspection job => !poll.waiting && decide (job.id = poll.jobId)
  | resumeDownload _ downloadId _ _, .download job => job.id = downloadId
  | downloadPoll _ poll, .download job => !poll.waiting && decide (job.id = poll.jobId)
  | enqueueCreate .., .download _ => true
  | upgrade _ jobId _, .download job | cancel _ jobId _ _, .download job => job.id = jobId
  | grant .., .grant _ => true
  | inspectionPoll _ poll, .error err | downloadPoll _ poll, .error err =>
    !poll.waiting && decide (err ≠ .abort)
  | enqueueQuota .., _ | enqueueLapsed .., _ | account .., _ => false
  | _, .error err => err ≠ .abort
  | _, _ => false

inductive Event where
  | submit (token : AccessToken)
  | selectFormat (formatOptionId : OptionId)
  | enqueueDownload
  | upgradeToPremium
  | nativeDownloadClick
  | retryGrantAccess
  | startOver
  | cancelTask
  | pageHide
  | foregroundResume
  | pageShow (persisted : Bool)
  | reload
  | grantRefresh
  | elapse (ms : Nat)
  | quota (outcome : Except Thrown (Option FreeQuota))
  | premium (outcome : Except Thrown Bool)
  | answer (t : Await) (a : Answer)
  /-- The wait of a poll is over, or has taken too long while the page was hidden. -/
  | wake (t : Await) (timedOut : Bool)
  /-- A reaction of the microtask queue. -/
  | react (t : Await)

namespace Flow

/-- The signal of the call was aborted. -/
def isAborted (w : Flow) : Await → Bool
  | .grant _ grantGeneration _ _ _ => grantGeneration ∈ w.grantAborted
  | t => t.signal.any (· ∈ w.aborted)

def reacts (w : Flow) (t : Await) : Bool := w.isAborted t || t.settled

/-- The code after an await whose call was answered. -/
def answered (t : Await) (a : Answer) (w : Flow) : Flow :=
  match t, a with
  | .resumeRead generation _ _ _, .inspection job => w.resumeAnswered generation (.ok job)
  | .resumeRead generation _ _ _, .error err => w.resumeAnswered generation (.error err)
  | .submitCreate generation _ _, .inspection job => w.submitAnswered generation (.ok job)
  | .submitCreate generation _ _, .error err => w.submitAnswered generation (.error err)
  | .inspectionPoll caller poll, .inspection job => w.inspectionAnswered caller poll (.ok job)
  | .inspectionPoll caller poll, .error err => w.inspectionAnswered caller poll (.error err)
  | .resumeDownload generation _ _ _, .download job => w.resumeDownloadAnswered generation (.ok job)
  | .resumeDownload generation _ _ _, .error err => w.resumeDownloadAnswered generation (.error err)
  | .downloadPoll caller poll, .download job => w.downloadAnswered caller poll (.ok job)
  | .downloadPoll caller poll, .error err => w.downloadAnswered caller poll (.error err)
  | .enqueueCreate generation _ _ _ _, .download job => w.createAnswered generation (.ok job)
  | .enqueueCreate generation _ _ _ _, .error err => w.createAnswered generation (.error err)
  | .upgrade generation _ _, .download job => w.upgradeAnswered generation (.ok job)
  | .upgrade generation _ _, .error err => w.upgradeAnswered generation (.error err)
  | .grant generation grantGeneration _ _ previous, .grant grant =>
    w.grantAnswered generation grantGeneration previous (.ok grant)
  | .grant generation grantGeneration _ _ previous, .error err =>
    w.grantAnswered generation grantGeneration previous (.error err)
  | .cancel generation _ _ _, .download job => w.cancelAnswered generation (.ok job)
  | .cancel generation _ _ _, .error err => w.cancelAnswered generation (.error err)
  | _, _ => w

/-- The code after the wait of a poll. -/
def woken (t : Await) (timedOut : Bool) (w : Flow) : Flow :=
  let timeout : Thrown := .flow (flowErrorFromCode (some "SOURCE_TIMEOUT"))
  match t with
  | .inspectionPoll caller poll =>
    if timedOut then catchInspection caller timeout poll.generation w
    else w.readInspection caller poll
  | .downloadPoll caller poll =>
    if timedOut then catchDownload caller timeout poll.generation w else w.readDownload caller poll
  | _ => w

/-- A poll that waits, and for a time out has waited long enough. -/
def wakes (t : Await) (timedOut : Bool) (w : Flow) : Bool :=
  match t with
  | .inspectionPoll _ poll =>
    poll.waiting && (!timedOut || decide (Poll.INSPECTION_DEADLINE_MS ≤ w.now - poll.started))
  | .downloadPoll _ poll =>
    poll.waiting && (!timedOut || decide (Poll.DOWNLOAD_DEADLINE_MS ≤ w.now - poll.started))
  | _ => false

/-- The code after an await whose call was aborted. -/
def rejected (t : Await) (w : Flow) : Flow :=
  match t with
  | .inspectionPoll caller poll => catchInspection caller .abort poll.generation w
  | .downloadPoll caller poll => catchDownload caller .abort poll.generation w
  | t => w.answered t (.error .abort)

def reaction (t : Await) (w : Flow) : Flow :=
  match t with
  | .enqueueQuota generation formatOptionId (some rejected) =>
    w.enqueueQuotaSettled generation formatOptionId rejected
  | .enqueueLapsed generation true => w.enqueueLapsedSettled generation
  | .account (some rejected) => w.accountSettled rejected
  | t => w.rejected t

/-- The microtask queue is empty. -/
def quiet (w : Flow) : Bool := w.tasks.all fun t => !w.reacts t

/-- An event from outside; `none` where it cannot happen. -/
def external (w : Flow) : Event → Option Flow
  | .submit token => some (w.submit token)
  | .selectFormat formatOptionId => some (w.selectFormat formatOptionId)
  | .enqueueDownload => some w.enqueueDownload
  | .upgradeToPremium => some (w.upgradeToPremium true)
  | .nativeDownloadClick => some w.onNativeDownloadClick
  | .retryGrantAccess => some w.retryGrantAccess
  | .startOver => some w.startOver
  | .cancelTask => some w.cancelTask
  | .pageHide => some w.onPageHide
  | .foregroundResume => some w.onForegroundResume
  | .pageShow persisted => some (w.onPageShow persisted)
  | .reload => some w.load
  | .grantRefresh =>
    w.grantRefreshTimer.bind fun timer =>
      if timer.due ≤ w.now then
        some ({ w with grantRefreshTimer := none }.armNativeDownload timer.generation)
      else none
  | .elapse ms => some { w with now := w.now + ms }
  | .quota outcome =>
    if w.quotaRefresh.isSome then some (w.quotaSettled outcome) else none
  | .premium outcome => if w.premiumRefresh then some (w.premiumSettled outcome) else none
  | .answer t a => if t ∈ w.tasks ∧ t.accepts a then some ((w.finish t).answered t a) else none
  | .wake t timedOut =>
    if t ∈ w.tasks ∧ w.wakes t timedOut then some ((w.finish t).woken t timedOut) else none
  | .react _ => none

def step (e : Event) (w : Flow) : Option Flow :=
  match e with
  | .react t => if t ∈ w.tasks ∧ w.reacts t then some ((w.finish t).reaction t) else none
  | e => if w.quiet then w.external e else none

end Flow

end FetchNow.MediaFlow
