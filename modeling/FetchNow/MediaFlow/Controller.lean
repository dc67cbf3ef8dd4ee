import FetchNow.MediaFlow.StateMachine

/-!
# The state of `MediaFlowController`

A method of the controller runs up to its next `await`. What it then waits for is an `Await`,
which holds the local variables that the code after the `await` reads. The teardown method
`disconnect` and the test checkout, which writes no field modelled here, are left out.
-/
namespace FetchNow.MediaFlow

/-- A run of `pollUntilTerminal`. -/
structure Poll where
  generation : Nat
  token : AccessToken
  jobId : Uuid
  signal : Nat
  started : Int
  transient : Nat
  /-- Between two reads: the poll sleeps, or waits for the page to become visible. -/
  waiting : Bool
  deriving DecidableEq, Repr

namespace Poll

def INSPECTION_DEADLINE_MS : Int := 15 * 60000

def DOWNLOAD_DEADLINE_MS : Int := 20 * 60000

def MAX_TRANSIENT : Nat := 5

/-- What the head of the loop throws instead of reading again. -/
def head (deadlineMs expiresAt now : Int) (aborted : Bool) (poll : Poll) : Option Thrown :=
  if aborted then some .abort
  else if deadlineMs < now - poll.started then
    some (.flow (flowErrorFromCode (some "SOURCE_TIMEOUT")))
  else if expiresAt ≤ now then some (.flow (flowErrorFromCode (some "JOB_EXPIRED")))
  else none

/-- A failed read is retried a few times when a retry may help. -/
def readFailed (err : Thrown) (poll : Poll) : Except Thrown Poll :=
  match err with
  | .flow e =>
    if (e.retryable || e.code = "CONTRACT") && decide (poll.transient < MAX_TRANSIENT) then
      .ok { poll with transient := poll.transient + 1, waiting := true }
    else .error err
  | _ => .error err

end Poll

/-- Who awaits `pollInspection`, so whose `catch` its exceptions reach. -/
inductive InspectionCaller where
  | resume
  | submit
  deriving DecidableEq, Repr

/-- Who awaits `pollDownload`. -/
inductive DownloadCaller where
  | resumed
  | enqueue
  deriving DecidableEq, Repr

/-- A pending `await`. A refresh that several callers share settles with `none`, or with what it
rejects. -/
inductive Await where
  /-- `resume`: `getInspectionJob`. -/
  | resumeRead (generation : Nat) (jobId : Uuid) (token : AccessToken) (signal : Nat)
  /-- `submit`: `createInspectionJob`. -/
  | submitCreate (generation : Nat) (token : AccessToken) (signal : Nat)
  | inspectionPoll (caller : InspectionCaller) (poll : Poll)
  /-- `pollInspection`: `getDownloadJob` of a restored download. -/
  | resumeDownload (generation : Nat) (downloadId : Uuid) (token : AccessToken) (signal : Nat)
  | downloadPoll (caller : DownloadCaller) (poll : Poll)
  /-- `enqueueDownload`: `refreshQuota`. -/
  | enqueueQuota (generation : Nat) (formatOptionId : OptionId) (settled : Option (Option Thrown))
  /-- `enqueueDownload`: `createDownloadJob`. -/
  | enqueueCreate (generation : Nat) (mediaJobId : Uuid) (formatOptionId : OptionId)
      (token : Option AccessToken) (signal : Nat)
  /-- `enqueueDownload`, in its `catch`: `refreshPremium`. -/
  | enqueueLapsed (generation : Nat) (settled : Bool)
  /-- `upgradeToPremium`: `upgradeDownloadJobToPremium`. -/
  | upgrade (generation : Nat) (jobId : Uuid) (token : AccessToken)
  /-- `armNativeDownload`: `createBrowserGrant`, with the grant to fall back to. -/
  | grant (generation grantGeneration : Nat) (jobId : Uuid) (token : AccessToken)
      (previous : Option BrowserGrant)
  /-- `cancelTask`: `cancelDownloadJob`. -/
  | cancel (generation : Nat) (jobId : Uuid) (token : AccessToken) (signal : Option Nat)
  /-- `initializeAccount`: `refreshQuota`. -/
  | account (settled : Option (Option Thrown))
  deriving DecidableEq, Repr

namespace Await

/-- The signal of the current action that the call was made with. -/
def signal : Await → Option Nat
  | resumeRead _ _ _ signal | submitCreate _ _ signal | resumeDownload _ _ _ signal
  | enqueueCreate _ _ _ _ signal => some signal
  | inspectionPoll _ poll | downloadPoll _ poll => some poll.signal
  | cancel _ _ _ signal => signal
  | enqueueQuota .. | enqueueLapsed .. | upgrade .. | grant .. | account .. => none

/-- The refresh it waits for has settled. -/
def settled : Await → Bool
  | enqueueQuota _ _ settled | account settled => settled.isSome
  | enqueueLapsed _ settled => settled
  | _ => false

end Await

inductive PremiumUiState where
  | loading
  | free
  | active
  | error
  deriving DecidableEq, Repr

/-- The controller's hooks that it reads: the origin is secure, and the default choice of a format
among those offered. -/
structure ControllerHooks where
  secureContext : Bool
  pickHighestEligibleFormat : List MediaFormat → Bool → Option OptionId

/-- The timer of `scheduleGrantRefresh`. -/
structure GrantRefreshTimer where
  generation : Nat
  due : Int
  deriving DecidableEq, Repr

/-- The requests that the server's grants depend on. -/
inductive Request where
  | grant (generation grantGeneration : Nat) (jobId : Uuid)
  | upgrade (jobId : Uuid)
  deriving DecidableEq, Repr

/-- The action under way: its machine, its awaits, its abort controller and its download. -/
structure Action where
  machine : FlowMachine
  tasks : List Await
  abort : Option Nat
  /-- The signals of this and of earlier controllers that were aborted. -/
  aborted : List Nat
  nextSignal : Nat
  downloadJob : Option DownloadJob

/-- The grant fields, and the requests sent. The abort controller of an arming is named by its grant
generation. -/
structure GrantState where
  grantAbort : Option Nat
  grantAborted : List Nat
  grantRefreshTimer : Option GrantRefreshTimer
  grantArming : Bool
  grantNeedsRetry : Bool
  grantExpiresAt : Option Int
  downloadPath : Option String
  nativeDownloadHandoff : Bool
  grantGeneration : Nat
  /-- The requests sent since the page was loaded. -/
  outbox : List Request

/-- The controller, the session storage of its page and the clock. -/
structure Flow extends Action, GrantState where
  token : Option AccessToken
  mediaJob : Option InspectionJob
  selectedFormatId : Option OptionId
  errorText : Option ErrorText
  resumeDownloadId : Option Uuid
  restored : Bool
  freeQuota : Option FreeQuota
  /-- Whether the pending refresh is silent. -/
  quotaRefresh : Option Bool
  premiumState : PremiumUiState
  premiumRefresh : Bool
  upgradePending : Bool
  promoted : Bool
  upgradeAttempts : Nat
  autoUpgradeGeneration : Option Nat
  session : FlowSession
  now : Int
  hooks : ControllerHooks

namespace Flow

def initial (hooks : ControllerHooks) (session : FlowSession) (now : Int) : Flow where
  machine := .initial
  tasks := []
  abort := none
  aborted := []
  nextSignal := 0
  downloadJob := none
  grantAbort := none
  grantAborted := []
  grantRefreshTimer := none
  grantArming := false
  grantNeedsRetry := false
  grantExpiresAt := none
  downloadPath := none
  nativeDownloadHandoff := false
  grantGeneration := 0
  outbox := []
  token := none
  mediaJob := none
  selectedFormatId := none
  errorText := none
  resumeDownloadId := none
  restored := false
  freeQuota := none
  quotaRefresh := none
  premiumState := .loading
  premiumRefresh := false
  upgradePending := false
  promoted := false
  upgradeAttempts := 0
  autoUpgradeGeneration := none
  session := session
  now := now
  hooks := hooks

/-! ## Fields -/

def spawn (t : Await) (w : Flow) : Flow := { w with tasks := t :: w.tasks }

def finish (t : Await) (w : Flow) : Flow := { w with tasks := w.tasks.erase t }

def endAction (w : Flow) : Flow := { w with machine := w.machine.endAction }

/-- `this.abort?.abort()`. -/
def abortAction (w : Flow) : Flow := { w with aborted := w.abort.toList ++ w.aborted }

/-- `this.abort = new AbortController()`. -/
def newAbort (w : Flow) : Flow :=
  { w with abort := some w.nextSignal, nextSignal := w.nextSignal + 1 }

def persist (w : Flow) : Flow :=
  match w.token with
  | none => { w with session := none }
  | some token =>
    if w.machine.phase.restorable then
      match (w.downloadJob.map (·.expiresAt)).or (w.mediaJob.map (·.expiresAt)) with
      | none => w
      | some expiresAt =>
        { w with
          session := FlowSession.write
            { token
              mediaJobId := w.mediaJob.map (·.id)
              downloadJobId := w.downloadJob.map (·.id)
              formatOptionId := w.selectedFormatId.or (w.downloadJob.map (·.formatOptionId))
              phase := w.machine.phase
              expiresAt } }
    else { w with session := none }

def clearGrantState (w : Flow) : Flow :=
  { w with
    grantAborted := w.grantAbort.toList ++ w.grantAborted
    grantAbort := none
    grantRefreshTimer := none
    grantArming := false
    grantNeedsRetry := false
    grantExpiresAt := none
    downloadPath := none
    nativeDownloadHandoff := false
    grantGeneration := w.grantGeneration + 1 }

def clearUpgradeState (w : Flow) : Flow :=
  { w with
    upgradePending := false
    promoted := false
    upgradeAttempts := 0
    autoUpgradeGeneration := none }

def fail (phase : FlowPhase) (err : Thrown) (generation : Nat) (w : Flow) : Flow :=
  if generation ≠ w.machine.generation then w
  else if err = .abort then w
  else
    let w :=
      { w with
        errorText := some (.message err.mapped.code)
        machine := (w.machine.transition phase).getD w.machine.resetToIdle }
    let w :=
      if w.machine.phase.terminal then
        { w.clearGrantState with session := none, token := none }
      else w
    w.endAction

def grantStillValid (safetyMs : Int) (w : Flow) : Bool :=
  match w.grantExpiresAt, w.downloadPath with
  | some expiresMs, some _ => decide (w.now < expiresMs - safetyMs)
  | _, _ => false

def invalidateExpiredGrantHref (w : Flow) : Flow :=
  if w.grantStillValid GRANT_HANDOFF_SAFETY_MS then w
  else
    { w with
      grantRefreshTimer := none
      downloadPath := none
      grantExpiresAt := none
      nativeDownloadHandoff := false
      grantNeedsRetry :=
        (decide (w.machine.phase = .ready) && w.hooks.secureContext) || w.grantNeedsRetry }

def scheduleGrantRefresh (generation : Nat) (w : Flow) : Flow :=
  let w := { w with grantRefreshTimer := none }
  match w.grantExpiresAt with
  | none => w
  | some expiresMs =>
    if w.machine.phase ≠ .ready then w
    else
      match computeGrantRefreshDelayMs expiresMs w.now with
      | none => w.invalidateExpiredGrantHref
      | some delay => { w with grantRefreshTimer := some ⟨generation, w.now + delay⟩ }

/-- The `downloadHref` of `snapshot`. -/
def downloadHref (w : Flow) : Option String :=
  let httpsRequired := w.machine.phase = .ready && !w.hooks.secureContext
  let armed := !httpsRequired && w.downloadPath.isSome && !w.grantArming &&
    w.grantStillValid GRANT_HANDOFF_SAFETY_MS
  if armed && !w.upgradePending then w.downloadPath else none

/-! ## Account refreshes -/

/-- A caller that awaits the refresh joins the pending one, or the one started here. -/
def refreshQuota (silent : Bool) (w : Flow) : Flow :=
  if w.quotaRefresh.isSome then w else { w with quotaRefresh := some silent }

def refreshPremium (w : Flow) : Flow :=
  if w.premiumRefresh then w else { w with premiumState := .loading, premiumRefresh := true }

def initializeAccount (w : Flow) : Flow := (w.refreshQuota true).spawn (.account none)

def MAX_PREMIUM_UPGRADE_ATTEMPTS : Nat := 3

def upgradeToPremium (userInitiated : Bool) (w : Flow) : Flow :=
  if w.machine.phase ≠ .ready || w.promoted || w.upgradePending then w
  else
    match w.token, w.downloadJob with
    | some token, some job =>
      if w.premiumState ≠ .active then w
      else if MAX_PREMIUM_UPGRADE_ATTEMPTS ≤ w.upgradeAttempts then w
      else if !userInitiated && w.autoUpgradeGeneration = some w.machine.generation then w
      else
        let w :=
          { w with
            autoUpgradeGeneration :=
              if userInitiated then w.autoUpgradeGeneration else some w.machine.generation
            upgradeAttempts := w.upgradeAttempts + 1
            upgradePending := true
            outbox := .upgrade job.id :: w.outbox }
        w.clearGrantState.spawn (.upgrade w.machine.generation job.id token)
    | _, _ => w

def armNativeDownload (generation : Nat) (w : Flow) : Flow :=
  if w.machine.phase ≠ .ready || !w.hooks.secureContext then w
  else
    match w.token, w.downloadJob with
    | some token, some job =>
      if w.grantArming then w
      else if w.downloadPath.isSome &&
          w.grantExpiresAt.any (fun expiresMs => decide (GRANT_REISSUE_BUFFER_MS < expiresMs - w.now))
      then { w with grantNeedsRetry := false }.scheduleGrantRefresh generation
      else
        -- The fall back is kept only where the grant before this one is still valid.
        let previous :=
          if w.grantStillValid GRANT_HANDOFF_SAFETY_MS then
            w.downloadPath.bind fun path => w.grantExpiresAt.map (⟨path, ·⟩)
          else none
        let grantGeneration := w.grantGeneration + 1
        { w with
          grantAborted := w.grantAbort.toList ++ w.grantAborted
          grantAbort := some grantGeneration
          grantGeneration := grantGeneration
          grantArming := true
          downloadPath := none
          grantExpiresAt := none
          outbox := .grant generation grantGeneration job.id :: w.outbox
        }.spawn (.grant generation grantGeneration job.id token previous)
    | _, _ => w

end Flow

end FetchNow.MediaFlow
