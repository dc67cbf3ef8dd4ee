import FetchNow.Basic

/-! The public state machine of download jobs and their progress stages. -/
namespace FetchNow

open Transactions

/-- `fetchnow.downloads.states.MediaDownloadJobState`; `cancelled` is never stored. -/
inductive MediaDownloadJobState where
  | queued
  | downloading
  | ready
  | failed
  | cancelled
  | expired
  deriving DecidableEq, Repr

/-- `_ALLOWED_TRANSITIONS`. -/
def MediaDownloadJobState.allowed : MediaDownloadJobState → List MediaDownloadJobState
  | queued => [downloading, cancelled, expired]
  | downloading => [queued, ready, failed, cancelled, expired]
  | ready => [expired]
  | failed => [expired]
  | cancelled => [expired]
  | expired => []

def assertTransition (src dst : MediaDownloadJobState) : Except Raised Unit :=
  require (dst ∈ src.allowed) (.downloadError .internalError "ILLEGAL_STATE_TRANSITION")

/-- `fetchnow.downloads.progress.DownloadProgressStage`. -/
inductive DownloadProgressStage where
  | queued
  | inspecting
  | downloadingVideo
  | downloadingAudio
  | muxing
  | verifying
  | publishing
  | retrying
  | ready
  | failed
  | cancelled
  | expired
  deriving DecidableEq, Repr

namespace DownloadProgressStage

/-- `TERMINAL_PROGRESS`. -/
def terminal : DownloadProgressStage → Bool
  | ready | failed | cancelled | expired => true
  | _ => false

/-- `_ALLOWED`. -/
def allowed : DownloadProgressStage → List DownloadProgressStage
  | queued => [inspecting, downloadingVideo, cancelled, expired, failed]
  | inspecting => [downloadingVideo, downloadingAudio, retrying, failed, cancelled, expired]
  | downloadingVideo =>
    [downloadingAudio, muxing, verifying, publishing, retrying, failed, cancelled, expired]
  | downloadingAudio => [muxing, publishing, retrying, failed, cancelled, expired]
  | muxing => [verifying, retrying, failed, cancelled, expired]
  | verifying => [publishing, retrying, failed, cancelled, expired]
  | publishing => [ready, retrying, failed, cancelled, expired]
  | retrying => [queued, inspecting, failed, cancelled, expired]
  | ready => [expired]
  | failed => [expired]
  | cancelled => [expired]
  | expired => []

/-- The stages a row that is being downloaded may store. -/
def working : DownloadProgressStage → Bool
  | inspecting | downloadingVideo | downloadingAudio | muxing | verifying | publishing => true
  | _ => false

/-- The stages during which a percentage is reported. -/
def transferring : DownloadProgressStage → Bool
  | downloadingVideo | downloadingAudio => true
  | _ => false

end DownloadProgressStage

def assertProgressTransition (src dst : DownloadProgressStage) : Except Raised Unit :=
  if src = dst then .ok ()
  else if src.terminal = true ∧ dst ∉ src.allowed then
    .error (.downloadError .internalError "TERMINAL_PROGRESS_IMMUTABLE")
  else require (dst ∈ src.allowed) (.downloadError .internalError "ILLEGAL_PROGRESS_TRANSITION")

theorem assertProgressTransition_eq_ok {src dst : DownloadProgressStage} {u : Unit} :
    assertProgressTransition src dst = .ok u ↔ src = dst ∨ dst ∈ src.allowed := by
  unfold assertProgressTransition
  split
  · simp_all
  · split <;> simp_all

/-- True when the stored columns encode a user cancellation. -/
def isStoredCancelled (publicState : MediaDownloadJobState) (progressStage : DownloadProgressStage)
    (cancelRequestedAt : Option Timestamp) : Bool :=
  publicState = .expired && progressStage = .cancelled && cancelRequestedAt.isSome

end FetchNow
