import FetchNow.MediaFlow.Models

/-! The phases of the flow, and the recovery record a page keeps in session storage. -/
namespace FetchNow.MediaFlow

inductive FlowPhase where
  | idle
  | submitting
  | inspecting
  | inspected
  | enqueueingDownload
  | downloading
  | ready
  | inspectionFailed
  | downloadFailed
  | expired
  | unsupported
  | cancelled
  | networkError
  | internalError
  deriving DecidableEq, Repr

namespace FlowPhase

/-- `ALLOWED`. -/
def allowed : FlowPhase → List FlowPhase
  | idle => [submitting]
  | submitting =>
    [inspecting, inspectionFailed, unsupported, networkError, internalError, cancelled, expired]
  | inspecting =>
    [inspected, inspectionFailed, expired, networkError, internalError, cancelled, unsupported]
  | inspected => [enqueueingDownload, cancelled, expired, unsupported]
  | enqueueingDownload =>
    [inspected, downloading, downloadFailed, networkError, internalError, cancelled, expired,
      unsupported]
  | downloading => [ready, downloadFailed, expired, networkError, internalError, cancelled]
  | ready => [cancelled, expired]
  | inspectionFailed | downloadFailed | expired | unsupported | cancelled | networkError
  | internalError => [idle]

/-- `TERMINAL`. -/
def terminal : FlowPhase → Bool
  | inspectionFailed | downloadFailed | expired | unsupported | cancelled | networkError
  | internalError => true
  | _ => false

/-- `RESTORABLE`. -/
def restorable : FlowPhase → Bool
  | submitting | inspecting | inspected | enqueueingDownload | downloading | ready => true
  | _ => false

end FlowPhase

structure FlowMachine where
  phase : FlowPhase
  generation : Nat
  busy : Bool
  deriving DecidableEq, Repr

namespace FlowMachine

variable {m m' : FlowMachine} {dst : FlowPhase} {generation : Nat}

def initial : FlowMachine := ⟨.idle, 0, false⟩

def beginAction (m : FlowMachine) : Option FlowMachine :=
  if m.busy then none else some { m with busy := true }

def endAction (m : FlowMachine) : FlowMachine := { m with busy := false }

/-- `transition` without a generation; `none` is an `IllegalTransitionError`. -/
def transition (m : FlowMachine) (dst : FlowPhase) : Option FlowMachine :=
  if dst ∈ m.phase.allowed then
    some
      { phase := dst
        generation := if dst = .submitting then m.generation + 1 else m.generation
        busy := if dst = .idle then false else m.busy }
  else none

/-- `transition` within a generation: a stale one changes nothing. -/
def transitionIn (m : FlowMachine) (dst : FlowPhase) (generation : Nat) : Option FlowMachine :=
  if generation ≠ m.generation then some m else m.transition dst

def resetToIdle (m : FlowMachine) : FlowMachine := ⟨.idle, m.generation + 1, false⟩

@[simp] theorem beginAction_eq_some :
    m.beginAction = some m' ↔ m.busy = false ∧ m' = { m with busy := true } := by
  by_cases hbusy : m.busy = true
  · simp [beginAction, hbusy]
  · simp [beginAction, hbusy, eq_comm]

@[simp] theorem endAction_phase : m.endAction.phase = m.phase := rfl
@[simp] theorem endAction_generation : m.endAction.generation = m.generation := rfl
@[simp] theorem endAction_busy : m.endAction.busy = false := rfl
@[simp] theorem resetToIdle_phase : m.resetToIdle.phase = .idle := rfl
@[simp] theorem resetToIdle_generation : m.resetToIdle.generation = m.generation + 1 := rfl
@[simp] theorem resetToIdle_busy : m.resetToIdle.busy = false := rfl

/-- A transition the flow makes within a generation. -/
theorem transition_eq_some (hsubmitting : dst ≠ .submitting) (hidle : dst ≠ .idle) :
    m.transition dst = some m' ↔ dst ∈ m.phase.allowed ∧ m' = { m with phase := dst } := by
  by_cases hmem : dst ∈ m.phase.allowed
  · simp [transition, hmem, hsubmitting, hidle, eq_comm]
  · simp [transition, hmem]

theorem transition_submitting :
    m.transition .submitting = some m' ↔
      m.phase = .idle ∧ m' = { m with phase := .submitting, generation := m.generation + 1 } := by
  have hmem : FlowPhase.submitting ∈ m.phase.allowed ↔ m.phase = .idle := by
    cases m.phase <;> simp [FlowPhase.allowed]
  rw [← hmem]
  by_cases hallowed : FlowPhase.submitting ∈ m.phase.allowed
  · simp [transition, hallowed, eq_comm]
  · simp [transition, hallowed]

end FlowMachine

/-! ## The recovery record -/

structure RecoveryRecord where
  token : AccessToken
  mediaJobId : Option Uuid
  downloadJobId : Option Uuid
  formatOptionId : Option OptionId
  phase : FlowPhase
  expiresAt : Int
  deriving DecidableEq, Repr

namespace RecoveryRecord

def isCoherent (record : RecoveryRecord) : Bool :=
  record.phase.restorable &&
    !(record.downloadJobId.isSome &&
      (record.mediaJobId.isNone || record.formatOptionId.isNone)) &&
    !(record.formatOptionId.isSome && record.mediaJobId.isNone) &&
    match record.phase with
    | .submitting | .inspecting | .inspected =>
      record.mediaJobId.isSome && record.downloadJobId.isNone
    | .enqueueingDownload =>
      record.mediaJobId.isSome && record.formatOptionId.isSome && record.downloadJobId.isNone
    | .downloading | .ready =>
      record.mediaJobId.isSome && record.downloadJobId.isSome && record.formatOptionId.isSome
    | _ => false

end RecoveryRecord

/-- What session storage holds under `SESSION_KEY`. A record of well-formed identifiers is shorter
than `SESSION_MAX_BYTES`, so `parseRecoveryRecord` refuses it for incoherence alone. -/
abbrev FlowSession := Option RecoveryRecord

namespace FlowSession

/-- The record read, and what the store holds afterwards. -/
def read (now : Int) : FlowSession → Option RecoveryRecord × FlowSession
  | none => (none, none)
  | some record =>
    if record.isCoherent ∧ now < record.expiresAt then (some record, some record) else (none, none)

def write (record : RecoveryRecord) : FlowSession :=
  if record.isCoherent then some record else none

end FlowSession

end FetchNow.MediaFlow
