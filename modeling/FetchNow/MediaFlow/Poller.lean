import FetchNow.MediaFlow.Models
import FetchNow.Theory.Exchanges
import Mathlib.Data.Rat.Floor

/-!
# `pollUntilTerminal`

The environment answers the reads and what is asked of the clock, the page and the signal. An answer
that takes time says how long it took; a sleep that ends takes as long as it was asked for.
-/
namespace FetchNow.Poller

open Exchanges MediaFlow

/-- What a promise is rejected with. -/
inductive Rejection where
  | flow (err : FlowError) (retryAfterMs : Option ℚ)
  /-- The reason of an aborted signal, or an `AbortError`. -/
  | abort
  | other (name : String)
  deriving DecidableEq, Repr

def Rejection.retryable : Rejection → Bool
  | flow err _ => err.retryable || err.code = "CONTRACT"
  | _ => false

def Rejection.retryAfterMs : Rejection → Option ℚ
  | flow _ retryAfterMs => retryAfterMs
  | _ => none

def sourceTimeout : Rejection := .flow ⟨"SOURCE_TIMEOUT", true⟩ none

def jobExpired : Rejection := .flow (flowErrorFromCode (some "JOB_EXPIRED")) none

def overlapping : Rejection := .flow ⟨"INTERNAL_ERROR", false⟩ none

/-- The options, with their defaults filled in. Keys are only compared, and `dateParse` is
`Date.parse`, absent where it is `NaN`. -/
structure PollerOptions (T κ : Type) where
  isTerminal : T → Bool
  minIntervalMs : ℚ := 700
  maxIntervalMs : ℚ := 8000
  hiddenIntervalMs : ℚ := 15000
  deadlineMs : ℚ := 15 * 60000
  maxTransientFailures : ℕ := 5
  retryAfterHeader : T → Option (List Char) := fun _ => none
  semanticKey : T → Option κ
  isActiveProgress : T → Bool := fun _ => false
  activeMaxIntervalMs : ℚ := 1000
  dateParse : List Char → Option ℤ

/-! ## Waiting times -/

/-- The white space of `String.prototype.trim`. -/
def isWhiteSpace (c : Char) : Bool :=
  9 ≤ c.toNat && c.toNat ≤ 13 || c.toNat ∈ [0x20, 0xA0, 0x1680, 0x2028, 0x2029, 0x202F, 0x205F,
    0x3000, 0xFEFF] || 0x2000 ≤ c.toNat && c.toNat ≤ 0x200A

def trim (s : List Char) : List Char :=
  ((s.dropWhile isWhiteSpace).reverse.dropWhile isWhiteSpace).reverse

def RETRY_AFTER_MAX_S : ℤ := 60

/-- `Number` of a numeral. -/
def numberOf (digits : List Char) : ℤ :=
  digits.foldl (fun n c => 10 * n + ((c.toNat : ℤ) - 48)) 0

def parseRetryAfterMs (dateParse : List Char → Option ℤ) (header : Option (List Char)) (now : ℚ) :
    Option ℚ :=
  match header with
  | none | some [] => none
  | some header =>
    let trimmed := trim header
    if trimmed ≠ [] ∧ trimmed.all Char.isDigit then
      let seconds := numberOf trimmed
      if seconds < 1 ∨ RETRY_AFTER_MAX_S < seconds then none else some ((seconds * 1000 : ℤ) : ℚ)
    else
      match dateParse trimmed with
      | none => none
      | some date =>
        let delta : ℚ := date - now
        if delta < 1000 ∨ RETRY_AFTER_MAX_S * 1000 < delta then none else some delta

/-- `Math.round`. -/
def mathRound (x : ℚ) : ℤ := ⌊x + 1 / 2⌋

def backoffMs (attempt : ℕ) (minMs maxMs random : ℚ) : ℚ :=
  let exp := min maxMs (minMs * (17 / 10) ^ attempt)
  let jitter := exp * (1 / 5) * (random * 2 - 1)
  max minMs (min maxMs (mathRound (exp + jitter)))

/-! ## The environment -/

/-- An answer and the time it took. -/
structure Timed (α : Type) where
  value : α
  elapsed : ℚ
  nonneg : 0 ≤ elapsed

inductive Wakeup where
  | visible
  | timeout
  | abort
  deriving DecidableEq, Repr

/-- `read` calls `options.read`, and `settled` awaits its promise. -/
inductive Question (T : Type) where
  | aborted
  | now
  | expiresAt
  | hidden
  | random
  | read
  | settled
  | tick (value : T)
  | sleep (ms : ℚ)
  | visible (remaining : ℚ)

/-- `expiresAt` is parsed, and absent where that fails. -/
def Answer {T : Type} : Question T → Type
  | .aborted | .hidden => Bool
  | .now => ℚ
  | .expiresAt => Option ℤ
  | .random => ℚ
  | .read | .tick _ => Unit
  | .settled => Timed (Except Rejection T)
  | .sleep _ => Except Rejection Unit
  | .visible _ => Timed Wakeup

abbrev Poll (T α : Type) := Prog (Question T) Answer Rejection α

abbrev PollTrace (T : Type) := Trace (Question T) (@Answer T)

def ask {T : Type} (q : Question T) : Poll T (Answer q) := Prog.query q

def sleep {T : Type} (ms : ℚ) : Poll T Unit := .ask (.sleep ms) Prog.ofExcept

/-! ## The loop -/

structure PollState (κ : Type) where
  attempt : ℕ
  transient : ℕ
  inFlight : Bool
  lastKey : Option κ

section Loop

variable {T κ : Type} [DecidableEq κ] (options : PollerOptions T κ)

/-- `waitVisible`. -/
def waitVisible (started : ℚ) : Poll T Unit := do
  let hidden : Bool ← ask .hidden
  if hidden = false then .ret ()
  else do
    let now : ℚ ← ask .now
    let remaining := options.deadlineMs - (now - started)
    Prog.require (0 < remaining) sourceTimeout
    let woken : Timed Wakeup ← ask (.visible remaining)
    match woken.value with
    | .visible => .ret ()
    | .timeout => .raise sourceTimeout
    | .abort => .raise .abort

/-- The head of the loop: an aborted signal, the deadline and the expiry. -/
def checkLive (started : ℚ) : Poll T Unit := do
  let aborted : Bool ← ask .aborted
  Prog.require (aborted = false) .abort
  let now : ℚ ← ask .now
  Prog.require (now - started ≤ options.deadlineMs) sourceTimeout
  let expires : Option ℤ ← ask .expiresAt
  match expires with
  | none => .ret ()
  | some expires => do
    let now : ℚ ← ask .now
    Prog.require (now < expires) jobExpired

/-- A read that was rejected. -/
def afterError (s : PollState κ) (err : Rejection) : Poll T (PollState κ ⊕ T) := do
  let aborted : Bool ← ask .aborted
  Prog.require (aborted = false) err
  Prog.require (err.retryable = true ∧ s.transient < options.maxTransientFailures) err
  let next : PollState κ :=
    { s with attempt := s.attempt + 1, transient := s.transient + 1, inFlight := false }
  match err.retryAfterMs with
  | some wait => do
    sleep wait
    .ret (.inl next)
  | none => do
    let random : ℚ ← ask .random
    sleep (backoffMs s.attempt options.minIntervalMs options.maxIntervalMs random)
    .ret (.inl next)

/-- A new key starts the backoff again. -/
def rekeyed (s : PollState κ) (key : Option κ) : PollState κ :=
  if key ≠ none ∧ key ≠ s.lastKey then { s with attempt := 0, lastKey := key } else s

/-- How long to wait behind a value. -/
def waitAfter (attempt : ℕ) (value : T) (random now : ℚ) : ℚ :=
  let wait := backoffMs attempt options.minIntervalMs options.maxIntervalMs random
  let wait := if options.isActiveProgress value then
    min wait (max options.minIntervalMs options.activeMaxIntervalMs) else wait
  match parseRetryAfterMs options.dateParse (options.retryAfterHeader value) now with
  | some retryAfter => retryAfter
  | none => wait

/-- A page that is hidden. What `waitVisible` throws is thrown, unless the signal is aborted. -/
def whileHidden (started : ℚ) (wait : ℚ) : Poll T Unit := do
  let outcome ← Prog.attempt (waitVisible options started)
  match outcome with
  | .error err => do
    let aborted : Bool ← ask .aborted
    Prog.require (aborted = false) .abort
    .raise err
  | .ok _ => do
    let hidden : Bool ← ask .hidden
    if hidden = true then sleep (max wait options.hiddenIntervalMs) else .ret ()

/-- A value that was read. -/
def afterValue (started : ℚ) (s : PollState κ) (value : T) : Poll T (PollState κ ⊕ T) := do
  let _ ← ask (.tick value)
  if options.isTerminal value = true then .ret (.inr value)
  else do
    let s := rekeyed { s with transient := 0, inFlight := false } (options.semanticKey value)
    let random : ℚ ← ask .random
    let now : ℚ ← ask .now
    let wait := waitAfter options s.attempt value random now
    let next := { s with attempt := s.attempt + 1 }
    let hidden : Bool ← ask .hidden
    if hidden = true then do
      whileHidden options started wait
      .ret (.inl next)
    else do
      sleep wait
      .ret (.inl next)

/-- A turn of the loop. -/
def pollStep (started : ℚ) (s : PollState κ) : Poll T (PollState κ ⊕ T) := do
  checkLive options started
  Prog.require (s.inFlight = false) overlapping
  let s := { s with inFlight := true }
  let _ ← ask .read
  let answer : Timed (Except Rejection T) ← ask .settled
  match answer.value with
  | .error err => afterError options s err
  | .ok value => afterValue options started s value

/-- A run that uses up its fuel returns nothing. -/
def pollUntilTerminal (fuel : ℕ) : Poll T (Option T) := do
  let started : ℚ ← ask .now
  Prog.iterate (pollStep options started) fuel ⟨0, 0, false, none⟩

end Loop

/-! ## The download poll -/

/-- The parts of `jobProgressSemanticKey`. -/
def jobProgressSemanticKey (job : DownloadJob) :
    MediaDownloadJobState × DownloadProgressStage × Option ℕ × ℕ × ℤ :=
  (job.state, job.progressStage, job.progressPercent, job.attempt, job.updatedAt)

def isActiveDownloadProgress (job : DownloadJob) : Bool :=
  job.state = .downloading &&
    (job.progressStage = .downloadingVideo || job.progressStage = .downloadingAudio)

/-- What `pollDownload` asks for. -/
def pollDownloadOptions (dateParse : List Char → Option ℤ) :
    PollerOptions DownloadJob
      (MediaDownloadJobState × DownloadProgressStage × Option ℕ × ℕ × ℤ) where
  isTerminal := DownloadJob.isTerminal
  deadlineMs := 20 * 60000
  semanticKey job := some (jobProgressSemanticKey job)
  isActiveProgress := isActiveDownloadProgress
  activeMaxIntervalMs := 1000
  dateParse := dateParse

end FetchNow.Poller
