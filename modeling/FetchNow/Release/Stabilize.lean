import FetchNow.Theory.Exchanges
import Mathlib.Data.Rat.Floor

/-!
# Stabilization

`stabilize_full_health`, the gate behind every activation. The environment answers what is asked of
Docker, of the health checks and of the clock; times are rationals.
-/
namespace FetchNow.Stabilize

open Exchanges

/-- What a call raises. -/
inductive Failure where
  | stabilizeError (message : String)
  | routingHealthError (message : String)
  | indexError
  | other (typeName : String)
  deriving DecidableEq, Repr

structure StabilizationPolicy where
  consecutiveSuccesses : ℕ := 3
  intervalSeconds : ℚ := 2
  windowSeconds : ℚ := 30

structure HealthResult where
  ok : Bool
  messages : List String
  deriving DecidableEq, Repr

structure RoutingHealthResult where
  ok : Bool
  messages : List String
  deriving DecidableEq, Repr

/-- A row of `docker compose ps`, with what `docker inspect` says of the container it names. -/
structure PsRow where
  Service : Option String
  service : Option String := none
  ID : Option String
  Id : Option String := none
  restartCount : Except Failure ℤ

structure PublicHttpsGateConfig where
  origin : String
  allowTestOrigin : Bool := false
  deriving DecidableEq, Repr

/-- The part of a `HealthInput` that the gate itself reads. -/
structure HealthInput where
  projectName : String
  gatewayBaseUrl : String
  publicHttps : Option PublicHttpsGateConfig

/-! ## The environment -/

inductive Question where
  | waitGatewayRoutingReady (gatewayBaseUrl : String)
  | composePs (projectName : String)
  | runHealth
  | checkPublicHttpsGate (config : PublicHttpsGateConfig)
  | clock
  | sleeper (seconds : ℚ)

def Answer : Question → Type
  | .waitGatewayRoutingReady _ => Except Failure RoutingHealthResult
  | .composePs _ => Except Failure (List PsRow)
  | .runHealth => Except Failure HealthResult
  | .checkPublicHttpsGate _ => Except Failure RoutingHealthResult
  | .clock => ℚ
  | .sleeper _ => Unit

abbrev Gate (α : Type) := Prog Question Answer Failure α

abbrev GateTrace := Trace Question Answer

/-- Ask, and raise what the answer raises. -/
def call (q : Question) {α : Type} (h : Answer q = Except Failure α) : Gate α :=
  .ask q fun answer => .ofExcept (cast h answer)

def clock : Gate ℚ := .ask .clock .ret

def sleeper (seconds : ℚ) : Gate Unit := .ask (.sleeper seconds) .ret

/-! ## Restart counters -/

def RUNTIME_APPLICATION_SERVICES : List String := ["api", "worker", "delivery", "web", "gateway"]

/-- `str(a or b or "")`. -/
def firstText (a b : Option String) : String :=
  match a with
  | none | some "" => b.getD ""
  | some text => text

def PsRow.svc (row : PsRow) : String := firstText row.Service row.service

def PsRow.cid (row : PsRow) : String := firstText row.ID row.Id

/-- The row of a container whose restarts are counted. -/
def PsRow.counted (row : PsRow) : Bool :=
  (row.svc ∈ RUNTIME_APPLICATION_SERVICES || row.svc = "postgres") && row.cid ≠ ""

/-- `out[svc] = n`. -/
def setItem (svc : String) (n : ℤ) : List (String × ℤ) → List (String × ℤ)
  | [] => [(svc, n)]
  | item :: out => if item.1 = svc then (svc, n) :: out else item :: setItem svc n out

/-- The loop of `collect_restart_counts`. -/
def countRows : List (String × ℤ) → List PsRow → Except Failure (List (String × ℤ))
  | out, [] => .ok out
  | out, row :: rows =>
    if row.counted then do
      let n ← row.restartCount
      countRows (setItem row.svc n out) rows
    else countRows out rows

def collectRestartCounts (inp : HealthInput) : Gate (List (String × ℤ)) := do
  let rows ← call (.composePs inp.projectName) rfl
  Prog.ofExcept (countRows [] rows)

/-- The services whose counter is higher than in the baseline, in its order. -/
def increased (baseline current : List (String × ℤ)) : List String :=
  (baseline.filter fun item => item.2 < (current.lookup item.1).getD item.2).map Prod.fst

/-! ## The gate -/

def realByProject : List (String × String) :=
  [("fetchnow-staging", "https://staging.fetchnow.online"),
    ("fetchnow-production", "https://fetchnow.online")]

def resolvePublicHttpsConfig (inp : HealthInput) : Option PublicHttpsGateConfig :=
  match inp.publicHttps with
  | some config => some config
  | none => (realByProject.lookup inp.projectName).map fun origin => { origin }

/-- A result's first message. -/
def firstMessage (messages : List String) : Except Failure String :=
  match messages with
  | [] => .error .indexError
  | message :: _ => .ok message

structure LoopState where
  successes : ℕ
  last : Option HealthResult

section Loop

variable (inp : HealthInput) (pol : StabilizationPolicy)

/-- What is raised behind the loop. -/
def exhausted (s : LoopState) : Failure :=
  let detail := match s.last with
    | some ⟨_, message :: _⟩ => message
    | _ => "health gate failed"
  .stabilizeError (s!"stabilization failed after window " ++
    s!"({s.successes}/{pol.consecutiveSuccesses} consecutive): {detail}")

/-- A message of a result that is not ok. -/
def refuse {α : Type} (messages : List String) : Gate α := do
  let message ← Prog.ofExcept (firstMessage messages)
  .raise (.stabilizeError message)

/-- The public gate, with its own errors as `StabilizeError`s. -/
def publicGate (config : PublicHttpsGateConfig) : Gate RoutingHealthResult :=
  (call (.checkPublicHttpsGate config) rfl).mapError fun
    | .routingHealthError message => .stabilizeError s!"public HTTPS gate failed: {message}"
    | e => e

/-- Enough calls in a row were ok. -/
def succeed (routing : RoutingHealthResult) (last : HealthResult) : Gate HealthResult :=
  match resolvePublicHttpsConfig inp with
  | some config => do
    let result ← publicGate config
    if result.ok = true then
      .ret ⟨true, last.messages ++ routing.messages ++ result.messages⟩
    else refuse result.messages
  | none => .ret ⟨true, last.messages ++ routing.messages⟩

/-- A call of `run_health` that was not ok. -/
def afterFailure (windowEnd : ℚ) (last : HealthResult) : Gate (LoopState ⊕ HealthResult) := do
  sleeper pol.intervalSeconds
  let now ← clock
  if windowEnd ≤ now ∧ 0 < pol.consecutiveSuccesses then .raise (exhausted pol ⟨0, some last⟩)
  else .ret (.inl ⟨0, some last⟩)

/-- One that was. -/
def afterSuccess (routing : RoutingHealthResult) (baseline : List (String × ℤ)) (s : LoopState)
    (last : HealthResult) : Gate (LoopState ⊕ HealthResult) := do
  let current ← collectRestartCounts inp
  match increased baseline current with
  | svc :: _ =>
    .raise (.stabilizeError s!"restart counter increased for {svc} during stabilization")
  | [] =>
    let successes := s.successes + 1
    if pol.consecutiveSuccesses ≤ successes then do
      let result ← succeed inp routing last
      .ret (.inr result)
    else do
      sleeper pol.intervalSeconds
      .ret (.inl ⟨successes, some last⟩)

/-- A turn of the loop. -/
def stabilizeStep (routing : RoutingHealthResult) (baseline : List (String × ℤ)) (windowEnd : ℚ)
    (s : LoopState) : Gate (LoopState ⊕ HealthResult) := do
  let now ← clock
  if now < windowEnd ∨ s.successes < pol.consecutiveSuccesses then do
    let last ← call .runHealth rfl
    if last.ok = true then afterSuccess inp pol routing baseline s last
    else afterFailure pol windowEnd last
  else .raise (exhausted pol s)

/-- A run that uses up its fuel returns nothing. -/
def stabilizeFullHealth (fuel : ℕ) : Gate (Option HealthResult) := do
  let routing ← call (.waitGatewayRoutingReady inp.gatewayBaseUrl) rfl
  if routing.ok = true then do
    let baseline ← collectRestartCounts inp
    let start ← clock
    Prog.iterate (stabilizeStep inp pol routing baseline (start + pol.windowSeconds)) fuel ⟨0, none⟩
  else refuse routing.messages

end Loop

end FetchNow.Stabilize
