import FetchNow.Theory.Semaphores

/-!
# Content requests

A request takes a permit of the delivery semaphore and opens the artifact. It gives both back
itself, or hands them to the body of its streaming response.
-/
namespace FetchNow.Delivery

open Transactions Semaphores

inductive Route where
  | bearer
  | browserGrant
  deriving DecidableEq, Repr

/-- Where a request is; each place is one the task can be interrupted at, or an outcome. -/
inductive Pc where
  | entered
  | parsingCookie
  | acquiring
  | authorizing
  | opening
  | ranging
  | describing
  | beginning
  | constructing
  | returned
  | streaming
  | finalizing
  | ended
  deriving DecidableEq, Repr

/-- What happens to a request next. -/
inductive Action where
  /-- An answer or an error before the semaphore is looked at. -/
  | reject
  | proceed
  | unsatisfiable
  /-- An exception inside the handler, a cancellation included. -/
  | raise
  /-- The framework drops the body iterator without starting it. -/
  | dropBody
  | pull
  /-- The running body ends, fails, is cancelled or is closed. -/
  | close
  deriving DecidableEq, Repr

/-- A content request: its local variables, whether its descriptor is open, and how often it took
and gave back a permit. -/
structure Request where
  route : Route
  headOnly : Bool
  rangeEnabled : Bool
  accounting : Bool
  pc : Pc
  handle : Bool
  permitHeld : Bool
  streamOwnsPermit : Bool
  fdOpen : Bool
  acquired : ℕ
  released : ℕ
  deriving DecidableEq, Repr

variable {free free' : ℕ} {r r' : Request} {action : Action}

/-! ## The handlers -/

def handler (route : Route) (headOnly rangeEnabled accounting : Bool) : Request where
  route := route
  headOnly := headOnly
  rangeEnabled := rangeEnabled
  accounting := accounting
  pc := .entered
  handle := false
  permitHeld := false
  streamOwnsPermit := false
  fdOpen := false
  acquired := 0
  released := 0

/-- `_handle_content`. -/
def handleContent : Bool → Bool → Bool → Request := handler .bearer

/-- `_handle_browser_grant_content`. -/
def handleBrowserGrantContent : Bool → Bool → Bool → Request := handler .browserGrant

/-- The requests the routes start. -/
def Received (r : Request) : Prop :=
  ∃ headOnly rangeEnabled accounting, r = handleContent headOnly rangeEnabled accounting ∨
    r = handleBrowserGrantContent headOnly rangeEnabled accounting

/-- `semaphore.acquire` waits until a permit is free. -/
def acquire (free : ℕ) (r : Request) : Option (ℕ × Request) :=
  if 0 < free then
    some (free - 1, { r with permitHeld := true, acquired := r.acquired + 1, pc := .authorizing })
  else
    none

def release (free : ℕ) (r : Request) : ℕ × Request :=
  (free + 1, { r with permitHeld := false, released := r.released + 1, pc := .ended })

/-- `_cleanup_prestream`, on the way out of the handler. -/
def cleanupPrestream (free : ℕ) (r : Request) : ℕ × Request :=
  let r := { r with handle := false, fdOpen := r.fdOpen && !r.handle, pc := .ended }
  if r.permitHeld && !r.streamOwnsPermit then release free r else (free, r)

/-- The last `finally` of `body`. -/
def bodyFinally (free : ℕ) (r : Request) : ℕ × Request :=
  if r.streamOwnsPermit && r.permitHeld then release free r else (free, { r with pc := .ended })

/-- The places inside the handler's `try`. -/
def Pc.inTry : Pc → Bool
  | .parsingCookie | .acquiring | .authorizing | .opening | .ranging | .describing | .beginning
  | .constructing => true
  | _ => false

/-- The next place when nothing goes wrong. -/
def proceed (free : ℕ) (r : Request) : Option (ℕ × Request) :=
  match r.pc with
  | .entered =>
    match r.route with
    | .bearer => some (free, { r with pc := .acquiring })
    | .browserGrant => some (free, { r with pc := .parsingCookie })
  | .parsingCookie => some (free, { r with pc := .acquiring })
  | .acquiring => acquire free r
  | .authorizing => some (free, { r with pc := .opening })
  | .opening => some (free, { r with handle := true, fdOpen := true, pc := .ranging })
  | .ranging => some (free, { r with pc := .describing })
  | .describing =>
    if r.headOnly then some (cleanupPrestream free r)
    else if r.accounting then some (free, { r with pc := .beginning })
    else some (free, { r with pc := .constructing })
  | .beginning => some (free, { r with pc := .constructing })
  | .constructing =>
    some (free, { r with streamOwnsPermit := true, handle := false, pc := .returned })
  | .returned => some (free, { r with pc := .streaming })
  | .streaming => none
  | .finalizing => some (bodyFinally free r)
  | .ended => none

/-- One step of a request. -/
def step (action : Action) (free : ℕ) (r : Request) : Option (ℕ × Request) :=
  match action with
  | .reject => if r.pc = .entered then some (free, { r with pc := .ended }) else none
  | .proceed => proceed free r
  | .unsatisfiable =>
    if r.pc = .ranging ∧ r.rangeEnabled then some (cleanupPrestream free r) else none
  | .raise => if r.pc.inTry then some (cleanupPrestream free r) else none
  | .dropBody => if r.pc = .returned then some (free, { r with pc := .ended }) else none
  | .pull => if r.pc = .streaming then some (free, r) else none
  -- `iter_fd_range` closes the descriptor on its way out. Under a body that is closed at its own
  -- `yield` it is only collected, perhaps after the accounting; no permit depends on which is
  -- first.
  | .close =>
    if r.pc = .streaming then
      if r.accounting then some (free, { r with fdOpen := false, pc := .finalizing })
      else some (bodyFinally free { r with fdOpen := false })
    else none

def Acts (action : Action) (before after : ℕ × Request) : Prop :=
  step action before.1 before.2 = some after

/-- Any number of requests at one service. -/
abbrev Serves : Label Action → Pool Request → Pool Request → Prop := Semaphores.Step Received Acts

/-! ## What a request keeps -/

def Request.permits (r : Request) : ℕ := if r.permitHeld then 1 else 0

/-- The flags at each place. -/
def Request.Coherent (r : Request) : Prop :=
  r.acquired = r.released + r.permits ∧ r.acquired ≤ 1 ∧
    match r.pc with
    | .entered | .parsingCookie | .acquiring =>
      r.acquired = 0 ∧ r.permitHeld = false ∧ r.streamOwnsPermit = false ∧ r.handle = false ∧
        r.fdOpen = false
    | .authorizing | .opening =>
      r.permitHeld = true ∧ r.streamOwnsPermit = false ∧ r.handle = false ∧ r.fdOpen = false
    | .ranging | .describing | .beginning | .constructing =>
      r.permitHeld = true ∧ r.streamOwnsPermit = false ∧ r.handle = true ∧ r.fdOpen = true
    | .returned | .streaming =>
      r.permitHeld = true ∧ r.streamOwnsPermit = true ∧ r.handle = false ∧ r.fdOpen = true
    | .finalizing =>
      r.permitHeld = true ∧ r.streamOwnsPermit = true ∧ r.handle = false ∧ r.fdOpen = false
    | .ended => r.handle = false ∧ r.fdOpen = r.permitHeld

/-- A request that ended and still holds its permit. -/
def Request.Lost (r : Request) : Prop := r.pc = .ended ∧ r.permitHeld = true

instance : Decidable r.Lost := inferInstanceAs (Decidable (_ ∧ _))

theorem received_coherent (h : Received r) : r.Coherent := by
  obtain ⟨headOnly, rangeEnabled, accounting, rfl | rfl⟩ := h <;>
    simp [Request.Coherent, handleContent, handleBrowserGrantContent, handler, Request.permits]

theorem received_permits (h : Received r) : r.permits = 0 := by
  obtain ⟨headOnly, rangeEnabled, accounting, rfl | rfl⟩ := h <;> rfl

theorem received_not_lost (h : Received r) : ¬ r.Lost := by
  intro hlost
  have hpermits := received_permits h
  simp [Request.permits, hlost.2] at hpermits

/-- A request that has ended does nothing more. -/
theorem ended_stays {after : ℕ × Request} (hended : r.pc = .ended) :
    ¬ Acts action (free, r) after := by
  intro h
  cases action <;> simp [Acts, step, proceed, hended, Pc.inTry] at h

/-- What a step keeps: no permit appears or disappears, and only a dropped body loses one. -/
structure Keeps (action : Action) (before after : ℕ × Request) : Prop where
  coherent : after.2.Coherent
  permits : before.1 + before.2.permits = after.1 + after.2.permits
  lost : after.2.Lost ↔ action = .dropBody

/-- A request whose permit is given back, or that never had one, ends. -/
theorem keeps_of_ended {after : ℕ × Request} (haction : action ≠ .dropBody)
    (hpc : after.2.pc = .ended) (hhandle : after.2.handle = false) (hfd : after.2.fdOpen = false)
    (hheld : after.2.permitHeld = false) (hfree : after.1 = free + r.permits)
    (hacquired : after.2.acquired = r.acquired) (hr : r.acquired ≤ 1)
    (hreleased : after.2.released = r.acquired) : Keeps action (free, r) after where
  coherent := by
    refine ⟨?_, ?_, ?_⟩
    · simp [Request.permits, hheld, hacquired, hreleased]
    · rw [hacquired]
      exact hr
    · rw [hpc]
      exact ⟨hhandle, by rw [hfd, hheld]⟩
  permits := by simp [hfree, Request.permits, hheld]
  lost := by simp [Request.Lost, hheld, haction]

theorem keeps_cleanupPrestream (haction : action ≠ .dropBody) (h : r.Coherent)
    (htry : r.pc.inTry = true) : Keeps action (free, r) (cleanupPrestream free r) := by
  obtain ⟨hcount, honce, hflags⟩ := h
  apply keeps_of_ended haction <;>
    cases hpc : r.pc <;> simp_all [Pc.inTry, cleanupPrestream, release, Request.permits]

theorem keeps_bodyFinally {closed : Request} (haction : action ≠ .dropBody) (h : r.Coherent)
    (hheld : r.permitHeld = true) (howns : r.streamOwnsPermit = true) (hhandle : r.handle = false)
    (hclosed : closed = { r with fdOpen := false }) :
    Keeps action (free, r) (bodyFinally free closed) := by
  obtain ⟨hcount, honce, hflags⟩ := h
  subst hclosed
  apply keeps_of_ended haction <;>
    simp_all [bodyFinally, release, Request.permits]

theorem keeps_proceed {after : ℕ × Request} (h : r.Coherent)
    (hproceed : proceed free r = some after) : Keeps .proceed (free, r) after := by
  have hall := h
  obtain ⟨hcount, honce, hflags⟩ := h
  cases hpc : r.pc <;> simp only [hpc] at hflags
  case describing =>
    by_cases hhead : r.headOnly
    · obtain rfl : cleanupPrestream free r = after := by
        simpa [proceed, hpc, hhead] using hproceed
      exact keeps_cleanupPrestream (by decide) hall (by rw [hpc]; rfl)
    · simp only [proceed, hpc] at hproceed
      rw [if_neg hhead] at hproceed
      by_cases haccounting : r.accounting = true
      · rw [if_pos haccounting, Option.some.injEq] at hproceed
        subst hproceed
        constructor <;> simp_all [Request.Coherent, Request.permits, Request.Lost]
      · rw [if_neg haccounting, Option.some.injEq] at hproceed
        subst hproceed
        constructor <;> simp_all [Request.Coherent, Request.permits, Request.Lost]
  case finalizing =>
    obtain rfl : bodyFinally free r = after := by simpa [proceed, hpc] using hproceed
    refine keeps_bodyFinally (by decide) hall hflags.1 hflags.2.1 hflags.2.2.1 ?_
    rw [← hflags.2.2.2]
  case acquiring =>
    by_cases hfree : 0 < free
    · simp only [proceed, hpc, acquire, hfree, if_true, Option.some.injEq] at hproceed
      subst hproceed
      constructor
      · simp_all [Request.Coherent, Request.permits]
      · simp_all [Request.permits]
        omega
      · simp [Request.Lost]
    · simp [proceed, hpc, acquire, hfree] at hproceed
  case entered =>
    cases hroute : r.route <;> simp only [proceed, hpc, hroute, Option.some.injEq] at hproceed <;>
      subst hproceed <;>
      constructor <;> simp_all [Request.Coherent, Request.permits, Request.Lost]
  case streaming => simp [proceed, hpc] at hproceed
  case ended => simp [proceed, hpc] at hproceed
  all_goals
    simp only [proceed, hpc, Option.some.injEq] at hproceed
    subst hproceed
    constructor <;> simp_all [Request.Coherent, Request.permits, Request.Lost]

theorem keeps_step {after : ℕ × Request} (h : r.Coherent) (hstep : Acts action (free, r) after) :
    Keeps action (free, r) after := by
  have hall := h
  obtain ⟨hcount, honce, hflags⟩ := h
  simp only [Acts] at hstep
  cases action with
  | reject =>
    obtain ⟨hpc, rfl⟩ : r.pc = .entered ∧ (free, { r with pc := .ended }) = after := by
      simpa [step] using hstep
    simp only [hpc] at hflags
    constructor <;> simp_all [Request.Coherent, Request.permits, Request.Lost]
  | proceed => exact keeps_proceed hall hstep
  | unsatisfiable =>
    obtain ⟨hpc, rfl⟩ : (r.pc = .ranging ∧ r.rangeEnabled = true) ∧
        cleanupPrestream free r = after := by
      simpa [step] using hstep
    exact keeps_cleanupPrestream (by decide) hall (by rw [hpc.1]; rfl)
  | raise =>
    obtain ⟨hpc, rfl⟩ : r.pc.inTry = true ∧ cleanupPrestream free r = after := by
      simpa [step] using hstep
    exact keeps_cleanupPrestream (by decide) hall hpc
  | dropBody =>
    obtain ⟨hpc, rfl⟩ : r.pc = .returned ∧ (free, { r with pc := .ended }) = after := by
      simpa [step] using hstep
    simp only [hpc] at hflags
    constructor <;> simp_all [Request.Coherent, Request.permits, Request.Lost]
  | pull =>
    obtain ⟨hpc, rfl⟩ : r.pc = .streaming ∧ (free, r) = after := by simpa [step] using hstep
    exact ⟨hall, rfl, by simp [Request.Lost, hpc]⟩
  | close =>
    by_cases hpc : r.pc = .streaming
    · simp only [hpc] at hflags
      by_cases haccounting : r.accounting
      · simp only [step, hpc, haccounting, if_true, Option.some.injEq] at hstep
        subst hstep
        constructor <;> simp_all [Request.Coherent, Request.permits, Request.Lost]
      · obtain rfl : bodyFinally free { r with fdOpen := false } = after := by
          simpa [step, hpc, haccounting] using hstep
        exact keeps_bodyFinally (by decide) hall hflags.1 hflags.2.1 hflags.2.2.1 rfl
    · simp [step, hpc] at hstep

/-! ## Runs of the service -/

section Runs

variable {N : ℕ} {log : List (Commit (Label Action) (Pool Request))} {pool pool' : Pool Request}

theorem coherent_run (hrun : Run Serves ⟨N, []⟩ log pool) : ∀ r ∈ pool.tasks, r.Coherent := by
  induction hrun with
  | start => exact fun r hr => absurd hr List.not_mem_nil
  | commit _ hstep ih =>
    exact forall_step (fun _ => received_coherent) (fun h hact => (keeps_step h hact).coherent) ih
      hstep

/-- Every permit is free or held, also by a request that lost it. -/
theorem total_run (hrun : Run Serves ⟨N, []⟩ log pool) : pool.total Request.permits = N := by
  induction hrun with
  | start => rfl
  | commit hrun hstep ih =>
    rw [← ih]
    exact total_step (fun _ => received_permits)
      (fun ht hact => (keeps_step (coherent_run hrun _ ht) hact).permits) hstep

/-- A body was dropped before it was started. -/
def Dropped (log : List (Commit (Label Action) (Pool Request))) : Prop :=
  ∃ commit ∈ log, ∃ i, commit.actor = .act i .dropBody

theorem dropped_cons {label : Label Action} : Dropped (⟨label, pool, pool'⟩ :: log) ↔
    (∃ i, label = .act i .dropBody) ∨ Dropped log := by
  simp [Dropped]

/-- Permits are lost in the runs that drop a body, and in no others. -/
theorem lost_run (hrun : Run Serves ⟨N, []⟩ log pool) :
    (∃ r ∈ pool.tasks, r.Lost) ↔ Dropped log := by
  induction hrun with
  | start => simp [Dropped]
  | @commit log label pool pool' hrun hstep ih =>
    rw [dropped_cons, ← ih]
    constructor
    · rintro ⟨r, hr, hlost⟩
      cases hstep with
      | spawn hreceived =>
        rcases List.mem_append.mp hr with hr | hr
        · exact .inr ⟨r, hr, hlost⟩
        · obtain rfl := List.mem_singleton.mp hr
          exact absurd hlost (received_not_lost hreceived)
      | @act _ i action before after free hi hact =>
        rcases List.mem_or_eq_of_mem_set hr with hr | rfl
        · exact .inr ⟨r, hr, hlost⟩
        · have hkeeps := keeps_step (coherent_run hrun _ (List.mem_of_getElem? hi)) hact
          exact .inl ⟨i, by rw [hkeeps.lost.mp hlost]⟩
    · rintro (⟨i, rfl⟩ | ⟨r, hr, hlost⟩)
      · cases hstep with
        | @act _ _ _ before after free hi hact =>
          have hkeeps := keeps_step (coherent_run hrun _ (List.mem_of_getElem? hi)) hact
          exact ⟨after, List.mem_set (List.getElem?_eq_some_iff.mp hi).1 _, hkeeps.lost.mpr rfl⟩
      · obtain ⟨i, hi⟩ := List.getElem?_of_mem hr
        exact ⟨r, List.mem_of_getElem? (stays_step (ended_stays hlost.1) hi hstep), hlost⟩

/-- The permits of the requests that have not ended. -/
def Request.running (r : Request) : ℕ := if r.pc = .ended then 0 else r.permits

/-- Permits are conserved: those free and those of unfinished requests are all of them, and a
request takes at most one and gives it back when it ends. -/
structure PermitsConserved (N : ℕ) (pool : Pool Request) : Prop where
  conserved : pool.free + (pool.tasks.map Request.running).sum = N
  once : ∀ r ∈ pool.tasks, r.acquired ≤ 1 ∧ r.released ≤ r.acquired
  returned : ∀ r ∈ pool.tasks, r.pc = .ended → r.released = r.acquired
  drained : (∀ r ∈ pool.tasks, r.pc = .ended) → pool.free = N

theorem running_of_not_lost (h : ¬ r.Lost) : r.running = r.permits := by
  by_cases hpc : r.pc = .ended
  · have hheld : r.permitHeld = false := by
      by_contra hheld
      exact h ⟨hpc, by simpa using hheld⟩
    simp [Request.running, Request.permits, hheld]
  · exact if_neg hpc

/-- Permits are conserved in the states that no run with a dropped body reaches. -/
theorem permits_conserved (hrun : Run Serves ⟨N, []⟩ log pool) :
    PermitsConserved N pool ↔ ¬ Dropped log := by
  rw [← lost_run hrun]
  constructor
  · rintro ⟨-, -, hreturned, -⟩ ⟨r, hr, hlost⟩
    have hcount := (coherent_run hrun r hr).1
    have hback := hreturned r hr hlost.1
    have hone : r.permits = 1 := if_pos hlost.2
    omega
  · intro hkept
    have hnot : ∀ r ∈ pool.tasks, ¬ r.Lost := fun r hr hlost => hkept ⟨r, hr, hlost⟩
    have hrunning : pool.tasks.map Request.running = pool.tasks.map Request.permits :=
      List.map_congr_left fun r hr => running_of_not_lost (hnot r hr)
    have hconserved : pool.free + (pool.tasks.map Request.running).sum = N := by
      rw [hrunning]
      exact total_run hrun
    refine ⟨hconserved, ?_, ?_, ?_⟩
    · intro r hr
      obtain ⟨hcount, honce, -⟩ := coherent_run hrun r hr
      exact ⟨honce, by omega⟩
    · intro r hr hpc
      have hcount := (coherent_run hrun r hr).1
      have hzero : r.permits = 0 := by
        rw [← running_of_not_lost (hnot r hr)]
        exact if_pos hpc
      omega
    · intro hended
      have hzero : (pool.tasks.map Request.running).sum = 0 := by
        apply List.sum_eq_zero
        intro n hn
        obtain ⟨r, hr, rfl⟩ := List.mem_map.mp hn
        exact if_pos (hended r hr)
      omega

/-- A single request that does these things in turn. -/
def follow : List Action → ℕ × Request → Option (ℕ × Request)
  | [], s => some s
  | action :: actions, s => (step action s.1 s.2).bind (follow actions)

theorem run_follow (actions : List Action) {s s' : ℕ × Request}
    (hrun : Run Serves ⟨N, []⟩ log ⟨s.1, [s.2]⟩) (hfollow : follow actions s = some s') :
    ∃ log', Run Serves ⟨N, []⟩ log' ⟨s'.1, [s'.2]⟩ := by
  induction actions generalizing s log with
  | nil =>
    obtain rfl : s = s' := by simpa [follow] using hfollow
    exact ⟨log, hrun⟩
  | cons action actions ih =>
    obtain ⟨t, ht, hfollow⟩ := Option.bind_eq_some_iff.mp hfollow
    have hstep : Serves (.act 0 action) ⟨s.1, [s.2]⟩ ⟨t.1, [t.2]⟩ :=
      @Semaphores.Step.act _ _ _ Acts ⟨s.1, [s.2]⟩ 0 action s.2 t.2 t.1 rfl ht
    exact ih (.commit hrun hstep) hfollow

/-- A `GET` with a Bearer token at a service with one permit. -/
theorem run_received : Run Serves ⟨1, []⟩ [⟨.spawn, ⟨1, []⟩, ⟨1, [handleContent false true false]⟩⟩]
    ⟨1, [handleContent false true false]⟩ :=
  .commit .start (.spawn ⟨false, true, false, .inl rfl⟩)

/-- The response is constructed. -/
def responded : List Action := List.replicate 7 .proceed

theorem permits_conserved_sample : ∃ log pool, Run Serves ⟨1, []⟩ log pool ∧ pool.free = 1 ∧
    (PermitsConserved 1 pool ↔ ¬ Dropped log) := by
  obtain ⟨log, hrun⟩ := run_follow (responded ++ [.proceed, .pull, .close])
    (s := (1, handleContent false true false)) run_received rfl
  exact ⟨log, _, hrun, rfl, permits_conserved hrun⟩

/-- The client leaves before the body is started: the only permit is held for good. -/
theorem permits_not_conserved : ¬ ∀ (N : ℕ) (log : List (Commit (Label Action) (Pool Request)))
    (pool : Pool Request), Run Serves ⟨N, []⟩ log pool → PermitsConserved N pool := by
  intro h
  obtain ⟨log, hrun⟩ := run_follow (responded ++ [.dropBody])
    (s := (1, handleContent false true false)) run_received rfl
  have hfree := (h 1 log _ hrun).drained (by intro r hr; rw [List.mem_singleton.mp hr])
  exact absurd hfree (by decide)

end Runs

end FetchNow.Delivery
