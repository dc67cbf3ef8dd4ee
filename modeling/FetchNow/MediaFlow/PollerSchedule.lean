import FetchNow.MediaFlow.Poller
import Mathlib.Tactic.Linarith

/-!
# The poller stops when it should

What every run of `pollUntilTerminal` has read, when it read and how it ended.
-/
namespace FetchNow.Poller

open Exchanges

variable {T κ α : Type} {trace mid : PollTrace T} {x : (q : Question T) × Answer q}
  {waits : Question T → Bool} {step : ℚ}

/-! ## What a run has asked -/

/-- An answer that takes no time and tells nothing of a read. -/
def quiet : Question T → Bool
  | .read | .settled | .sleep _ | .visible _ => false
  | _ => true

/-- How the reads ended, newest first. -/
def results : PollTrace T → List (Except Rejection T)
  | [] => []
  | ⟨.settled, answer⟩ :: older => answer.value :: results older
  | _ :: older => results older

/-- The reads whose promise has not settled. -/
def pending : PollTrace T → ℕ
  | [] => 0
  | ⟨.read, _⟩ :: older => pending older + 1
  | ⟨.settled, _⟩ :: older => pending older - 1
  | _ :: older => pending older

/-- What was asked since the last read. -/
def sinceRead : PollTrace T → Option (PollTrace T)
  | [] => none
  | ⟨.read, _⟩ :: _ => some []
  | x :: older => (sinceRead older).map (x :: ·)

/-- A sleep takes as long as it was asked for. -/
def elapsed : (q : Question T) × Answer q → ℚ
  | ⟨.settled, answer⟩ => answer.elapsed
  | ⟨.sleep ms, _⟩ => max 0 ms
  | ⟨.visible _, answer⟩ => answer.elapsed
  | _ => 0

def duration (trace : PollTrace T) : ℚ := (trace.map elapsed).sum

/-- The latest reading of the clock. -/
def latest : PollTrace T → Option ℚ
  | [] => none
  | ⟨.now, t⟩ :: _ => some t
  | _ :: older => latest older

/-- Something was waited for since then. -/
def waited (waits : Question T → Bool) : PollTrace T → Bool
  | [] => false
  | ⟨.now, _⟩ :: _ => false
  | x :: older => waits x.1 || waited waits older

/-- The clock does not run back and advances with every wait by such a step; whether the page is
hidden does not change while nothing is awaited. -/
def Regular (waits : Question T → Bool) (step : ℚ) : PollTrace T → Prop
  | [] => True
  | ⟨.now, t⟩ :: older => Regular waits step older ∧
    ∀ t' ∈ latest older, t' ≤ t ∧ (waited waits older = true → t' + step ≤ t)
  | ⟨.hidden, h⟩ :: ⟨.hidden, h'⟩ :: older => h = h' ∧ Regular waits step (⟨.hidden, h'⟩ :: older)
  | _ :: older => Regular waits step older

theorem results_cons (h : x.1 ≠ .settled) : results (x :: trace) = results trace := by
  rcases x with ⟨_ | _ | _ | _ | _ | _ | _ | _ | _ | _, _⟩ <;> first | rfl | exact absurd rfl h

theorem pending_cons (hread : x.1 ≠ .read) (hsettled : x.1 ≠ .settled) :
    pending (x :: trace) = pending trace := by
  rcases x with ⟨_ | _ | _ | _ | _ | _ | _ | _ | _ | _, _⟩ <;>
    first | rfl | exact absurd rfl hread | exact absurd rfl hsettled

theorem sinceRead_cons (h : x.1 ≠ .read) :
    sinceRead (x :: trace) = (sinceRead trace).map (x :: ·) := by
  rcases x with ⟨_ | _ | _ | _ | _ | _ | _ | _ | _ | _, _⟩ <;> first | rfl | exact absurd rfl h

theorem eq_cons_of_sinceRead (hmid : mid ∈ sinceRead (x :: trace)) (hx : x.1 ≠ .read) :
    ∃ mid' ∈ sinceRead trace, mid = x :: mid' := by
  rw [sinceRead_cons hx] at hmid
  obtain ⟨mid', hmid', rfl⟩ := Option.map_eq_some_iff.mp hmid
  exact ⟨mid', hmid', rfl⟩

theorem elapsed_quiet (h : quiet x.1 = true) : elapsed x = 0 := by
  rcases x with ⟨_ | _ | _ | _ | _ | _ | _ | _ | _ | _, _⟩ <;> first | rfl | cases h

theorem latest_cons (h : x.1 ≠ .now) : latest (x :: trace) = latest trace := by
  rcases x with ⟨_ | _ | _ | _ | _ | _ | _ | _ | _ | _, _⟩ <;> first | rfl | exact absurd rfl h

theorem waited_cons (h : x.1 ≠ .now) :
    waited waits (x :: trace) = (waits x.1 || waited waits trace) := by
  rcases x with ⟨_ | _ | _ | _ | _ | _ | _ | _ | _ | _, _⟩ <;> first | rfl | exact absurd rfl h

theorem Regular.older (h : Regular waits step (x :: trace)) : Regular waits step trace := by
  rcases x with ⟨_ | _ | _ | _ | _ | _ | _ | _ | _ | _, a⟩
  case hidden =>
    rcases trace with _ | ⟨⟨_ | _ | _ | _ | _ | _ | _ | _ | _ | _, _⟩, _⟩ <;>
      first | exact h.2 | exact h
  all_goals first | exact h.1 | exact h

theorem not_read_of_quiet (h : quiet x.1 = true) : x.1 ≠ .read := by
  intro hread
  rw [hread] at h
  cases h

theorem getLast?_cons_some {y : (q : Question T) × Answer q} (h : trace.getLast? = some y) :
    (x :: trace).getLast? = some y := by
  cases trace with
  | nil => cases h
  | cons z rest => rwa [List.getLast?_cons_cons]

/-! ## Reading on -/

variable {options : PollerOptions T κ} {read : List (Except Rejection T)} {value : T}
  {err : Rejection} {wait : ℚ}

/-- The errors since the last value. -/
def inARow (read : List (Except Rejection T)) : ℕ := (read.takeWhile fun r => !r.isOk).length

/-- A read behind which the poller goes on, given the reads before it. -/
def GoesOn (options : PollerOptions T κ) (before : List (Except Rejection T)) :
    Except Rejection T → Prop
  | .ok value => options.isTerminal value = false
  | .error err => err.retryable = true ∧ inARow before < options.maxTransientFailures

def WentOn (options : PollerOptions T κ) : List (Except Rejection T) → Prop
  | [] => True
  | result :: before => GoesOn options before result ∧ WentOn options before

/-! ## Waiting -/

def Within (low high wait : ℚ) : Prop := low ≤ wait ∧ wait ≤ max low high

/-- How long to wait behind a read: what the server asked for, or a time within the bounds. -/
def WaitOk (options : PollerOptions T κ) (mid : PollTrace T) (wait : ℚ) :
    Except Rejection T → Prop
  | .error err =>
    match err.retryAfterMs with
    | some ms => wait = ms
    | none => Within options.minIntervalMs options.maxIntervalMs wait
  | .ok value => ∃ now : ℚ, ⟨.now, now⟩ ∈ mid ∧
    match parseRetryAfterMs options.dateParse (options.retryAfterHeader value) now with
    | some ms => wait = ms
    | none => Within options.minIntervalMs options.maxIntervalMs wait ∧
      (options.isActiveProgress value = true →
        wait ≤ max options.minIntervalMs options.activeMaxIntervalMs)

/-- What lies between two reads is the first read and one such wait. -/
def Spaced (options : PollerOptions T κ) (mid : PollTrace T) : Prop :=
  ∃ (answer : Timed (Except Rejection T)) (wait : ℚ), ⟨.settled, answer⟩ ∈ mid ∧
    duration mid = answer.elapsed + max 0 wait ∧ WaitOk options mid wait answer.value

def seenHidden : (q : Question T) × Answer q → Bool
  | ⟨.hidden, hidden⟩ => hidden
  | _ => false

/-- The page was not seen hidden. -/
def Visible (mid : PollTrace T) : Prop := ∀ y ∈ mid, seenHidden y = false

theorem backoffMs_within (attempt : ℕ) (low high random : ℚ) :
    Within low high (backoffMs attempt low high random) := by
  refine ⟨le_max_left _ _, max_le_max le_rfl (min_le_left _ _)⟩

theorem waitAfter_ok {attempt : ℕ} {random now : ℚ} (hnow : ⟨.now, now⟩ ∈ mid) :
    WaitOk options mid (waitAfter options attempt value random now) (.ok value) := by
  refine ⟨now, hnow, ?_⟩
  have hwithin := backoffMs_within attempt options.minIntervalMs options.maxIntervalMs random
  simp only [waitAfter]
  generalize backoffMs attempt options.minIntervalMs options.maxIntervalMs random = backoff
    at hwithin ⊢
  cases parseRetryAfterMs options.dateParse (options.retryAfterHeader value) now with
  | some ms => rfl
  | none =>
    by_cases hactive : options.isActiveProgress value = true
    · rw [if_pos hactive]
      refine ⟨⟨le_min hwithin.1 (le_max_left _ _), ?_⟩, fun _ => min_le_right _ _⟩
      exact (min_le_left _ _).trans hwithin.2
    · rw [if_neg hactive]
      exact ⟨hwithin, fun h => absurd h hactive⟩

theorem WaitOk.cons {result : Except Rejection T} (h : WaitOk options mid wait result) :
    WaitOk options (x :: mid) wait result := by
  cases result with
  | error err => exact h
  | ok value =>
    obtain ⟨now, hnow, h⟩ := h
    exact ⟨now, List.mem_cons_of_mem _ hnow, h⟩

theorem Spaced.cons (h : Spaced options mid) (hx : quiet x.1 = true) : Spaced options (x :: mid) := by
  obtain ⟨answer, wait, hmem, hduration, hwait⟩ := h
  refine ⟨answer, wait, List.mem_cons_of_mem _ hmem, ?_, hwait.cons⟩
  rw [← hduration, duration, List.map_cons, List.sum_cons, elapsed_quiet hx, zero_add, duration]

/-- The signal is live, and the deadline and the expiry lie ahead. -/
inductive Live (options : PollerOptions T κ) : PollTrace T → Prop where
  | unlimited {started now : ℚ} {older : PollTrace T}
      (hstarted : older.getLast? = some ⟨.now, started⟩)
      (hdeadline : now - started ≤ options.deadlineMs) :
      Live options (⟨.expiresAt, (none : Option ℤ)⟩ :: ⟨.now, now⟩ :: ⟨.aborted, false⟩ :: older)
  | limited {started now later : ℚ} {expires : ℤ} {older : PollTrace T}
      (hstarted : older.getLast? = some ⟨.now, started⟩)
      (hdeadline : now - started ≤ options.deadlineMs) (hexpires : later < expires) :
      Live options
        (⟨.now, later⟩ :: ⟨.expiresAt, some expires⟩ :: ⟨.now, now⟩ :: ⟨.aborted, false⟩ :: older)

/-- What holds when `read` is called. -/
structure ReadOk (options : PollerOptions T κ) (trace : PollTrace T) : Prop where
  alone : pending trace = 0
  live : Live options trace
  spaced : ∀ mid ∈ sinceRead trace, Visible mid → Spaced options mid

def Allow (options : PollerOptions T κ) (trace : PollTrace T) : Question T → Prop
  | .read => ReadOk options trace
  | _ => True

/-! ## How a run ends -/

/-- The poller waits by sleeping and for the page to become visible. -/
def isWait : Question T → Bool
  | .sleep _ | .visible _ => true
  | _ => false

structure Ended (options : PollerOptions T κ) (fuel : ℕ) (r : Except Rejection (Option T))
    (trace : PollTrace T) : Prop where
  went : WentOn options (results trace).tail
  resolves : ∀ value, r = .ok (some value) ↔
    (results trace).head? = some (.ok value) ∧ options.isTerminal value = true
  rejects : ∀ err before, results trace = .error err :: before →
    ¬ GoesOn options before (.error err) → r = .error err
  settles : ∀ step, 0 < step → 0 < fuel → options.deadlineMs / step + 1 < fuel →
    Regular isWait step trace → r ≠ .ok none

variable {fuel n : ℕ} {started : ℚ} {s : PollState κ} {answer : Timed (Except Rejection T)}

/-- Nothing that was read ends the run. -/
theorem Ended.of_wentOn {r : Except Rejection (Option T)} (h : WentOn options (results trace))
    (hr : ∀ value, r ≠ .ok (some value))
    (hsettles : ∀ step, 0 < step → 0 < fuel → options.deadlineMs / step + 1 < fuel →
      Regular isWait step trace → r ≠ .ok none) :
    Ended options fuel r trace := by
  cases hread : results trace with
  | nil =>
    refine ⟨by simp [hread, WentOn], fun value => ⟨fun heq => absurd heq (hr value), ?_⟩, ?_,
      hsettles⟩
    · simp [hread]
    · simp [hread]
  | cons result before =>
    rw [hread] at h
    refine ⟨by rw [hread]; exact h.2, fun value => ⟨fun heq => absurd heq (hr value), ?_⟩, ?_,
      hsettles⟩
    · rintro ⟨hhead, hterminal⟩
      rw [hread] at hhead
      cases hhead
      rw [show options.isTerminal value = false from h.1] at hterminal
      cases hterminal
    · intro err' before' heq hstop
      rw [hread] at heq
      cases heq
      exact absurd h.1 hstop

theorem Ended.raise (h : WentOn options (results trace)) :
    Ended options fuel (.error err) trace :=
  .of_wentOn h nofun fun _ _ _ _ _ => nofun

/-- The run ends with what was read last. -/
theorem Ended.reject {before : List (Except Rejection T)} (h : results trace = .error err :: before)
    (hbefore : WentOn options before) : Ended options fuel (.error err) trace := by
  refine ⟨by rw [h]; exact hbefore, fun value => ⟨nofun, ?_⟩, ?_, fun _ _ _ _ _ => nofun⟩
  · rintro ⟨hhead, -⟩
    rw [h] at hhead
    cases hhead
  · intro err' before' heq _
    rw [h] at heq
    cases heq
    rfl

theorem Ended.resolve {before : List (Except Rejection T)} (h : results trace = .ok value :: before)
    (hbefore : WentOn options before) (hterminal : options.isTerminal value = true) :
    Ended options fuel (.ok (some value)) trace := by
  refine ⟨by rw [h]; exact hbefore, fun value' => ⟨?_, ?_⟩, ?_, fun _ _ _ _ _ => nofun⟩
  · rintro ⟨⟩
    exact ⟨by rw [h]; rfl, hterminal⟩
  · rintro ⟨hhead, -⟩
    rw [h] at hhead
    cases hhead
    rfl
  · intro err before' heq _
    rw [h] at heq
    cases heq

/-! ## A turn -/

/-- The clock has come as many steps as there were turns. -/
def Reached (started : ℚ) (n : ℕ) (trace : PollTrace T) : Prop :=
  ∀ step, Regular isWait step trace → ∃ t ∈ latest trace, started + n * step ≤ t

/-- It will have with its next reading. -/
def Due (started : ℚ) (n : ℕ) (trace : PollTrace T) : Prop :=
  ∀ step, Regular isWait step trace →
    ∃ t ∈ latest trace, started + n * step ≤ t + if waited isWait trace then step else 0

theorem Reached.cons (h : Reached started n trace) : Reached started n (x :: trace) := by
  intro step hregular
  obtain ⟨t, ht, hle⟩ := h step hregular.older
  obtain ⟨q, a⟩ := x
  by_cases hq : q = .now
  · subst hq
    exact ⟨a, rfl, hle.trans (hregular.2 t ht).1⟩
  · exact ⟨t, by rwa [latest_cons hq], hle⟩

theorem Due.cons (h : Due started n trace) (hnow : x.1 ≠ .now) (hwait : isWait x.1 = false) :
    Due started n (x :: trace) := by
  intro step hregular
  rw [latest_cons hnow, waited_cons hnow, hwait, Bool.false_or]
  exact h step hregular.older

theorem Due.now (h : Due started n trace) (t : ℚ) : Reached started n (⟨.now, t⟩ :: trace) := by
  intro step hregular
  obtain ⟨t', ht', hle⟩ := h step hregular.older
  obtain ⟨hmono, hstrict⟩ := hregular.2 t' ht'
  refine ⟨t, rfl, ?_⟩
  split at hle
  · rename_i hwaited
    exact hle.trans (hstrict hwaited)
  · rw [add_zero] at hle
    exact hle.trans hmono

theorem Reached.due (h : Reached started n trace)
    (hwaited : ∀ step, Regular isWait step trace → waited isWait trace = true) :
    Due started (n + 1) trace := by
  intro step hregular
  obtain ⟨t, ht, hle⟩ := h step hregular
  refine ⟨t, ht, ?_⟩
  rw [if_pos (hwaited step hregular)]
  push_cast
  linarith

/-- The state at the head of the loop, behind so many turns. -/
structure Head (options : PollerOptions T κ) (started : ℚ) (n : ℕ) (s : PollState κ)
    (trace : PollTrace T) : Prop where
  idle : s.inFlight = false
  alone : pending trace = 0
  opened : trace.getLast? = some ⟨.now, started⟩
  went : WentOn options (results trace)
  transient : s.transient = inARow (results trace)
  spaced : ∀ mid ∈ sinceRead trace, Visible mid → Spaced options mid
  due : Due started n trace
  within : 0 < n → ∀ step, Regular isWait step trace → n * step ≤ options.deadlineMs + step

/-- The state of a turn that has read a result. -/
structure Turn (options : PollerOptions T κ) (started : ℚ) (n : ℕ)
    (before : List (Except Rejection T)) (result : Except Rejection T) (trace : PollTrace T) :
    Prop where
  alone : pending trace = 0
  opened : trace.getLast? = some ⟨.now, started⟩
  read : results trace = result :: before
  reached : Reached started n trace
  within : ∀ step, Regular isWait step trace → n * step ≤ options.deadlineMs

/-- Only the read itself has taken time so far. -/
def Fresh (answer : Timed (Except Rejection T)) (trace : PollTrace T) : Prop :=
  ∃ mid, sinceRead trace = some mid ∧ ⟨.settled, answer⟩ ∈ mid ∧ duration mid = answer.elapsed

variable {before : List (Except Rejection T)} {result : Except Rejection T}

theorem Turn.cons (h : Turn options started n before result trace) (hread : x.1 ≠ .read)
    (hsettled : x.1 ≠ .settled) : Turn options started n before result (x :: trace) where
  alone := (pending_cons hread hsettled).trans h.alone
  opened := getLast?_cons_some h.opened
  read := (results_cons hsettled).trans h.read
  reached := h.reached.cons
  within := fun step hregular => h.within step hregular.older

theorem Fresh.cons (h : Fresh answer trace) (hx : quiet x.1 = true) : Fresh answer (x :: trace) := by
  obtain ⟨mid, hmid, hmem, hduration⟩ := h
  refine ⟨x :: mid, ?_, List.mem_cons_of_mem _ hmem, ?_⟩
  · rw [sinceRead_cons (not_read_of_quiet hx), hmid, Option.map_some]
  · rw [duration, List.map_cons, List.sum_cons, elapsed_quiet hx, zero_add, ← duration, hduration]

/-- Behind a wait, the turn is over. -/
theorem Turn.head (h : Turn options started n before result trace)
    (hwent : WentOn options before) (hgoes : GoesOn options before result)
    (hspaced : ∀ mid ∈ sinceRead trace, Visible mid → Spaced options mid)
    (hwaited : ∀ step, Regular isWait step trace → waited isWait trace = true)
    (hidle : s.inFlight = false)
    (htransient : s.transient = inARow (result :: before)) :
    Head options started (n + 1) s trace where
  idle := hidle
  alone := h.alone
  opened := h.opened
  went := by
    rw [h.read]
    exact ⟨hgoes, hwent⟩
  transient := by
    rw [h.read]
    exact htransient
  spaced := hspaced
  due := h.reached.due hwaited
  within := fun _ step hregular => by
    have hle := h.within step hregular
    push_cast
    linarith

/-- A visible page is waited for by one sleep. -/
theorem Fresh.spaced {a : Except Rejection Unit} (h : Fresh answer trace)
    (hwait : ∀ mid ∈ sinceRead trace, WaitOk options mid wait answer.value) :
    ∀ mid ∈ sinceRead (⟨.sleep wait, a⟩ :: trace), Spaced options mid := by
  obtain ⟨mid, hmid, hmem, hduration⟩ := h
  intro mid' hmid'
  rw [sinceRead_cons (by simp), hmid] at hmid'
  cases hmid'
  refine ⟨answer, wait, List.mem_cons_of_mem _ hmem, ?_, (hwait mid hmid).cons⟩
  rw [duration, List.map_cons, List.sum_cons, ← duration, hduration, add_comm]
  rfl

/-! ## The steps of a turn -/

theorem wp_ask {q : Question T} {f : Answer q → Poll T α} {post : Except Rejection α → PollTrace T → Prop}
    (hallow : Allow options trace q)
    (h : ∀ a, (f a).wp (Allow options) post (⟨q, a⟩ :: trace)) :
    (ask q >>= f).wp (Allow options) post trace :=
  Prog.wp_bind.mpr ⟨hallow, h⟩

theorem wp_sleep {post : Except Rejection Unit → PollTrace T → Prop}
    (h : ∀ a, post a (⟨.sleep wait, a⟩ :: trace)) :
    (sleep wait).wp (Allow options) post trace :=
  ⟨trivial, fun a => Prog.wp_ofExcept.mpr (h a)⟩

/-- What holds just before the read of a turn. -/
structure Checked (options : PollerOptions T κ) (started : ℚ) (n : ℕ)
    (before : List (Except Rejection T)) (trace : PollTrace T) : Prop where
  ok : ReadOk options trace
  opened : trace.getLast? = some ⟨.now, started⟩
  read : results trace = before
  reached : Reached started n trace
  within : ∀ step, Regular isWait step trace → n * step ≤ options.deadlineMs

theorem Checked.turn (h : Checked options started n before trace)
    (answer : Timed (Except Rejection T)) :
    Turn options started n before answer.value (⟨.settled, answer⟩ :: ⟨.read, ()⟩ :: trace) ∧
      Fresh answer (⟨.settled, answer⟩ :: ⟨.read, ()⟩ :: trace) := by
  refine ⟨⟨?_, getLast?_cons_some (getLast?_cons_some h.opened), ?_, h.reached.cons.cons, ?_⟩,
    [⟨.settled, answer⟩], rfl, List.mem_singleton_self _, ?_⟩
  · exact h.ok.alone
  · exact congrArg _ h.read
  · exact fun step hregular => h.within step hregular.older.older
  · exact add_zero _

theorem wp_checkLive {post : Except Rejection Unit → PollTrace T → Prop}
    (h : Head options started n s trace)
    (hok : ∀ trace', Checked options started n (results trace) trace' → post (.ok ()) trace')
    (herror : ∀ e trace', results trace' = results trace → post (.error e) trace') :
    (checkLive options started).wp (Allow options) post trace := by
  refine wp_ask trivial fun (aborted : Bool) => ?_
  refine Prog.wp_require_then (fun _ => herror _ _ rfl) ?_
  rintro rfl
  refine wp_ask trivial fun (now : ℚ) => ?_
  refine Prog.wp_require_then (fun _ => herror _ _ rfl) fun hdeadline => ?_
  have hdue : Due started n (⟨.aborted, false⟩ :: trace) := h.due.cons (by simp) rfl
  have hreached := hdue.now now
  have hwithin : ∀ step, Regular isWait step (⟨.now, now⟩ :: ⟨.aborted, false⟩ :: trace) →
      n * step ≤ options.deadlineMs := by
    intro step hregular
    obtain ⟨t, ht, hle⟩ := hreached step hregular
    cases ht
    linarith
  have hspaced : ∀ y : (q : Question T) × Answer q, quiet y.1 = true → ∀ trace' : PollTrace T,
      (∀ mid ∈ sinceRead trace', Visible mid → Spaced options mid) →
        ∀ mid ∈ sinceRead (y :: trace'), Visible mid → Spaced options mid := by
    intro y hy trace' hspaced mid hmid hvisible
    obtain ⟨mid', hmid', rfl⟩ := eq_cons_of_sinceRead hmid (not_read_of_quiet hy)
    exact (hspaced mid' hmid' fun z hz => hvisible z (List.mem_cons_of_mem _ hz)).cons hy
  have hspaced' := hspaced ⟨.now, now⟩ rfl _ (hspaced ⟨.aborted, false⟩ rfl _ h.spaced)
  have hopened := getLast?_cons_some (x := ⟨.now, now⟩)
    (getLast?_cons_some (x := ⟨.aborted, false⟩) h.opened)
  refine wp_ask trivial fun (expires : Option ℤ) => ?_
  cases expires with
  | none =>
    refine hok _ ⟨⟨h.alone, .unlimited h.opened hdeadline, ?_⟩, getLast?_cons_some hopened, rfl,
      hreached.cons, fun step hregular => hwithin step hregular.older⟩
    exact hspaced ⟨.expiresAt, none⟩ rfl _ hspaced'
  | some expires =>
    refine wp_ask trivial fun (later : ℚ) => ?_
    refine Prog.wp_require (fun hexpires => ?_) fun _ => herror _ _ rfl
    refine hok _ ⟨⟨h.alone, .limited h.opened hdeadline hexpires, ?_⟩,
      getLast?_cons_some (getLast?_cons_some hopened), rfl, hreached.cons.cons,
      fun step hregular => hwithin step hregular.older.older⟩
    exact hspaced ⟨.now, later⟩ rfl _ (hspaced ⟨.expiresAt, some expires⟩ rfl _ hspaced')

theorem wp_afterError (h : Turn options started n before answer.value trace)
    (hfresh : Fresh answer trace) (hvalue : answer.value = .error err)
    (hwent : WentOn options before) (htransient : s.transient = inARow before) :
    (afterError options s err : Poll T (PollState κ ⊕ T)).wp (Allow options)
      (Prog.turnTo (Head options started (n + 1)) (Ended options fuel)) trace := by
  have hread₀ : results trace = .error err :: before := by rw [h.read, hvalue]
  refine wp_ask trivial fun (aborted : Bool) => ?_
  refine Prog.wp_require_then (fun _ => .reject hread₀ hwent) fun _ => ?_
  refine Prog.wp_require_then (fun _ => .reject hread₀ hwent) fun hgoes => ?_
  have hgoes' : GoesOn options before answer.value := by
    rw [hvalue, GoesOn, ← htransient]
    exact hgoes
  have hrow : s.transient + 1 = inARow (answer.value :: before) := by
    rw [hvalue, htransient]
    rfl
  have hturn := h.cons (x := ⟨.aborted, aborted⟩) (by simp) (by simp)
  have hfresh' := hfresh.cons (x := ⟨.aborted, aborted⟩) rfl
  have hover : ∀ trace', Turn options started n before answer.value trace' →
      ∀ e, Ended options fuel (.error e) trace' := by
    intro trace' hturn e
    apply Ended.raise
    rw [hturn.read]
    exact ⟨hgoes', hwent⟩
  have hslept : ∀ wait trace', Turn options started n before answer.value trace' →
      Fresh answer trace' → (∀ mid ∈ sinceRead trace', WaitOk options mid wait answer.value) →
      (do
        sleep wait
        .ret (.inl { s with attempt := s.attempt + 1, transient := s.transient + 1,
                            inFlight := false }) : Poll T (PollState κ ⊕ T)).wp (Allow options)
        (Prog.turnTo (Head options started (n + 1)) (Ended options fuel)) trace' := by
    intro wait trace' hturn hfresh hwait
    refine Prog.wp_bind.mpr (wp_sleep fun a => ?_)
    have hturn' := hturn.cons (x := ⟨.sleep wait, a⟩) (by simp) (by simp)
    cases a with
    | error e => exact hover _ hturn' e
    | ok _ =>
      refine hturn'.head hwent hgoes' ?_ (fun _ _ => rfl) rfl hrow
      exact fun mid hmid _ => hfresh.spaced hwait mid hmid
  split
  · rename_i wait hwait
    refine hslept wait _ hturn hfresh' fun mid _ => ?_
    rw [hvalue, WaitOk, hwait]
  · rename_i hwait
    refine wp_ask trivial fun (random : ℚ) => ?_
    refine hslept _ _ (hturn.cons (by simp) (by simp)) (hfresh'.cons rfl) fun mid _ => ?_
    rw [hvalue, WaitOk, hwait]
    exact backoffMs_within _ _ _ _

/-- The page was seen hidden since the last read. -/
def Unseen (trace : PollTrace T) : Prop := ∀ mid ∈ sinceRead trace, ¬ Visible mid

theorem Unseen.cons (h : Unseen trace) (hx : x.1 ≠ .read) : Unseen (x :: trace) := by
  intro mid hmid hvisible
  obtain ⟨mid', hmid', rfl⟩ := eq_cons_of_sinceRead hmid hx
  exact h mid' hmid' fun y hy => hvisible y (List.mem_cons_of_mem _ hy)

theorem unseen_hidden : Unseen (⟨.hidden, true⟩ :: trace) := by
  intro mid hmid hvisible
  obtain ⟨mid', -, rfl⟩ := eq_cons_of_sinceRead hmid (by simp)
  cases hvisible _ List.mem_cons_self

/-- A turn with a hidden page; what it awaited shows in the clock. -/
structure Hidden (options : PollerOptions T κ) (started : ℚ) (n : ℕ)
    (before : List (Except Rejection T)) (result : Except Rejection T) (trace : PollTrace T) :
    Prop where
  turn : Turn options started n before result trace
  unseen : Unseen trace

theorem Hidden.cons (h : Hidden options started n before result trace) (hread : x.1 ≠ .read)
    (hsettled : x.1 ≠ .settled) : Hidden options started n before result (x :: trace) :=
  ⟨h.turn.cons hread hsettled, h.unseen.cons hread⟩

theorem wp_waitVisible {post : Except Rejection Unit → PollTrace T → Prop}
    (h : Hidden options started n before result (⟨.hidden, true⟩ :: trace))
    (hok : ∀ trace', Hidden options started n before result trace' →
      (∀ step, Regular isWait step trace' → waited isWait trace' = true) → post (.ok ()) trace')
    (herror : ∀ e trace', Hidden options started n before result trace' → post (.error e) trace') :
    (waitVisible options started).wp (Allow options) post (⟨.hidden, true⟩ :: trace) := by
  refine wp_ask trivial fun (hidden : Bool) => ?_
  have h' := h.cons (x := ⟨.hidden, hidden⟩) (by simp) (by simp)
  cases hidden with
  | false =>
    refine hok _ h' fun step hregular => ?_
    cases hregular.1
  | true =>
    refine wp_ask trivial fun (now : ℚ) => ?_
    have h'' := h'.cons (x := ⟨.now, now⟩) (by simp) (by simp)
    refine Prog.wp_require_then (fun _ => herror _ _ h'') fun _ => ?_
    refine wp_ask trivial fun (woken : Timed Wakeup) => ?_
    split
    · exact hok _ (h''.cons (by simp) (by simp)) fun _ _ => rfl
    · exact herror _ _ (h''.cons (by simp) (by simp))
    · exact herror _ _ (h''.cons (by simp) (by simp))

theorem wp_whileHidden {post : Except Rejection Unit → PollTrace T → Prop}
    (h : Hidden options started n before result (⟨.hidden, true⟩ :: trace))
    (hok : ∀ trace', Hidden options started n before result trace' →
      (∀ step, Regular isWait step trace' → waited isWait trace' = true) → post (.ok ()) trace')
    (herror : ∀ e trace', Hidden options started n before result trace' → post (.error e) trace') :
    (whileHidden options started wait).wp (Allow options) post (⟨.hidden, true⟩ :: trace) := by
  refine Prog.wp_bind.mpr (Prog.wp_attempt.mpr (wp_waitVisible h ?_ ?_))
  · intro trace' h' hwaited
    refine wp_ask trivial fun (hidden : Bool) => ?_
    have h'' := h'.cons (x := ⟨.hidden, hidden⟩) (by simp) (by simp)
    cases hidden with
    | false => exact hok _ h'' fun step hregular => hwaited step hregular.older
    | true =>
      refine wp_sleep fun a => ?_
      cases a with
      | error e => exact herror _ _ (h''.cons (by simp) (by simp))
      | ok _ => exact hok _ (h''.cons (by simp) (by simp)) fun _ _ => rfl
  · intro e trace' h'
    refine wp_ask trivial fun (aborted : Bool) => ?_
    have h'' := h'.cons (x := ⟨.aborted, aborted⟩) (by simp) (by simp)
    exact Prog.wp_require_then (fun _ => herror _ _ h'') fun _ => herror _ _ h''

variable [DecidableEq κ]

theorem rekeyed_transient (s : PollState κ) (key : Option κ) :
    (rekeyed s key).transient = s.transient ∧ (rekeyed s key).inFlight = s.inFlight := by
  rw [rekeyed]
  split <;> exact ⟨rfl, rfl⟩

theorem wp_afterValue (h : Turn options started n before answer.value trace)
    (hfresh : Fresh answer trace) (hvalue : answer.value = .ok value)
    (hwent : WentOn options before) :
    (afterValue options started s value).wp (Allow options)
      (Prog.turnTo (Head options started (n + 1)) (Ended options fuel)) trace := by
  refine wp_ask trivial fun _ => ?_
  have hturn := h.cons (x := ⟨.tick value, ()⟩) (by simp) (by simp)
  have hfresh := hfresh.cons (x := ⟨.tick value, ()⟩) rfl
  split
  · rename_i hterminal
    exact .resolve (hturn.read.trans (by rw [hvalue])) hwent hterminal
  rename_i hterminal
  have hgoes : GoesOn options before answer.value := by
    rw [hvalue, GoesOn]
    exact Bool.eq_false_of_not_eq_true hterminal
  have hrow : inARow (answer.value :: before) = 0 := by
    rw [hvalue]
    rfl
  have hover : ∀ trace', Turn options started n before answer.value trace' →
      ∀ e, Ended options fuel (.error e) trace' := by
    intro trace' hturn e
    apply Ended.raise
    rw [hturn.read]
    exact ⟨hgoes, hwent⟩
  refine wp_ask trivial fun (random : ℚ) => wp_ask trivial fun (now : ℚ) => ?_
  refine wp_ask trivial fun (hidden : Bool) => ?_
  have hturn := ((hturn.cons (x := ⟨.random, random⟩) (by simp) (by simp)).cons
    (x := ⟨.now, now⟩) (by simp) (by simp)).cons (x := ⟨.hidden, hidden⟩) (by simp) (by simp)
  have hfresh := ((hfresh.cons (x := ⟨.random, random⟩) rfl).cons (x := ⟨.now, now⟩) rfl).cons
    (x := ⟨.hidden, hidden⟩) rfl
  have hkeyed := rekeyed_transient { s with transient := 0, inFlight := false }
    (options.semanticKey value)
  cases hidden with
  | true =>
    refine Prog.wp_bind.mpr (wp_whileHidden ⟨hturn, unseen_hidden⟩ ?_ ?_)
    · intro trace' h' hwaited
      refine h'.turn.head hwent hgoes ?_ hwaited hkeyed.2 ?_
      · exact fun mid hmid hvisible => absurd hvisible (h'.unseen mid hmid)
      · exact hkeyed.1.trans hrow.symm
    · exact fun e trace' h' => hover _ h'.turn e
  | false =>
    refine Prog.wp_bind.mpr (wp_sleep fun a => ?_)
    cases a with
    | error e => exact hover _ (hturn.cons (by simp) (by simp)) e
    | ok _ =>
      refine (hturn.cons (by simp) (by simp)).head hwent hgoes ?_ (fun _ _ => rfl) hkeyed.2
        (hkeyed.1.trans hrow.symm)
      intro mid hmid _
      refine hfresh.spaced (fun mid' hmid' => ?_) mid hmid
      obtain ⟨behind, hbehind, rfl⟩ := eq_cons_of_sinceRead hmid' (by simp)
      obtain ⟨rest, -, rfl⟩ := eq_cons_of_sinceRead hbehind (by simp)
      rw [hvalue]
      exact waitAfter_ok (List.mem_cons_of_mem _ List.mem_cons_self)

theorem wp_pollStep (h : Head options started n s trace) :
    (pollStep options started s).wp (Allow options)
      (Prog.turnTo (Head options started (n + 1)) (Ended options fuel)) trace := by
  refine Prog.wp_bind.mpr (wp_checkLive h ?_ ?_)
  · intro trace' hchecked
    refine Prog.wp_require_then (fun hbusy => absurd h.idle hbusy) fun _ => ?_
    refine wp_ask hchecked.ok fun _ => ?_
    refine wp_ask trivial fun (answer : Timed (Except Rejection T)) => ?_
    obtain ⟨hturn, hfresh⟩ := hchecked.turn answer
    split
    · rename_i err hvalue
      exact wp_afterError hturn hfresh hvalue h.went h.transient
    · rename_i value hvalue
      exact wp_afterValue hturn hfresh hvalue h.went
  · intro e trace' hread
    apply Ended.raise
    rw [hread]
    exact h.went

theorem wp_pollUntilTerminal :
    (pollUntilTerminal options fuel).wp (Allow options) (Ended options fuel) [] := by
  refine wp_ask trivial fun (started : ℚ) => ?_
  refine Prog.wp_iterate_counted (I := Head options started) (fun n s trace h => wp_pollStep h) ?_ ?_
  · intro s trace h
    refine .of_wentOn h.went nofun fun step hstep hpos hfuel hregular => ?_
    have hwithin := h.within hpos step hregular
    rw [← lt_sub_iff_add_lt, div_lt_iff₀ hstep] at hfuel
    linarith
  · refine ⟨rfl, rfl, rfl, trivial, rfl, nofun, ?_, fun hpos => absurd hpos (lt_irrefl _)⟩
    exact fun _ _ => ⟨started, rfl, by simp [waited]⟩

/-- No read starts beside another, on an aborted signal, past the deadline or the expiry, or too
soon or too late behind the one before it. What is read decides how the run ends, and it does end
if the clock advances with every wait by a step of one's choice, a millisecond if it reads whole
ones. -/
theorem poll_stops_exactly (options : PollerOptions T κ) (fuel : ℕ)
    (env : PollTrace T → (q : Question T) → Answer q) :
    let r := (pollUntilTerminal options fuel).run env []
    (∀ newer older, r.2 = newer ++ ⟨.read, ()⟩ :: older → ReadOk options older) ∧
    WentOn options (results r.2).tail ∧
    (∀ value, r.1 = .ok (some value) ↔
      (results r.2).head? = some (.ok value) ∧ options.isTerminal value = true) ∧
    (∀ err before, results r.2 = .error err :: before → ¬ GoesOn options before (.error err) →
      r.1 = .error err) ∧
    (∀ step, 0 < step → 0 < fuel → options.deadlineMs / step + 1 < fuel →
      Regular isWait step r.2 → r.1 ≠ .ok none) := by
  intro r
  have hrun : Ended options fuel r.1 r.2 ∧ Prog.Allowed (Allow options) r.2 :=
    Prog.run_of_wp wp_pollUntilTerminal trivial
  obtain ⟨hended, hallowed⟩ := hrun
  refine ⟨fun newer older htrace => ?_, hended.went, hended.resolves, hended.rejects,
    hended.settles⟩
  rw [htrace] at hallowed
  exact Prog.allowed_mid hallowed

/-! ## What the bounds do not cover -/

section Sample

def isSleep : Question T → Bool
  | .sleep _ => true
  | _ => false

/-- A server that asks for a minute between the reads. -/
def sampleOptions : PollerOptions ℕ Unit where
  isTerminal _ := false
  retryAfterHeader _ := some "60".toList
  semanticKey _ := none
  dateParse _ := none

/-- The same with a deadline of a millisecond, which a clock that stands still never passes. -/
def hastyOptions : PollerOptions ℕ Unit := { sampleOptions with deadlineMs := 1 }

/-- A clock that stands still and a page that is hidden again whenever it was read. -/
def sampleEnv (hiddenAgain : Bool) (trace : PollTrace ℕ) : (q : Question ℕ) → Answer q
  | .aborted => false
  | .now => (0 : ℚ)
  | .expiresAt => (none : Option ℤ)
  | .hidden => hiddenAgain && match trace.head? with
    | some ⟨.visible _, _⟩ => false
    | _ => true
  | .random => (0 : ℚ)
  | .read | .tick _ => ()
  | .settled => ⟨.ok 0, 0, le_rfl⟩
  | .sleep _ => .ok ()
  | .visible _ => ⟨.visible, 0, le_rfl⟩

/-- What a turn asks while the page is visible. -/
def visibleTurn : PollTrace ℕ :=
  [⟨.sleep 60000, .ok ()⟩, ⟨.hidden, false⟩, ⟨.now, (0 : ℚ)⟩, ⟨.random, (0 : ℚ)⟩, ⟨.tick 0, ()⟩,
    ⟨.settled, ⟨.ok 0, 0, le_rfl⟩⟩, ⟨.read, ()⟩, ⟨.expiresAt, none⟩, ⟨.now, (0 : ℚ)⟩,
    ⟨.aborted, false⟩]

/-- What it asks while the page is hidden and shown again. -/
def hiddenTurn : PollTrace ℕ :=
  [⟨.hidden, false⟩, ⟨.visible 1, ⟨.visible, 0, le_rfl⟩⟩, ⟨.now, (0 : ℚ)⟩,
    ⟨.hidden, true⟩, ⟨.hidden, true⟩, ⟨.now, (0 : ℚ)⟩, ⟨.random, (0 : ℚ)⟩, ⟨.tick 0, ()⟩,
    ⟨.settled, ⟨.ok 0, 0, le_rfl⟩⟩, ⟨.read, ()⟩, ⟨.expiresAt, none⟩, ⟨.now, (0 : ℚ)⟩,
    ⟨.aborted, false⟩]

theorem run_hiddenTurn (attempt : ℕ) (trace : PollTrace ℕ) :
    (pollStep hastyOptions 0 ⟨attempt, 0, false, none⟩).run (sampleEnv true) trace =
      (.ok (.inl ⟨attempt + 1, 0, false, none⟩), hiddenTurn ++ trace) := by
  with_unfolding_all rfl

theorem run_visibleTurn (attempt : ℕ) (trace : PollTrace ℕ) :
    (pollStep sampleOptions 0 ⟨attempt, 0, false, none⟩).run (sampleEnv false) trace =
      (.ok (.inl ⟨attempt + 1, 0, false, none⟩), visibleTurn ++ trace) := by
  with_unfolding_all rfl

theorem run_hidden_turns (fuel attempt : ℕ) (trace : PollTrace ℕ)
    (hregular : Regular isSleep 1 trace) (hlatest : latest trace = some 0)
    (hwaited : waited isSleep trace = false) :
    let r := (Prog.iterate (pollStep hastyOptions 0) fuel ⟨attempt, 0, false, none⟩).run
      (sampleEnv true) trace
    r.1 = .ok none ∧ Regular isSleep 1 r.2 := by
  induction fuel generalizing attempt trace with
  | zero => exact ⟨rfl, hregular⟩
  | succ fuel ih =>
    have hstep : (Prog.iterate (pollStep hastyOptions 0) (fuel + 1) ⟨attempt, 0, false, none⟩).run
        (sampleEnv true) trace =
        (Prog.iterate (pollStep hastyOptions 0) fuel ⟨attempt + 1, 0, false, none⟩).run
          (sampleEnv true) (hiddenTurn ++ trace) := by
      change ((pollStep hastyOptions 0 _) >>= _ : Poll ℕ (Option ℕ)).run _ _ = _
      rw [Prog.run_bind, run_hiddenTurn]
    have hstill : ∀ older : PollTrace ℕ, latest older = some 0 → waited isSleep older = false →
        ∀ t' ∈ latest older, t' ≤ (0 : ℚ) ∧ (waited isSleep older = true → t' + 1 ≤ 0) := by
      intro older hzero hnone t' ht'
      rw [hzero] at ht'
      cases ht'
      exact ⟨le_rfl, fun h => by rw [hnone] at h; cases h⟩
    rw [hstep]
    refine ih _ _ ⟨⟨rfl, ⟨hregular, ?_⟩, ?_⟩, ?_⟩ rfl rfl
    · exact hstill (⟨.aborted, false⟩ :: trace) hlatest hwaited
    · exact hstill _ rfl rfl
    · exact hstill _ rfl rfl

end Sample

/-- A server may ask for more than the largest interval, and a page that is hidden and shown again
while the clock stands still is read again and again. -/
theorem retry_after_and_hiding_unbounded :
    (¬ ∀ (options : PollerOptions ℕ Unit) (fuel : ℕ) (env : PollTrace ℕ → (q : Question ℕ) → Answer q)
      (newer older mid : PollTrace ℕ) (answer : Timed (Except Rejection ℕ)),
      ((pollUntilTerminal options fuel).run env []).2 = newer ++ ⟨.read, ()⟩ :: older →
        mid ∈ sinceRead older → Visible mid → ⟨.settled, answer⟩ ∈ mid →
          duration mid ≤ options.maxIntervalMs + answer.elapsed) ∧
    ¬ ∀ (options : PollerOptions ℕ Unit) (env : PollTrace ℕ → (q : Question ℕ) → Answer q),
      (∀ fuel, Regular isSleep 1 ((pollUntilTerminal options fuel).run env []).2) →
        ∃ fuel, ((pollUntilTerminal options fuel).run env []).1 ≠ .ok none := by
  constructor
  · intro h
    have hrun : ((pollUntilTerminal sampleOptions 2).run (sampleEnv false) []).2 =
        visibleTurn ++ (visibleTurn ++ [⟨.now, (0 : ℚ)⟩]) := by
      change (Prog.run _ ((pollStep sampleOptions 0 _) >>= _) _).2 = _
      rw [Prog.run_bind, run_visibleTurn]
      change (Prog.run _ ((pollStep sampleOptions 0 _) >>= _) _).2 = _
      rw [Prog.run_bind, run_visibleTurn]
      rfl
    have hgap : visibleTurn.drop 7 ++ visibleTurn.take 6 ∈
        sinceRead (visibleTurn.drop 7 ++ (visibleTurn ++ [⟨.now, (0 : ℚ)⟩])) := rfl
    have hvisible : Visible (visibleTurn.drop 7 ++ visibleTurn.take 6) := by
      intro y hy
      have hmap : (visibleTurn.drop 7 ++ visibleTurn.take 6).map seenHidden =
          List.replicate 9 false := rfl
      have hmem := List.mem_map_of_mem (f := seenHidden) hy
      rw [hmap] at hmem
      exact List.eq_of_mem_replicate hmem
    have hsettled : ⟨.settled, ⟨.ok 0, 0, le_rfl⟩⟩ ∈ visibleTurn.drop 7 ++ visibleTurn.take 6 :=
      List.mem_of_getLast? rfl
    have hlong := h sampleOptions 2 (sampleEnv false) (visibleTurn.take 6) _ _ _ hrun hgap hvisible
      hsettled
    norm_num [duration, elapsed, visibleTurn, sampleOptions] at hlong
  · intro h
    obtain ⟨fuel, hends⟩ := h hastyOptions (sampleEnv true) fun fuel =>
      (run_hidden_turns fuel 0 [⟨.now, (0 : ℚ)⟩] ⟨trivial, nofun⟩ rfl rfl).2
    exact hends (run_hidden_turns fuel 0 [⟨.now, (0 : ℚ)⟩] ⟨trivial, nofun⟩ rfl rfl).1

end FetchNow.Poller
