import FetchNow.Release.Stabilize
import FetchNow.Theory.Transactions
import Mathlib.Algebra.Order.Archimedean.Basic
import Mathlib.Data.Rat.Floor
import Mathlib.Tactic.Linarith
import Mathlib.Tactic.Positivity
import Mathlib.Tactic.Ring

/-!
# The stabilization gate ends, and what it has seen

The clock bounds the rounds. A run that succeeds has seen as many healthy calls in a row as the
policy asks for, and no restart of a container that the baseline knows.
-/
namespace FetchNow.Stabilize

open Exchanges Transactions

variable {α β : Type} {trace : GateTrace} {inp : HealthInput} {pol : StabilizationPolicy}

/-! ## What a run has asked -/

/-- A call of `run_health`, with the listings taken behind it. -/
abbrev Call := Except Failure HealthResult × List (Except Failure (List PsRow))

def listedBehind (rows : Except Failure (List PsRow)) : List Call → List Call
  | [] => []
  | c :: calls => (c.1, rows :: c.2) :: calls

/-- The rounds, newest first. -/
def calls : GateTrace → List Call
  | [] => []
  | ⟨.runHealth, result⟩ :: older => (result, []) :: calls older
  | ⟨.composePs _, rows⟩ :: older => listedBehind rows (calls older)
  | _ :: older => calls older

/-- The least time that the clock can show. -/
def reached : GateTrace → Option ℚ
  | [] => none
  | ⟨.clock, t⟩ :: _ => some t
  | ⟨.sleeper seconds, _⟩ :: older => (reached older).map (· + seconds)
  | _ :: older => reached older

/-- The clock does not run back, and a sleep takes as long as it was asked for. -/
def Regular : GateTrace → Prop
  | [] => True
  | ⟨.clock, t⟩ :: older => Regular older ∧ ∀ t' ∈ reached older, t' ≤ t
  | _ :: older => Regular older

theorem Regular.older {x : (q : Question) × Answer q} (h : Regular (x :: trace)) :
    Regular trace := by
  rcases x with ⟨_ | _ | _ | _ | _ | _, _⟩
  case clock => exact h.1
  all_goals exact h

/-! ## Restart counters -/

variable {base rows : List PsRow} {svc : String} {n m : ℤ} {out : List (String × ℤ)}

def Listed (rows : List PsRow) (svc : String) : Prop :=
  ∃ row ∈ rows, row.counted = true ∧ row.svc = svc

/-- The restart counter that `collect_restart_counts` records for a service. -/
def Recorded (rows : List PsRow) (svc : String) (n : ℤ) : Prop :=
  ∃ counts, countRows [] rows = .ok counts ∧ counts.lookup svc = some n

theorem lookup_cons (key : String) (item : String × ℤ) :
    (item :: out).lookup key = if key = item.1 then some item.2 else out.lookup key := by
  obtain ⟨k, n⟩ := item
  by_cases h : key = k
  · rw [if_pos h, h, List.lookup_cons_self]
  · have hbeq : (key == k) = false := by simpa using h
    rw [if_neg h, List.lookup_cons, hbeq]

theorem lookup_setItem (key : String) :
    (setItem svc n out).lookup key = if key = svc then some n else out.lookup key := by
  induction out with
  | nil => exact lookup_cons key (svc, n)
  | cons item out ih =>
    rw [setItem]
    by_cases hitem : item.1 = svc
    · rw [if_pos hitem, lookup_cons, lookup_cons, hitem]
      by_cases h : key = svc
      · rw [if_pos h, if_pos h]
      · rw [if_neg h, if_neg h, if_neg h]
    · rw [if_neg hitem, lookup_cons, lookup_cons, ih]
      by_cases h : key = item.1
      · have hne : key ≠ svc := fun heq => hitem (h ▸ heq)
        rw [if_pos h, if_neg hne, if_pos h]
      · rw [if_neg h, if_neg h]

theorem lookup_countRows {counts : List (String × ℤ)} (h : countRows out rows = .ok counts) :
    (∃ n, counts.lookup svc = some n) ↔ (∃ n, out.lookup svc = some n) ∨ Listed rows svc := by
  induction rows generalizing out with
  | nil =>
    injection h with h
    simp [h, Listed]
  | cons row rows ih =>
    unfold countRows at h
    by_cases hcounted : row.counted = true
    · rw [if_pos hcounted] at h
      cases hrestart : row.restartCount with
      | error e =>
        rw [hrestart] at h
        cases h
      | ok n =>
        rw [hrestart] at h
        rw [ih h]
        have hlookup := @lookup_setItem row.svc n out svc
        by_cases hsvc : svc = row.svc
        · rw [if_pos hsvc] at hlookup
          constructor
          · intro _
            exact .inr ⟨row, List.mem_cons_self, hcounted, hsvc.symm⟩
          · intro _
            exact .inl ⟨n, hlookup⟩
        · rw [if_neg hsvc] at hlookup
          rw [hlookup]
          apply or_congr_right
          constructor
          · rintro ⟨row', hrow', h'⟩
            exact ⟨row', List.mem_cons_of_mem _ hrow', h'⟩
          · rintro ⟨row', hrow', hcounted', rfl⟩
            rcases List.mem_cons.mp hrow' with rfl | hrow'
            · exact absurd rfl hsvc
            · exact ⟨row', hrow', hcounted', rfl⟩
    · rw [if_neg hcounted] at h
      rw [ih h]
      apply or_congr_right
      constructor
      · rintro ⟨row', hrow', h'⟩
        exact ⟨row', List.mem_cons_of_mem _ hrow', h'⟩
      · rintro ⟨row', hrow', h'⟩
        rcases List.mem_cons.mp hrow' with rfl | hrow'
        · exact absurd h'.1 hcounted
        · exact ⟨row', hrow', h'⟩

theorem listed_iff {counts : List (String × ℤ)} (h : countRows [] rows = .ok counts) :
    Listed rows svc ↔ ∃ n, counts.lookup svc = some n := by
  rw [lookup_countRows h]
  simp

/-- A service that no further row names keeps its counter. -/
theorem lookup_unlisted {counts : List (String × ℤ)} (h : countRows out rows = .ok counts)
    (hunlisted : ¬ Listed rows svc) : counts.lookup svc = out.lookup svc := by
  induction rows generalizing out with
  | nil =>
    injection h with h
    rw [h]
  | cons row rows ih =>
    have hrest : ¬ Listed rows svc := fun ⟨row', hrow', h'⟩ =>
      hunlisted ⟨row', List.mem_cons_of_mem _ hrow', h'⟩
    unfold countRows at h
    by_cases hcounted : row.counted = true
    · rw [if_pos hcounted] at h
      obtain ⟨n, -, h⟩ := bind_eq_ok.mp h
      have hne : svc ≠ row.svc := fun heq => hunlisted ⟨row, List.mem_cons_self, hcounted, heq.symm⟩
      rw [ih h hrest, lookup_setItem, if_neg hne]
    · rw [if_neg hcounted] at h
      exact ih h hrest

/-- The last row of a service is the one whose counter is recorded. -/
theorem lookup_of_last {before after : List PsRow} {row : PsRow} {counts : List (String × ℤ)}
    (h : countRows out (before ++ row :: after) = .ok counts) (hcounted : row.counted = true)
    (hlast : ¬ Listed after row.svc) :
    ∃ n, row.restartCount = .ok n ∧ counts.lookup row.svc = some n := by
  induction before generalizing out with
  | nil =>
    rw [List.nil_append, countRows, if_pos hcounted] at h
    obtain ⟨n, hn, h⟩ := bind_eq_ok.mp h
    refine ⟨n, hn, ?_⟩
    rw [lookup_unlisted h hlast, lookup_setItem, if_pos rfl]
  | cons first before ih =>
    rw [List.cons_append, countRows] at h
    by_cases hfirst : first.counted = true
    · rw [if_pos hfirst] at h
      obtain ⟨n, -, h⟩ := bind_eq_ok.mp h
      exact ih h
    · rw [if_neg hfirst] at h
      exact ih h

/-- What is recorded is the counter of a row. -/
theorem row_of_lookup {counts : List (String × ℤ)} (h : countRows out rows = .ok counts)
    (hn : counts.lookup svc = some n) : out.lookup svc = some n ∨
      ∃ row ∈ rows, row.counted = true ∧ row.svc = svc ∧ row.restartCount = .ok n := by
  induction rows generalizing out with
  | nil =>
    injection h with h
    exact .inl (h ▸ hn)
  | cons row rows ih =>
    unfold countRows at h
    by_cases hcounted : row.counted = true
    · rw [if_pos hcounted] at h
      obtain ⟨k, hk, h⟩ := bind_eq_ok.mp h
      rcases ih h with hout | ⟨row', hrow', hfound⟩
      · rw [lookup_setItem] at hout
        split at hout
        · rename_i hsvc
          cases hout
          exact .inr ⟨row, List.mem_cons_self, hcounted, hsvc.symm, hk⟩
        · exact .inl hout
      · exact .inr ⟨row', List.mem_cons_of_mem _ hrow', hfound⟩
    · rw [if_neg hcounted] at h
      rcases ih h with hout | ⟨row', hrow', hfound⟩
      · exact .inl hout
      · exact .inr ⟨row', List.mem_cons_of_mem _ hrow', hfound⟩

theorem mem_of_lookup (h : out.lookup svc = some n) : (svc, n) ∈ out := by
  induction out with
  | nil => cases h
  | cons item out ih =>
    rw [lookup_cons] at h
    by_cases hitem : svc = item.1
    · rw [if_pos hitem] at h
      injection h with h
      rw [hitem, ← h]
      exact List.mem_cons_self
    · rw [if_neg hitem] at h
      exact List.mem_cons_of_mem _ (ih h)

/-- Counters that are not higher, where the baseline has the service. -/
theorem le_of_increased {baseline current : List (String × ℤ)}
    (h : increased baseline current = []) (hbase : baseline.lookup svc = some m)
    (hcurrent : current.lookup svc = some n) : n ≤ m := by
  have hfilter := List.filter_eq_nil_iff.mp (List.map_eq_nil_iff.mp h) (svc, m)
    (mem_of_lookup hbase)
  rw [hcurrent] at hfilter
  simpa using hfilter

/-! ## What a success rests on -/

/-- The routing gate passed, and the baseline was taken before the first round. -/
def Opened (inp : HealthInput) (base : List PsRow) (trace : GateTrace) : Prop :=
  ∃ newer routing, trace = newer ++ [⟨.composePs inp.projectName, .ok base⟩,
    ⟨.waitGatewayRoutingReady inp.gatewayBaseUrl, .ok routing⟩] ∧ routing.ok = true

/-- The call was ok, and nothing the baseline knows had restarted behind it. -/
def Sound (base : List PsRow) (c : Call) : Prop :=
  ∃ result rows, c = (.ok result, [.ok rows]) ∧ result.ok = true ∧
    ∃ counts, countRows [] rows = .ok counts ∧
      ∀ svc n m, Recorded base svc m → counts.lookup svc = some n → n ≤ m

/-- The last rounds were sound. -/
def Streak (base : List PsRow) (k : ℕ) (rounds : List Call) : Prop :=
  k ≤ rounds.length ∧ ∀ c ∈ rounds.take k, Sound base c

/-- The public gate is passed last. -/
def Published (inp : HealthInput) (trace : GateTrace) : Prop :=
  ∀ config, resolvePublicHttpsConfig inp = some config → ∃ result older,
    trace = ⟨.checkPublicHttpsGate config, .ok result⟩ :: older ∧ result.ok = true

structure Passed (inp : HealthInput) (pol : StabilizationPolicy) (base : List PsRow)
    (trace : GateTrace) : Prop where
  opened : Opened inp base trace
  healthy : pol.consecutiveSuccesses ≤ (calls trace).length ∧
    ∀ c ∈ (calls trace).take pol.consecutiveSuccesses,
      ∃ result rows, c = (.ok result, [.ok rows]) ∧ result.ok = true
  published : Published inp trace

/-- The container has not restarted more often than some container of its service in the
baseline. -/
def NotHigher (base : List PsRow) (row : PsRow) : Prop :=
  ∃ old ∈ base, old.counted = true ∧ old.svc = row.svc ∧
    ∃ n m, row.restartCount = .ok n ∧ old.restartCount = .ok m ∧ n ≤ m

/-- Every container listed behind one of the last `k` calls is of a service of the baseline, with a
restart counter that is not higher than there. -/
def Steady (k : ℕ) (base : List PsRow) (trace : GateTrace) : Prop :=
  ∀ c ∈ (calls trace).take k, ∀ rows, .ok rows ∈ c.2 → ∀ row ∈ rows, row.counted = true →
    NotHigher base row

/-- What the gate does not compare is in order: the baseline has every such service, and where a
listing names a service again, the rows before its last are not higher than the baseline. -/
structure Watched (k : ℕ) (base : List PsRow) (trace : GateTrace) : Prop where
  known : ∀ c ∈ (calls trace).take k, ∀ rows, .ok rows ∈ c.2 → ∀ svc, Listed rows svc →
    Listed base svc
  overwritten : ∀ c ∈ (calls trace).take k, ∀ before row after, .ok (before ++ row :: after) ∈ c.2 →
    row.counted = true → Listed after row.svc → NotHigher base row

theorem Steady.watched {k : ℕ} (h : Steady k base trace) : Watched k base trace where
  known c hc rows hrows svc hlisted := by
    obtain ⟨row, hrow, hcounted, rfl⟩ := hlisted
    obtain ⟨old, hold, hcounted, hsvc, -⟩ := h c hc rows hrows row hrow hcounted
    exact ⟨old, hold, hcounted, hsvc⟩
  overwritten c hc before row after hrows hcounted _ :=
    h c hc _ hrows row (by simp) hcounted

theorem Watched.steady {k : ℕ} {counts : List (String × ℤ)} (h : Watched k base trace)
    (hbase : countRows [] base = .ok counts) (hstreak : Streak base k (calls trace)) :
    Steady k base trace := by
  intro c hc rows hrows row hrow hcounted
  obtain ⟨before, after, rfl⟩ := List.append_of_mem hrow
  by_cases hlast : Listed after row.svc
  · exact h.overwritten c hc before row after hrows hcounted hlast
  obtain ⟨result, rows', rfl, -, current, hcurrent, hle⟩ := hstreak.2 c hc
  obtain rfl : before ++ row :: after = rows' := by simpa using hrows
  obtain ⟨n, hrestart, hn⟩ := lookup_of_last hcurrent hcounted hlast
  obtain ⟨m, hm⟩ := (listed_iff hbase).mp (h.known _ hc _ hrows _ ⟨row, hrow, hcounted, rfl⟩)
  obtain hnone | ⟨old, hold, holdCounted, hsvc, hrestarts⟩ := row_of_lookup hbase hm
  · cases hnone
  · exact ⟨old, hold, holdCounted, hsvc, n, m, hrestart, hrestarts,
      hle row.svc n m ⟨counts, hbase, hm⟩ hn⟩

theorem Streak.succ {k : ℕ} {rounds : List Call} {c : Call} (h : Streak base k rounds)
    (hc : Sound base c) : Streak base (k + 1) (c :: rounds) := by
  refine ⟨Nat.succ_le_succ h.1, ?_⟩
  intro c' hc'
  rcases List.mem_cons.mp hc' with rfl | hc'
  · exact hc
  · exact h.2 c' hc'

/-! ## How a run ends -/

/-- As many rounds as begin within the window. -/
def StabilizationPolicy.windowRounds (pol : StabilizationPolicy) : ℕ :=
  ⌈pol.windowSeconds / pol.intervalSeconds⌉₊

structure Ended (inp : HealthInput) (pol : StabilizationPolicy) (fuel : ℕ)
    (r : Except Failure (Option HealthResult)) (trace : GateTrace) : Prop where
  bounded : Regular trace → (calls trace).length ≤ pol.windowRounds + pol.consecutiveSuccesses
  ends : Regular trace → pol.windowRounds + pol.consecutiveSuccesses ≤ fuel → r ≠ .ok none
  passed : ∀ result, r = .ok (some result) → result.ok = true ∧ ∃ base,
    Passed inp pol base trace ∧
    (Steady pol.consecutiveSuccesses base trace ↔ Watched pol.consecutiveSuccesses base trace)

/-- What holds before the turn that `n` rounds lead to. -/
structure Head (inp : HealthInput) (pol : StabilizationPolicy) (base : List PsRow) (start : ℚ)
    (n : ℕ) (s : LoopState) (trace : GateTrace) : Prop where
  opened : Opened inp base trace
  rounds : (calls trace).length = n
  streak : Streak base s.successes (calls trace)
  below : s.successes < pol.consecutiveSuccesses
  early : Regular trace → n ≤ pol.windowRounds + s.successes
  late : Regular trace → ∃ t ∈ reached trace, start + n * pol.intervalSeconds ≤ t

/-- Nothing but the bound on the rounds is said of a run that raises. -/
theorem Ended.raise {fuel : ℕ} {e : Failure}
    (h : Regular trace → (calls trace).length ≤ pol.windowRounds + pol.consecutiveSuccesses) :
    Ended inp pol fuel (.error e) trace :=
  ⟨h, fun _ _ => nofun, fun _ => nofun⟩

/-- A round that begins before the end of the window is one of the first. -/
theorem lt_windowRounds {start t : ℚ} {n : ℕ} (hinterval : 0 < pol.intervalSeconds)
    (hlate : start + n * pol.intervalSeconds ≤ t) (ht : t < start + pol.windowSeconds) :
    n < pol.windowRounds := by
  have hlt : n * pol.intervalSeconds < pol.windowSeconds := by linarith
  have hdiv : (n : ℚ) < pol.windowSeconds / pol.intervalSeconds := (lt_div_iff₀ hinterval).mpr hlt
  exact Nat.lt_ceil.mpr hdiv

/-! ## Turns -/

variable {post : Except Failure α → GateTrace → Prop}

/-- Any question may be asked. -/
def Any (_ : GateTrace) (_ : Question) : Prop := True

theorem wp_call {q : Question} {h : Answer q = Except Failure β} {f : β → Gate α}
    (herror : ∀ e, post (.error e) (⟨q, cast h.symm (.error e)⟩ :: trace))
    (hok : ∀ b, (f b).wp Any post (⟨q, cast h.symm (.ok b)⟩ :: trace)) :
    (call q h >>= f).wp Any post trace := by
  refine ⟨trivial, fun answer => ?_⟩
  obtain ⟨x, rfl⟩ : ∃ x : Except Failure β, answer = cast h.symm x := ⟨cast h answer, by simp⟩
  change Prog.wp Any ((Prog.ofExcept (cast h (cast h.symm x))).bind f) _ _
  rw [cast_cast, cast_eq]
  cases x with
  | error e => exact herror e
  | ok b => exact hok b

theorem wp_collect {f : List (String × ℤ) → Gate α}
    (herror : ∀ e answer, post (.error e) (⟨.composePs inp.projectName, answer⟩ :: trace))
    (hok : ∀ rows counts, countRows [] rows = .ok counts →
      (f counts).wp Any post (⟨.composePs inp.projectName, .ok rows⟩ :: trace)) :
    (collectRestartCounts inp >>= f).wp Any post trace := by
  rw [Prog.wp_bind]
  apply wp_call
  · intro e
    exact herror e _
  · intro rows
    rw [Prog.wp_ofExcept]
    cases hcounts : countRows [] rows with
    | error e => exact herror e _
    | ok counts => exact hok rows counts hcounts

/-- The trace has grown by answers that are no part of a round. -/
structure Grown (trace trace' : GateTrace) : Prop where
  calls_eq : calls trace' = calls trace
  regular : Regular trace' → Regular trace
  suffix : ∃ newer, trace' = newer ++ trace

theorem Opened.cons {x : (q : Question) × Answer q} (h : Opened inp base trace) :
    Opened inp base (x :: trace) := by
  obtain ⟨newer, routing, rfl, hrouting⟩ := h
  exact ⟨x :: newer, routing, rfl, hrouting⟩

theorem Opened.grown {trace' : GateTrace} (h : Opened inp base trace) (hgrown : Grown trace trace') :
    Opened inp base trace' := by
  obtain ⟨newer', rfl⟩ := hgrown.suffix
  obtain ⟨newer, routing, rfl, hrouting⟩ := h
  exact ⟨newer' ++ newer, routing, by rw [List.append_assoc], hrouting⟩

theorem wp_refuse {messages : List String} (herror : ∀ e, post (.error e) trace) :
    (refuse messages : Gate α).wp Any post trace := by
  cases messages with
  | nil => exact herror _
  | cons message messages => exact herror _

theorem wp_succeed {routing : RoutingHealthResult} {last : HealthResult}
    {post : Except Failure HealthResult → GateTrace → Prop}
    (herror : ∀ e trace', Grown trace trace' → post (.error e) trace')
    (hok : ∀ result trace', Grown trace trace' → Published inp trace' → result.ok = true →
      post (.ok result) trace') :
    (succeed inp routing last).wp Any post trace := by
  unfold succeed
  cases hconfig : resolvePublicHttpsConfig inp with
  | none =>
    apply hok _ _ ⟨rfl, id, [], rfl⟩ _ rfl
    intro config hconfig'
    rw [hconfig] at hconfig'
    cases hconfig'
  | some config =>
    have hgrown (answer : Except Failure RoutingHealthResult) :
        Grown trace (⟨.checkPublicHttpsGate config, answer⟩ :: trace) := ⟨rfl, id, [_], rfl⟩
    rw [Prog.wp_bind, publicGate, Prog.wp_mapError]
    refine ⟨trivial, fun answer => ?_⟩
    rcases answer with e | result
    · exact herror _ _ (hgrown _)
    · change Prog.wp Any (if result.ok = true then _ else _) post _
      by_cases hresult : result.ok = true
      · rw [if_pos hresult]
        apply hok _ _ (hgrown _) _ rfl
        intro config' hconfig'
        rw [hconfig] at hconfig'
        cases hconfig'
        exact ⟨result, trace, rfl, hresult⟩
      · rw [if_neg hresult]
        exact wp_refuse fun e => herror e _ (hgrown _)

variable {start : ℚ} {n fuel : ℕ} {s : LoopState} {routing : RoutingHealthResult}
  {baseline : List (String × ℤ)} {last : HealthResult}

/-- The round that a turn begins with is within the bound. -/
theorem Head.bounded (h : Head inp pol base start n s trace) :
    Regular trace → n + 1 ≤ pol.windowRounds + pol.consecutiveSuccesses := by
  intro hregular
  have hearly := h.early hregular
  have hbelow := h.below
  omega

theorem wp_afterFailure {now : ℚ} (hk : 0 < pol.consecutiveSuccesses)
    (hinterval : 0 < pol.intervalSeconds) (h : Head inp pol base start n s trace) :
    (afterFailure pol (start + pol.windowSeconds) last).wp Any
      (Prog.turnTo (Head inp pol base start (n + 1)) (Ended inp pol fuel))
      (⟨.runHealth, .ok last⟩ :: ⟨.clock, now⟩ :: trace) := by
  refine ⟨trivial, fun _ => ⟨trivial, fun (later : ℚ) => ?_⟩⟩
  have hbound : Regular trace → (calls trace).length + 1 ≤
      pol.windowRounds + pol.consecutiveSuccesses := by
    rw [h.rounds]
    exact h.bounded
  change Prog.wp Any (if start + pol.windowSeconds ≤ later ∧ 0 < pol.consecutiveSuccesses then _
    else _) _ _
  by_cases hend : start + pol.windowSeconds ≤ later ∧ 0 < pol.consecutiveSuccesses
  · rw [if_pos hend]
    exact Ended.raise fun hregular => hbound hregular.older.older.older.older
  · rw [if_neg hend]
    have hlater : later < start + pol.windowSeconds := by
      by_contra hle
      exact hend ⟨not_lt.mp hle, hk⟩
    have hlate : Regular (⟨.clock, later⟩ :: ⟨.sleeper pol.intervalSeconds, ()⟩ ::
        ⟨.runHealth, .ok last⟩ :: ⟨.clock, now⟩ :: trace) →
        start + (n + 1 : ℕ) * pol.intervalSeconds ≤ later := by
      rintro ⟨⟨hregular, hnow⟩, hle⟩
      obtain ⟨t, ht, htime⟩ := h.late hregular
      have h1 : t ≤ now := hnow t ht
      have h2 : now + pol.intervalSeconds ≤ later := hle _ rfl
      push_cast
      linarith
    refine ⟨h.opened.cons.cons.cons.cons, ?_, ⟨Nat.zero_le _, by simp⟩, hk, ?_, ?_⟩
    · exact congrArg (· + 1) h.rounds
    · intro hregular
      exact lt_windowRounds hinterval
        (by have := hlate hregular; push_cast at this; linarith) hlater
    · intro hregular
      exact ⟨later, rfl, hlate hregular⟩

theorem sound_of_increased {rows : List PsRow} {counts : List (String × ℤ)}
    (hbase : countRows [] base = .ok baseline) (hcounts : countRows [] rows = .ok counts)
    (h : increased baseline counts = []) (hlast : last.ok = true) :
    Sound base (.ok last, [.ok rows]) := by
  refine ⟨last, rows, rfl, hlast, counts, hcounts, ?_⟩
  rintro svc n m ⟨counts', hcounts', hm⟩ hn
  obtain rfl : baseline = counts' := by
    rw [hbase] at hcounts'
    injection hcounts'
  exact le_of_increased h hm hn

theorem wp_afterSuccess {now : ℚ} (hbase : countRows [] base = .ok baseline)
    (h : Head inp pol base start n s trace) (hlast : last.ok = true) :
    (afterSuccess inp pol routing baseline s last).wp Any
      (Prog.turnTo (Head inp pol base start (n + 1)) (Ended inp pol fuel))
      (⟨.runHealth, .ok last⟩ :: ⟨.clock, now⟩ :: trace) := by
  have hbound : Regular trace → (calls trace).length + 1 ≤
      pol.windowRounds + pol.consecutiveSuccesses := by
    rw [h.rounds]
    exact h.bounded
  have hlength (answer : Except Failure (List PsRow)) :
      (calls (⟨.composePs inp.projectName, answer⟩ :: ⟨.runHealth, .ok last⟩ ::
        ⟨.clock, now⟩ :: trace)).length = (calls trace).length + 1 := rfl
  apply wp_collect
  · intro e answer
    exact Ended.raise fun hregular => hbound hregular.older.older.older
  · intro rows counts hcounts
    cases hincreased : increased baseline counts with
    | cons svc more =>
      exact Ended.raise fun hregular => hbound hregular.older.older.older
    | nil =>
      have hsound : Sound base (.ok last, [.ok rows]) :=
        sound_of_increased hbase hcounts hincreased hlast
      have hstreak := h.streak.succ hsound
      change Prog.wp Any (if pol.consecutiveSuccesses ≤ s.successes + 1 then _ else _) _ _
      by_cases henough : pol.consecutiveSuccesses ≤ s.successes + 1
      · rw [if_pos henough, Prog.wp_bind]
        have hk : s.successes + 1 = pol.consecutiveSuccesses := by
          have hbelow := h.below
          omega
        rw [hk] at hstreak
        apply wp_succeed
        · intro e trace' hgrown
          refine Ended.raise fun hregular => ?_
          rw [hgrown.calls_eq]
          exact hbound (hgrown.regular hregular).older.older.older
        · intro result trace' hgrown hpublished hresult
          have hcalls : calls trace' = (.ok last, [.ok rows]) :: calls trace := hgrown.calls_eq
          refine ⟨fun hregular => ?_, fun _ _ => nofun, ?_⟩
          · rw [hcalls]
            exact hbound (hgrown.regular hregular).older.older.older
          · rintro _ ⟨⟩
            rw [← hcalls] at hstreak
            refine ⟨hresult, base, ⟨h.opened.cons.cons.cons.grown hgrown, ⟨hstreak.1, ?_⟩,
              hpublished⟩, Steady.watched, fun hwatched => hwatched.steady hbase hstreak⟩
            intro c hc
            obtain ⟨result, rows, heq, hok, -⟩ := hstreak.2 c hc
            exact ⟨result, rows, heq, hok⟩
      · rw [if_neg henough]
        refine ⟨trivial, fun _ => ?_⟩
        refine ⟨h.opened.cons.cons.cons.cons, congrArg (· + 1) h.rounds, hstreak,
          not_le.mp henough, ?_, ?_⟩
        · intro hregular
          have hearly := h.early hregular.older.older.older.older
          change n + 1 ≤ pol.windowRounds + (s.successes + 1)
          omega
        · intro hregular
          have hclock : Regular (⟨.clock, now⟩ :: trace) := hregular.older.older.older
          obtain ⟨t, ht, htime⟩ := h.late hclock.older
          have hnow : t ≤ now := hclock.2 t ht
          refine ⟨now + pol.intervalSeconds, rfl, ?_⟩
          push_cast
          linarith

theorem wp_stabilizeStep (hk : 0 < pol.consecutiveSuccesses) (hinterval : 0 < pol.intervalSeconds)
    (hbase : countRows [] base = .ok baseline) (h : Head inp pol base start n s trace) :
    (stabilizeStep inp pol routing baseline (start + pol.windowSeconds) s).wp Any
      (Prog.turnTo (Head inp pol base start (n + 1)) (Ended inp pol fuel)) trace := by
  refine ⟨trivial, fun (now : ℚ) => ?_⟩
  have hgo : now < start + pol.windowSeconds ∨ s.successes < pol.consecutiveSuccesses :=
    .inr h.below
  change Prog.wp Any (if now < start + pol.windowSeconds ∨ s.successes < pol.consecutiveSuccesses
    then _ else _) _ _
  rw [if_pos hgo]
  apply wp_call
  · intro e
    refine Ended.raise fun hregular => ?_
    have hbound := h.bounded hregular.older.older
    rwa [← h.rounds] at hbound
  · intro last
    change Prog.wp Any (if last.ok = true then _ else _) _ _
    by_cases hlast : last.ok = true
    · rw [if_pos hlast]
      exact wp_afterSuccess hbase h hlast
    · rw [if_neg hlast]
      exact wp_afterFailure hk hinterval h

theorem wp_stabilizeFullHealth (hk : 0 < pol.consecutiveSuccesses)
    (hinterval : 0 < pol.intervalSeconds) :
    (stabilizeFullHealth inp pol fuel).wp Any (Ended inp pol fuel) [] := by
  apply wp_call
  · intro e
    exact Ended.raise fun _ => Nat.zero_le _
  · intro routing
    change Prog.wp Any (if routing.ok = true then _ else _) _ _
    by_cases hrouting : routing.ok = true
    · rw [if_pos hrouting]
      apply wp_collect
      · intro e answer
        exact Ended.raise fun _ => Nat.zero_le _
      · intro base baseline hbase
        refine ⟨trivial, fun (start : ℚ) => ?_⟩
        apply Prog.wp_iterate_counted (I := Head inp pol base start)
        · intro n s trace h
          exact wp_stabilizeStep hk hinterval hbase h
        · intro s trace h
          refine ⟨fun hregular => ?_, fun hregular hfuel => ?_, nofun⟩
          · have hbound := h.bounded hregular
            rw [h.rounds]
            omega
          · have hbound := h.bounded hregular
            omega
        · refine ⟨⟨[_], routing, rfl, hrouting⟩, rfl, ⟨le_rfl, by simp⟩, hk, fun _ => ?_, fun _ => ?_⟩
          · exact Nat.zero_le _
          · exact ⟨start, rfl, by simp⟩
    · rw [if_neg hrouting]
      exact wp_refuse fun e => Ended.raise fun _ => Nat.zero_le _

/-! ## Every run of the gate -/

/-- A run has a bounded number of rounds and ends. If it succeeds, its gates have passed and enough
calls in a row were ok; no container behind them has restarted if and only if what the gate does not
compare is in order. -/
theorem stabilize_steady_iff (inp : HealthInput) (pol : StabilizationPolicy)
    (hk : 1 ≤ pol.consecutiveSuccesses) (hinterval : 0 < pol.intervalSeconds)
    (env : GateTrace → (q : Question) → Answer q) (fuel : ℕ) :
    Ended inp pol fuel ((stabilizeFullHealth inp pol fuel).run env []).1
      ((stabilizeFullHealth inp pol fuel).run env []).2 :=
  (Prog.run_of_wp (wp_stabilizeFullHealth hk hinterval) trivial).1

/-- An API container that is first listed behind the call of `run_health`, after five restarts. -/
def crashLooping (trace : GateTrace) : (q : Question) → Answer q
  | .waitGatewayRoutingReady _ => .ok ⟨true, []⟩
  | .composePs _ => .ok (if calls trace = [] then [] else
      [{ Service := some "api", ID := some "c1", restartCount := .ok 5 }])
  | .runHealth => .ok ⟨true, []⟩
  | .checkPublicHttpsGate _ => .ok ⟨true, []⟩
  | .clock => (0 : ℚ)
  | .sleeper _ => ()

def isolated : HealthInput := ⟨"isolated", "http://127.0.0.1:8091", none⟩

def once : StabilizationPolicy := ⟨1, 1, 0⟩

/-- What the run with the new container has asked. -/
def crashLoopingTrace : GateTrace :=
  [⟨.composePs "isolated",
      .ok [{ Service := some "api", ID := some "c1", restartCount := .ok 5 }]⟩,
    ⟨.runHealth, .ok ⟨true, []⟩⟩, ⟨.clock, (0 : ℚ)⟩, ⟨.clock, (0 : ℚ)⟩,
    ⟨.composePs "isolated", .ok []⟩,
    ⟨.waitGatewayRoutingReady "http://127.0.0.1:8091", .ok ⟨true, []⟩⟩]

theorem run_crashLooping : (stabilizeFullHealth isolated once 1).run crashLooping [] =
    (.ok (some ⟨true, []⟩), crashLoopingTrace) := by
  have hstep : (stabilizeStep isolated once ⟨true, []⟩ [] (0 + once.windowSeconds) ⟨0, none⟩) =
      .ask .clock fun (_ : ℚ) => call .runHealth rfl >>= fun last =>
        if last.ok = true then afterSuccess isolated once ⟨true, []⟩ [] ⟨0, none⟩ last
        else afterFailure once (0 + once.windowSeconds) last := by
    refine congrArg (Prog.ask _) (funext fun now => ?_)
    exact if_pos (.inr Nat.one_pos)
  change Prog.run crashLooping (((stabilizeStep isolated once ⟨true, []⟩ []
    (0 + once.windowSeconds) ⟨0, none⟩) : Gate _).bind _) _ = _
  rw [hstep]
  rfl

/-- The gate lets a container pass that has restarted five times. -/
theorem crash_loop_passes :
    ((stabilizeFullHealth isolated once 1).run crashLooping []).1 = .ok (some ⟨true, []⟩) ∧
      Regular ((stabilizeFullHealth isolated once 1).run crashLooping []).2 ∧
      ∀ base, Opened isolated base ((stabilizeFullHealth isolated once 1).run crashLooping []).2 →
        ¬ Steady once.consecutiveSuccesses base
          ((stabilizeFullHealth isolated once 1).run crashLooping []).2 := by
  rw [run_crashLooping]
  refine ⟨rfl, ?_, ?_⟩
  · refine ⟨⟨trivial, nofun⟩, ?_⟩
    rintro t ⟨⟩
    exact le_rfl
  · rintro base ⟨newer, routing, htrace, -⟩ hsteady
    obtain rfl : base = [] := by
      have hlast := congrArg (fun trace => trace.reverse[1]?) htrace
      simp only [crashLoopingTrace, List.reverse_append, List.reverse_cons, List.reverse_nil,
        List.nil_append, List.cons_append, List.getElem?_cons_succ, List.getElem?_cons_zero] at hlast
      injection hlast with hlast
      injection hlast with _ hrows
      exact (Except.ok.inj hrows).symm
    obtain ⟨old, hold, -⟩ := hsteady _ List.mem_cons_self _ List.mem_cons_self _
      List.mem_cons_self (by decide)
    cases hold

theorem crash_loop_steady_iff : Ended isolated once 1
    ((stabilizeFullHealth isolated once 1).run crashLooping []).1
    ((stabilizeFullHealth isolated once 1).run crashLooping []).2 :=
  stabilize_steady_iff isolated once le_rfl one_pos crashLooping 1

end FetchNow.Stabilize
