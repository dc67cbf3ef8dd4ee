import FetchNow.Quota.Coverage

/-!
# The durable fragment bound

`begin` counts one first byte for every open attempt. A counted byte that is never served can
bridge two closed fragments, so the bound needs every choice of attempts that go on to close
with bytes to stay within it.
-/
namespace FetchNow

open Transactions Intervals

variable {rows₀ rows rows' : DownloadRows} {quota quota' : QuotaRows} {job : MediaDownloadJob}
  {ranges ranges' : List FreeDownloadDeliveryRange} {row : FreeDownloadDeliveryRange}
  {closing chosen : FreeDownloadDeliveryRange → Bool} {now : Timestamp} {fresh : Nat → Uuid}
  {attemptId newId : Uuid} {start stop observedEnd served : Nat} {events : List LedgerEvent}
  {attempt : FreeDownloadDeliveryRange} {result : DeliveryAccountingResult} {x : ℕ}

/-- The shortest prefix with which an open attempt can close and leave a row. -/
def shortestPrefix (row : FreeDownloadDeliveryRange) : Interval :=
  (row.requestStart, max (row.requestStart + 1) row.servedEndExclusive)

def prefixes (rows : List FreeDownloadDeliveryRange) : Finset ℕ :=
  covered (rows.map shortestPrefix)

/-- The closed bytes once exactly the chosen open attempts have closed, each at its shortest. -/
def closable (chosen : FreeDownloadDeliveryRange → Bool)
    (ranges : List FreeDownloadDeliveryRange) : Finset ℕ :=
  coverage (closedRows ranges) ∪ prefixes ((activeRows ranges).filter chosen)

/-- Whichever open attempts close with bytes, the fragments stay within the bound. -/
def Robust (ranges : List FreeDownloadDeliveryRange) : Prop :=
  ∀ chosen, components (closable chosen ranges) ≤ maxClosedFragments

theorem mem_prefixes : x ∈ prefixes ranges ↔
    ∃ row ∈ ranges, row.requestStart ≤ x ∧
      x < max (row.requestStart + 1) row.servedEndExclusive := by
  simp [prefixes, mem_covered, shortestPrefix]

theorem mem_closable : x ∈ closable chosen ranges ↔ x ∈ coverage (closedRows ranges) ∨
    ∃ row ∈ activeRows ranges, chosen row = true ∧ row.requestStart ≤ x ∧
      x < max (row.requestStart + 1) row.servedEndExclusive := by
  simp only [closable, Finset.mem_union, mem_prefixes, List.mem_filter, and_assoc]

theorem closable_false : closable (fun _ => false) ranges = coverage (closedRows ranges) := by
  simp [closable, prefixes]

theorem Robust.closed (h : Robust ranges) :
    components (coverage (closedRows ranges)) ≤ maxClosedFragments :=
  closable_false ▸ h fun _ => false

theorem robust_nil : Robust [] := by
  intro chosen
  have hempty : closable chosen [] = ∅ := rfl
  simp [hempty, components, leftEnds]

/-! ## Closing and advancing attempts -/

/-- Once an attempt has closed, its bytes count whatever else is chosen. -/
theorem closable_settles (hsettles : Settles closing ranges ranges') :
    closable chosen ranges' = closable (fun row =>
      if closing row then decide (row.requestStart < row.servedEndExclusive) else chosen row)
      ranges := by
  ext x
  simp only [mem_closable, hsettles.closed, Finset.mem_union, hsettles.active.mem_iff,
    List.mem_filter]
  constructor
  · rintro ((hx | hx) | ⟨row, ⟨hrow, hopen⟩, hchosen, hx⟩)
    · exact .inl hx
    · obtain ⟨row, hrow, hx⟩ := mem_coverage.mp hx
      obtain ⟨hrow, hclosing⟩ := List.mem_filter.mp hrow
      refine .inr ⟨row, hrow, ?_, hx.1, lt_max_of_lt_right hx.2⟩
      simp only [hclosing, if_true, decide_eq_true_eq]
      omega
    · exact .inr ⟨row, hrow, by simp_all, hx⟩
  · rintro (hx | ⟨row, hrow, hchosen, hx⟩)
    · exact .inl (.inl hx)
    · cases hclosing : closing row with
      | true =>
        simp only [hclosing, if_true, decide_eq_true_eq] at hchosen
        rw [max_eq_right (by omega)] at hx
        exact .inl (.inr (mem_coverage.mpr ⟨row, List.mem_filter.mpr ⟨hrow, hclosing⟩, hx⟩))
      | false =>
        simp only [hclosing, Bool.false_eq_true, if_false] at hchosen
        exact .inr ⟨row, ⟨hrow, by simp [hclosing]⟩, hchosen, hx⟩

theorem Robust.settles (h : Robust ranges) (hsettles : Settles closing ranges ranges') :
    Robust ranges' := by
  intro chosen
  rw [closable_settles hsettles]
  exact h _

section Advance

variable {write : FreeDownloadDeliveryRange → FreeDownloadDeliveryRange}

theorem closedRows_updateRange (hwrite : Advances served write)
    (hnodup : (ranges.map (·.id)).Nodup)
    (hfind : ranges.find? (·.id = attemptId) = some attempt) (hactive : attempt.state = .active) :
    coverage (closedRows (updateRange attemptId write ranges)) = coverage (closedRows ranges) := by
  apply coverage_congr
  intro row
  simp only [closedRows, List.mem_filter, decide_eq_true_eq]
  constructor
  · rintro ⟨hrow, hclosed⟩
    rcases mem_updateRange hrow with hrow | ⟨row', hrow', hid, rfl⟩
    · exact ⟨hrow, hclosed⟩
    · obtain rfl := find?_unique hnodup hfind hrow' hid
      rw [hwrite.state, hactive] at hclosed
      cases hclosed
  · rintro ⟨hrow, hclosed⟩
    refine ⟨List.mem_map.mpr ⟨row, hrow, if_neg fun hid => ?_⟩, hclosed⟩
    obtain rfl := find?_unique hnodup hfind hrow hid
    rw [hactive] at hclosed
    cases hclosed

/-- The choice made before the write that corresponds to one made after it. -/
def before (attemptId : Uuid) (write : FreeDownloadDeliveryRange → FreeDownloadDeliveryRange)
    (chosen : FreeDownloadDeliveryRange → Bool) (row : FreeDownloadDeliveryRange) : Bool :=
  chosen (if row.id = attemptId then write row else row)

/-- All the chosen attempts but one. -/
def others (attemptId : Uuid) (chosen : FreeDownloadDeliveryRange → Bool)
    (row : FreeDownloadDeliveryRange) : Bool := chosen row && decide (row.id ≠ attemptId)

theorem closable_split (hnodup : (ranges.map (·.id)).Nodup)
    (hfind : ranges.find? (·.id = attemptId) = some attempt) (hactive : attempt.state = .active) :
    closable chosen ranges =
      (if chosen attempt then
        Finset.Ico attempt.requestStart (max (attempt.requestStart + 1) attempt.servedEndExclusive)
      else ∅) ∪ closable (others attemptId chosen) ranges := by
  have hattempt := List.mem_of_find?_eq_some hfind
  have hid : attempt.id = attemptId := by simpa using List.find?_some hfind
  have hmem : attempt ∈ activeRows ranges := List.mem_filter.mpr ⟨hattempt, by simp [hactive]⟩
  ext x
  rw [Finset.mem_union, mem_closable, mem_closable]
  constructor
  · rintro (hx | ⟨row, hrow, hchosen, hx⟩)
    · exact .inr (.inl hx)
    · by_cases hrowId : row.id = attemptId
      · obtain rfl := find?_unique hnodup hfind (List.mem_filter.mp hrow).1 hrowId
        left
        rw [if_pos hchosen]
        exact Finset.mem_Ico.mpr hx
      · exact .inr (.inr ⟨row, hrow, by simp [others, hchosen, hrowId], hx⟩)
  · rintro (hx | hx | ⟨row, hrow, hchosen, hx⟩)
    · split at hx
      · rename_i hchosen
        exact .inr ⟨attempt, hmem, hchosen, Finset.mem_Ico.mp hx⟩
      · simp at hx
    · exact .inl hx
    · exact .inr ⟨row, hrow, (Bool.and_eq_true_iff.mp hchosen).1, hx⟩

theorem closable_updateRange (hwrite : Advances served write)
    (hnodup : (ranges.map (·.id)).Nodup)
    (hfind : ranges.find? (·.id = attemptId) = some attempt) (hactive : attempt.state = .active) :
    closable chosen (updateRange attemptId write ranges) =
      (if before attemptId write chosen attempt then
        Finset.Ico attempt.requestStart (max (attempt.requestStart + 1) served)
      else ∅) ∪ closable (others attemptId (before attemptId write chosen)) ranges := by
  have hattempt := List.mem_of_find?_eq_some hfind
  have hid : attempt.id = attemptId := by simpa using List.find?_some hfind
  have hbefore : before attemptId write chosen attempt = chosen (write attempt) := by
    simp [before, hid]
  ext x
  rw [Finset.mem_union, mem_closable, mem_closable,
    closedRows_updateRange hwrite hnodup hfind hactive]
  constructor
  · rintro (hx | ⟨row', hrow', hchosen, hx⟩)
    · exact .inr (.inl hx)
    · obtain ⟨hrow', hstate⟩ := List.mem_filter.mp hrow'
      obtain ⟨row, hrow, rfl⟩ := List.mem_map.mp hrow'
      by_cases hrowId : row.id = attemptId
      · obtain rfl := find?_unique hnodup hfind hrow hrowId
        rw [if_pos hrowId] at hchosen hx
        rw [hwrite.start, hwrite.served] at hx
        left
        rw [hbefore, if_pos hchosen]
        exact Finset.mem_Ico.mpr hx
      · rw [if_neg hrowId] at hchosen hx hstate
        exact .inr (.inr ⟨row, List.mem_filter.mpr ⟨hrow, hstate⟩,
          by simp [others, before, hchosen, hrowId], hx⟩)
  · rintro (hx | hx | ⟨row, hrow, hchosen, hx⟩)
    · split at hx
      · rename_i hchosen
        refine .inr ⟨write attempt, List.mem_filter.mpr ⟨?_, ?_⟩, hbefore ▸ hchosen, ?_⟩
        · exact List.mem_map.mpr ⟨attempt, hattempt, if_pos hid⟩
        · simp [hwrite.state, hactive]
        · rw [hwrite.start, hwrite.served]
          exact Finset.mem_Ico.mp hx
      · simp at hx
    · exact .inl hx
    · obtain ⟨hrow, hstate⟩ := List.mem_filter.mp hrow
      obtain ⟨hchosen, hrowId⟩ := Bool.and_eq_true_iff.mp hchosen
      have hrowId : ¬ row.id = attemptId := by simpa using hrowId
      rw [before, if_neg hrowId] at hchosen
      exact .inr ⟨row, List.mem_filter.mpr ⟨List.mem_map.mpr ⟨row, hrow, if_neg hrowId⟩, hstate⟩,
        hchosen, hx⟩

/-- Extending a prefix can only merge fragments. -/
theorem Robust.advance (h : Robust ranges) (hwrite : Advances served write)
    (hnodup : (ranges.map (·.id)).Nodup)
    (hfind : ranges.find? (·.id = attemptId) = some attempt) (hactive : attempt.state = .active)
    (hle : attempt.servedEndExclusive ≤ served) :
    Robust (updateRange attemptId write ranges) := by
  intro chosen
  have hbound := h (before attemptId write chosen)
  rw [closable_split hnodup hfind hactive] at hbound
  rw [closable_updateRange hwrite hnodup hfind hactive]
  cases hchosen : before attemptId write chosen attempt with
  | false => simpa [hchosen] using hbound
  | true =>
    rw [hchosen, if_pos rfl] at hbound
    rw [if_pos rfl]
    exact (components_extend (by omega) (by omega)).trans hbound

end Advance

/-! ## Admission -/

/-- The new first byte stays within the bound whichever of the other attempts close: those
lapsed at `now` close as they are, the chosen ones at their shortest. -/
def AdmissionSafe (now : Timestamp) (start : Nat) (ranges : List FreeDownloadDeliveryRange) :
    Prop :=
  ∀ chosen : FreeDownloadDeliveryRange → Bool,
    components (insert start (closable (fun row =>
      if lapsed now row then decide (row.requestStart < row.servedEndExclusive) else chosen row)
      ranges)) ≤ maxClosedFragments

theorem closable_openAttempt :
    closable chosen (ranges ++ [openAttempt job newId start stop now]) =
      if chosen (openAttempt job newId start stop now) then insert start (closable chosen ranges)
      else closable chosen ranges := by
  have hclosed : closedRows (ranges ++ [openAttempt job newId start stop now]) =
      closedRows ranges := by
    simp [closedRows, openAttempt]
  have hactive : activeRows (ranges ++ [openAttempt job newId start stop now]) =
      activeRows ranges ++ [openAttempt job newId start stop now] := by
    simp [activeRows, openAttempt]
  have hprefix : prefixes [openAttempt job newId start stop now] = {start} := by
    simp [prefixes, shortestPrefix, openAttempt]
  have happend : ∀ l l', prefixes (l ++ l') = prefixes l ∪ prefixes l' := fun l l' => by
    simp [prefixes, covered_append]
  cases hchosen : chosen (openAttempt job newId start stop now) with
  | false => simp [closable, hclosed, hactive, hchosen]
  | true =>
    simp only [closable, hclosed, hactive, List.filter_append, happend, if_true]
    rw [List.filter_cons_of_pos hchosen, List.filter_nil, hprefix, ← Finset.union_assoc,
      Finset.union_comm _ {start}, Finset.insert_eq]

/-- An admission that is safe keeps the ledger robust. -/
theorem Robust.openAttempt (h : Robust ranges) (hsafe : AdmissionSafe now start ranges)
    (hsettles : Settles (lapsed now) ranges ranges') :
    Robust (ranges' ++ [openAttempt job newId start stop now]) := by
  intro chosen
  rw [closable_openAttempt]
  split
  · rw [closable_settles hsettles]
    exact hsafe chosen
  · exact h.settles hsettles chosen

/-! ## Runs -/

/-- What the bound needs of a call: an admission over a reserved entry must be safe. -/
def LedgerCall.SafeAt (call : LedgerCall) (rows : DownloadRows) : Prop :=
  match call with
  | .begin _ tier start _ _ _ _ clock =>
    tier ≠ .premium → ∀ quota ∈ rows.quota, quota.entry.state = .reserved →
      AdmissionSafe (clock 0) start quota.ranges
  | _ => True

/-- The committed calls on one entry, every admission among them safe. -/
inductive SafeRun (rows₀ : DownloadRows) : DownloadRows → Prop
  | start : SafeRun rows₀ rows₀
  | call {rows rows' : DownloadRows} {events : List LedgerEvent} (call : LedgerCall) :
      SafeRun rows₀ rows → call.SafeAt rows → call.run rows = .ok (rows', events) →
      SafeRun rows₀ rows'

/-- A robust ledger with distinct keys. -/
def Bounded (rows : DownloadRows) : Prop :=
  ∀ quota ∈ rows.quota, (quota.ranges.map (·.id)).Nodup ∧ Robust quota.ranges

theorem Consumes.bounded {entry : FreeDownloadQuotaEntry}
    (hconsumes : Consumes job now ⟨entry, ranges⟩ quota' result)
    (h : (ranges.map (·.id)).Nodup ∧ Robust ranges) :
    (quota'.ranges.map (·.id)).Nodup ∧ Robust quota'.ranges := by
  rw [hconsumes.ranges]
  exact h

theorem CheckpointStep.bounded (h : Bounded rows)
    (hstep : CheckpointStep attemptId observedEnd now rows rows' result) : Bounded rows' := by
  cases hstep with
  | advanced hobserves _ _ hranges _ hconsumes _ =>
    rintro quota' ⟨⟩
    obtain ⟨hnodup, hrobust⟩ := h _ hobserves.stored
    subst hranges
    refine hconsumes.bounded ⟨?_, hrobust.advance advances_renewed hnodup hobserves.found
      hobserves.active (hobserves.length ▸ le_max_right _ _)⟩
    rw [updateRange_ids advances_renewed.id]
    exact hnodup

theorem FinalizeStep.bounded (h : Bounded rows)
    (hstep : FinalizeStep attemptId observedEnd now rows rows' result) : Bounded rows' := by
  cases hstep with
  | duplicate => exact h
  | closed hobserves hsettles _ hconsumes _ _ =>
    rintro quota' ⟨⟩
    obtain ⟨hnodup, hrobust⟩ := h _ hobserves.stored
    have hsettles := hsettles hnodup
    refine hconsumes.bounded ⟨hsettles.nodup ?_, (hrobust.advance advances_served hnodup
      hobserves.found hobserves.active (hobserves.length ▸ le_max_right _ _)).settles hsettles⟩
    rw [FetchNow.advance, updateRange_ids advances_served.id]
    exact hnodup

theorem bounded_step {call : LedgerCall} (h : Bounded rows) (hsafe : call.SafeAt rows)
    (hrun : call.run rows = .ok (rows', events)) : Bounded rows' := by
  cases call with
  | begin authorization tier start stop revalidated newId fresh clock =>
    simp only [LedgerCall.run, bind_eq_ok] at hrun
    obtain ⟨⟨_, attempt⟩, hbegin, hrun⟩ := hrun
    cases hrun
    by_cases htier : tier = .premium
    · rw [FetchNow.begin, if_pos htier] at hbegin
      cases hbegin
      exact h
    cases begin_spec hbegin with
    | unaccounted => exact h
    | admitted hquota _ _ _ _ hstate hsettles _ _ hnodup _ =>
      rintro quota' ⟨⟩
      obtain ⟨hids, hrobust⟩ := h _ hquota
      exact ⟨hnodup (hsettles.nodup hids),
        hrobust.openAttempt (hsafe htier _ hquota hstate) hsettles⟩
  | checkpoint attemptId observedEnd clock =>
    simp only [LedgerCall.run, bind_eq_ok] at hrun
    obtain ⟨⟨_, _⟩, hcheckpoint, hrun⟩ := hrun
    cases hrun
    exact (checkpoint_spec hcheckpoint).bounded h
  | finalize attemptId observedEnd fresh clock =>
    simp only [LedgerCall.run, bind_eq_ok] at hrun
    obtain ⟨⟨_, _⟩, hfinalize, hrun⟩ := hrun
    cases hrun
    exact (finalize_spec hfinalize).bounded h
  | reconcile fresh now =>
    simp only [LedgerCall.run] at hrun
    split at hrun
    · cases hrun
      exact h
    rename_i quota hquota
    simp only [bind_eq_ok] at hrun
    obtain ⟨⟨_, _⟩, hreconcile, hrun⟩ := hrun
    cases hrun
    obtain ⟨ranges, hsettles, _, hconsumes⟩ := reconcileLocked_spec hreconcile
    obtain ⟨hnodup, hrobust⟩ := h _ hquota
    rintro quota' ⟨⟩
    exact hconsumes.bounded ⟨hsettles.nodup hnodup, hrobust.settles hsettles⟩

theorem bounded_run (h : Bounded rows₀) (hrun : SafeRun rows₀ rows) : Bounded rows := by
  induction hrun with
  | start => exact h
  | call call _ hsafe hcall ih => exact bounded_step ih hsafe hcall

/-! ## The error itself -/

theorem flushRanges_fragmentBound : flushRanges ranges ≠ .error fragmentBound := by
  intro h
  obtain ⟨_, h⟩ := flushRanges_eq_error h
  cases h

theorem flushEntry_fragmentBound {entry : FreeDownloadQuotaEntry} :
    flushEntry entry ≠ .error fragmentBound := by
  simp [flushEntry, bind_eq_error, fragmentBound]

theorem assertGeneration_fragmentBound : assertGeneration ranges job ≠ .error fragmentBound := by
  simp [assertGeneration, fragmentBound]

theorem insertRanges_fragmentBound : insertRanges ranges ranges' ≠ .error fragmentBound :=
  bind_ne_error (by simp [fragmentBound]) fun _ _ => flushRanges_fragmentBound

theorem closeStale_fragmentBound : closeStale closing now ranges ≠ .error fragmentBound :=
  flushRanges_fragmentBound

theorem validateJobBinding_fragmentBound {artifactId : Option Uuid} {fenceToken bytes : Nat}
    {unexpiredAt : Option Timestamp} :
    validateJobBinding job artifactId fenceToken bytes unexpiredAt ≠ .error fragmentBound := by
  simp [validateJobBinding, bind_eq_error, fragmentBound, failClosed]

theorem consumeIfComplete_fragmentBound :
    consumeIfComplete job now quota ≠ .error fragmentBound := by
  unfold consumeIfComplete
  split
  · simp
  refine bind_ne_error (by simp [fragmentBound, failClosed]) fun _ _ => ?_
  refine bind_ne_error assertGeneration_fragmentBound fun _ _ => ?_
  split
  · simp
  · refine bind_ne_error ?_ fun _ _ => by simp
    simp [consumeLocked, bind_eq_error, fragmentBound]

theorem lockAttemptContext_fragmentBound {allowClosed : Bool} :
    lockAttemptContext attemptId allowClosed rows ≠ .error fragmentBound := by
  unfold lockAttemptContext
  split
  · simp
  split
  · simp
  refine bind_ne_error (by simp [fragmentBound]) fun _ _ => ?_
  exact bind_ne_error validateJobBinding_fragmentBound fun _ _ => by simp

/-- Compaction of a robust ledger, read in order, does not report the bound. -/
theorem Robust.compactClosed (h : Robust ranges) :
    FetchNow.compactClosed fresh now (lockRanges ranges) ≠ .error fragmentBound :=
  compactClosed_fragmentBound (h.settles settles_lockRanges).closed

theorem begin_fragmentBound {authorization : MediaDownloadJob} {tier : Tier}
    {revalidated : Except DownloadError Uuid} {clock : Clock} (h : Bounded rows) :
    begin authorization tier start stop revalidated newId fresh clock rows ≠
      .error fragmentBound := by
  unfold begin
  split
  · simp
  refine bind_ne_error (by simp [fragmentBound]) fun _ _ => ?_
  split
  · simp
  rename_i quota hquota
  refine bind_ne_error ?_ fun _ _ => ?_
  · cases revalidated <;> simp [Except.mapError, fragmentBound, DownloadError.raised]
  refine bind_ne_error (by simp [fragmentBound, failClosed]) fun _ _ => ?_
  refine bind_ne_error validateJobBinding_fragmentBound fun _ _ => ?_
  split
  · simp
  refine bind_ne_error (by simp [fragmentBound, failClosed]) fun _ _ => ?_
  refine bind_ne_error closeStale_fragmentBound fun closed hclose => ?_
  refine bind_ne_error assertGeneration_fragmentBound fun _ _ => ?_
  have hrobust := (h quota hquota).2.settles (closeStale_settles hclose).locked
  refine bind_ne_error hrobust.compactClosed fun _ _ => ?_
  refine bind_ne_error (by simp [fragmentBound, boundRejected]) fun _ _ => ?_
  refine bind_ne_error (by simp [fragmentBound, boundRejected]) fun _ _ => ?_
  refine bind_ne_error insertRanges_fragmentBound fun _ _ => ?_
  exact bind_ne_error flushEntry_fragmentBound fun _ _ => by simp

theorem checkpoint_fragmentBound {clock : Clock} :
    checkpoint attemptId observedEnd clock rows ≠ .error fragmentBound := by
  refine bind_ne_error lockAttemptContext_fragmentBound fun locked _ => ?_
  split
  · simp [fragmentBound]
  refine bind_ne_error (by simp [fragmentBound]) fun _ _ => ?_
  refine bind_ne_error flushRanges_fragmentBound fun _ _ => ?_
  refine bind_ne_error consumeIfComplete_fragmentBound fun _ _ => ?_
  exact bind_ne_error flushEntry_fragmentBound fun _ _ => by simp

theorem finalize_fragmentBound {clock : Clock} (h : Bounded rows) :
    finalize attemptId observedEnd fresh clock rows ≠ .error fragmentBound := by
  refine bind_ne_error lockAttemptContext_fragmentBound fun locked hlocked => ?_
  split
  · simp
  rename_i quota attempt
  obtain ⟨hquota, hattempt, _, _⟩ := lockAttemptContext_eq_some hlocked
  split
  · simp
  rename_i hopen
  refine bind_ne_error (by simp [fragmentBound]) fun _ hwithin => ?_
  refine bind_ne_error flushRanges_fragmentBound fun written hwritten => ?_
  have hactive := state_ne_closed.mp hopen
  obtain ⟨hnodup, hrobust⟩ := h quota hquota
  obtain ⟨hchecked, rfl⟩ := flushRanges_eq_ok.mp hwritten
  have hadvanced := hrobust.advance advances_served hnodup hattempt hactive
    (le_max_right observedEnd attempt.servedEndExclusive)
  rw [finalize_write (clock 0) hnodup hattempt hactive] at hchecked ⊢
  have hclosed := hadvanced.settles (settles_closeAttempts hchecked)
  refine bind_ne_error hclosed.compactClosed fun _ _ => ?_
  refine bind_ne_error consumeIfComplete_fragmentBound fun _ _ => ?_
  exact bind_ne_error flushEntry_fragmentBound fun _ _ => by simp

theorem reconcileLocked_fragmentBound (h : Robust quota.ranges) :
    reconcileLocked fresh now job quota ≠ .error fragmentBound := by
  refine bind_ne_error assertGeneration_fragmentBound fun _ _ => ?_
  refine bind_ne_error closeStale_fragmentBound fun closed hclose => ?_
  have hrobust := h.settles (closeStale_settles hclose).locked
  refine bind_ne_error hrobust.compactClosed fun _ _ => ?_
  refine bind_ne_error consumeIfComplete_fragmentBound fun _ _ => ?_
  exact bind_ne_error flushEntry_fragmentBound fun _ _ => by simp

theorem Bounded.run_fragmentBound {call : LedgerCall} (h : Bounded rows) :
    call.run rows ≠ .error fragmentBound := by
  cases call with
  | begin => exact bind_ne_error (begin_fragmentBound h) fun _ _ => by simp
  | checkpoint => exact bind_ne_error checkpoint_fragmentBound fun _ _ => by simp
  | finalize => exact bind_ne_error (finalize_fragmentBound h) fun _ _ => by simp
  | reconcile =>
    simp only [LedgerCall.run]
    split
    · simp
    · rename_i quota hquota
      exact bind_ne_error (reconcileLocked_fragmentBound (h quota hquota).2) fun _ _ => by simp

/-- When every admission over a reserved entry is safe, each reachable ledger has at most 64
closed components and no call on it reports the bound. -/
theorem fragments_bounded (hpublished : Published rows₀) (hrun : SafeRun rows₀ rows) :
    (∀ quota ∈ rows.quota,
        (closedIntervals (closedRows quota.ranges)).length ≤ maxClosedFragments) ∧
      ∀ call : LedgerCall, call.run rows ≠ .error fragmentBound := by
  have hinitial : Bounded rows₀ := by
    obtain ⟨entry, _, hquota⟩ := hpublished.reserved
    rw [Bounded, hquota]
    rintro quota ⟨⟩
    exact ⟨by simp, robust_nil⟩
  have hbounded := bounded_run hinitial hrun
  refine ⟨fun quota hquota => ?_, fun call => hbounded.run_fragmentBound⟩
  rw [length_closedIntervals]
  exact (hbounded quota hquota).2.closed

/-- There are no more fragments to choose than rows. -/
theorem components_closable_le : components (closable chosen ranges) ≤ ranges.length := by
  rw [closable, coverage, prefixes, ← covered_append]
  have hclosable := @components_covered_le
    ((closedRows ranges).map (·.served) ++ ((activeRows ranges).filter chosen).map shortestPrefix)
  have hchosen := List.length_filter_le chosen (activeRows ranges)
  have hrows := List.length_eq_length_filter_add (l := ranges) fun row => row.state = .closed
  rw [List.length_append, List.length_map, List.length_map] at hclosable
  have hactive : (activeRows ranges).length =
      (ranges.filter fun row => !decide (row.state = .closed)).length := by
    rw [activeRows]
    congr 2
    funext row
    cases row.state <;> rfl
  rw [closedRows] at hclosable ⊢
  omega

/-- An admission beside fewer rows than the bound is safe. -/
theorem admissionSafe_of_few (h : ranges.length < maxClosedFragments) :
    AdmissionSafe now start ranges :=
  fun _ => components_insert_le.trans (Nat.succ_le_of_lt (components_closable_le.trans_lt h))

/-- Run calls as long as they meet fewer rows than the bound. -/
def runFew : List LedgerCall → DownloadRows → Option DownloadRows
  | [], rows => some rows
  | call :: calls, rows =>
    if rows.quota.all (·.ranges.length < maxClosedFragments) then
      match call.run rows with
      | .ok (rows, _) => runFew calls rows
      | .error _ => none
    else none

theorem SafeRun.runFew {calls : List LedgerCall} (hrun : SafeRun rows₀ rows)
    (h : runFew calls rows = some rows') : SafeRun rows₀ rows' := by
  induction calls generalizing rows with
  | nil =>
    cases h
    exact hrun
  | cons call calls ih =>
    simp only [FetchNow.runFew] at h
    split at h
    case isFalse => cases h
    rename_i hfew
    split at h
    case h_2 => cases h
    rename_i hcall
    refine ih (hrun.call call ?_ hcall) h
    cases call with
    | begin =>
      intro _ quota hquota _
      rw [hquota, Option.all_some, decide_eq_true_eq] at hfew
      exact admissionSafe_of_few hfew
    | _ => trivial

/-- Two fragments are closed, and two attempts are open between them at once. -/
def fewFragments : List LedgerCall :=
  [beginCall 9 0 1 10 20, beginCall 9 4 5 11 21, finalizeCall 10 1 22, finalizeCall 11 5 23,
    beginCall 9 1 2 12 24, beginCall 9 2 4 13 25]

theorem fragments_bounded_fewFragments : ∃ rows quota, SafeRun (publishedRows 9) rows ∧
    rows.quota = some quota ∧ closedIntervals (closedRows quota.ranges) = [(0, 1), (4, 5)] ∧
    (activeRows quota.ranges).length = 2 ∧
    ∀ call : LedgerCall, call.run rows ≠ .error fragmentBound := by
  have hrows : ((runFew fewFragments (publishedRows 9)).bind (·.quota)).map (fun quota =>
      (closedIntervals (closedRows quota.ranges), (activeRows quota.ranges).length)) =
        some ([(0, 1), (4, 5)], 2) := by
    decide +kernel
  obtain ⟨quota, hfinal, heq⟩ := Option.map_eq_some_iff.mp hrows
  obtain ⟨rows, hfew, hquota⟩ := Option.bind_eq_some_iff.mp hfinal
  have hrun : SafeRun (publishedRows 9) rows := SafeRun.start.runFew hfew
  obtain ⟨hclosed, hactive⟩ := Prod.mk.inj heq
  exact ⟨rows, quota, hrun, hquota, hclosed, hactive,
    (fragments_bounded (published_publishedRows (by decide)) hrun).2⟩

/-- Sixty-four one-byte fragments with one-byte gaps, an open attempt on the first gap, an open
attempt far away, and the first of the two closed without a byte. -/
def unservedBridge : List LedgerCall :=
  ((List.range 64).flatMap fun k =>
    [beginCall 200 (2 * k) (2 * k + 1) (10 + k) (2 * k),
      finalizeCall (10 + k) (2 * k + 1) (2 * k + 1)]) ++
  [beginCall 200 1 2 100 200, beginCall 200 130 131 101 201, finalizeCall 100 1 202]

/-- An admitted attempt that serves one byte leaves sixty-five fragments. -/
theorem fragments_exceed_bound : ∃ log rows, LedgerRun (publishedRows 200) log rows ∧
    (finalizeCall 101 131 203).run rows = .error fragmentBound := by
  have hlast : (runCalls unservedBridge (publishedRows 200) []).map
      (fun final => (finalizeCall 101 131 203).run final.1) = .ok (.error fragmentBound) := by
    decide +kernel
  cases h : runCalls unservedBridge (publishedRows 200) [] with
  | error e =>
    rw [h] at hlast
    cases hlast
  | ok final =>
    rw [h] at hlast
    exact ⟨_, _, LedgerRun.start.runCalls h, Except.ok.inj hlast⟩

end FetchNow
