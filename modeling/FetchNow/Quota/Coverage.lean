import FetchNow.Quota.Calls

/-!
# Exactness of the delivery ledger

Over every run of ledger calls on one published artifact: no byte is lost, no byte is
invented, and the entry is consumed by exactly the call that completes the coverage.
-/
namespace FetchNow

open Transactions Intervals

variable {rows₀ rows rows' : DownloadRows} {quota quota' : QuotaRows} {job : MediaDownloadJob}
  {log events : List LedgerEvent} {ranges ranges' : List FreeDownloadDeliveryRange}
  {closing : FreeDownloadDeliveryRange → Bool} {now : Timestamp} {attemptId : Uuid}
  {observedEnd served : Nat} {attempt : FreeDownloadDeliveryRange}
  {result : DeliveryAccountingResult} {x : ℕ}

/-- The committed calls on one entry, latest event first. -/
inductive LedgerRun (rows₀ : DownloadRows) : List LedgerEvent → DownloadRows → Prop
  | start : LedgerRun rows₀ [] rows₀
  | call {log events : List LedgerEvent} {rows rows' : DownloadRows} (call : LedgerCall) :
      LedgerRun rows₀ log rows → call.run rows = .ok (rows', events) →
      LedgerRun rows₀ (events ++ log) rows'

/-- A ready job with a reserved entry and no delivery yet. -/
structure Published (rows : DownloadRows) : Prop where
  job : rows.job.Checked
  ready : rows.job.publicState = .ready
  reserved : ∃ entry, entry.state = .reserved ∧ rows.quota = some ⟨entry, []⟩

/-- Size of the published artifact. -/
def DownloadRows.artifactSize (rows : DownloadRows) : Nat := rows.job.artifactBytes.getD 0

def DownloadRows.coverage (rows : DownloadRows) : Finset ℕ :=
  rows.quota.elim ∅ fun quota => FetchNow.coverage quota.ranges

def DownloadRows.entryState (rows : DownloadRows) : Option QuotaEntryState :=
  rows.quota.map (·.entry.state)

/-- Some attempt begun at or before the byte has reported an end beyond it. -/
def Observed (log : List LedgerEvent) (x : ℕ) : Prop :=
  ∃ attempt observedEnd, .begun attempt ∈ log ∧ .reported attempt.id observedEnd ∈ log ∧
    attempt.start ≤ x ∧ x < observedEnd

theorem Observed.append (h : Observed log x) : Observed (events ++ log) x := by
  obtain ⟨attempt, observedEnd, hbegun, hreported, hx⟩ := h
  exact ⟨attempt, observedEnd, List.mem_append_right _ hbegun,
    List.mem_append_right _ hreported, hx⟩

theorem Published.size_pos (h : Published rows) : 0 < rows.artifactSize := by
  have hresult := h.job.resultState
  simp only [MediaDownloadJob.CkResultState, h.ready] at hresult
  obtain ⟨_, _, ⟨n, hn, hpos⟩, _⟩ | ⟨h, _⟩ | ⟨h, _⟩ := hresult
  · have hbytes : rows.job.artifactBytes = some n := hn
    simpa [DownloadRows.artifactSize, hbytes] using hpos
  · cases h
  · simp at h

/-! ## The ledger invariant -/

/-- The rows are well formed, belong to the artifact, and every byte of them was reported. -/
structure Sound (job : MediaDownloadJob) (log : List LedgerEvent)
    (ranges : List FreeDownloadDeliveryRange) : Prop where
  nodup : (ranges.map (·.id)).Nodup
  checked : ∀ row ∈ ranges, row.Checked
  generation : ∀ row ∈ ranges, GenerationMatches job row
  begun : ∀ row ∈ activeRows ranges, ∃ stop, .begun ⟨row.id, row.requestStart, stop⟩ ∈ log
  observed : ∀ x ∈ coverage ranges, Observed log x

theorem sound_nil : Sound job log [] :=
  ⟨by simp, by simp, by simp, by simp [activeRows], by simp⟩

theorem Sound.append (h : Sound job log ranges) (events : List LedgerEvent) :
    Sound job (events ++ log) ranges where
  nodup := h.nodup
  checked := h.checked
  generation := h.generation
  begun row hrow := by
    obtain ⟨stop, hbegun⟩ := h.begun row hrow
    exact ⟨stop, List.mem_append_right _ hbegun⟩
  observed x hx := (h.observed x hx).append

theorem SameGeneration.matches {row row' : FreeDownloadDeliveryRange}
    (h : SameGeneration row' row) (hrow : GenerationMatches job row) :
    GenerationMatches job row' := by
  obtain ⟨ha, hf, hb⟩ := h
  obtain ⟨ha', hf', hb'⟩ := hrow
  exact ⟨ha ▸ ha', hf.trans hf', hb.trans hb'⟩

theorem Sound.settles (h : Sound job log ranges) (hsettles : Settles closing ranges ranges') :
    Sound job log ranges' where
  nodup := hsettles.nodup h.nodup
  checked := hsettles.checked h.checked
  generation row' hrow' := by
    obtain ⟨row, hrow, hsame⟩ := hsettles.generation row' hrow'
    exact hsame.matches (h.generation row hrow)
  begun row hrow := h.begun row (List.mem_filter.mp (hsettles.active.mem_iff.mp hrow)).1
  observed x hx := h.observed x (hsettles.coverage_eq ▸ hx)

/-- The observed bytes lie inside the artifact. -/
theorem Sound.coverage_subset (h : Sound job log ranges) :
    coverage ranges ⊆ Finset.Ico 0 (job.artifactBytes.getD 0) := by
  intro x hx
  obtain ⟨row, hrow, _, hlt⟩ := mem_coverage.mp hx
  have hserved := (h.checked row hrow).served.2
  have hrequest := (h.checked row hrow).request.2
  have hsize := (h.generation row hrow).2.2
  simp only [Finset.mem_Ico]
  omega

/-! ## Longer prefixes -/

/-- A write that only moves the observed end of the row it is given to. -/
structure Advances (served : Nat)
    (write : FreeDownloadDeliveryRange → FreeDownloadDeliveryRange) : Prop where
  id : ∀ row, (write row).id = row.id
  generation : ∀ row, SameGeneration (write row) row
  start : ∀ row, (write row).requestStart = row.requestStart
  state : ∀ row, (write row).state = row.state
  served : ∀ row, (write row).servedEndExclusive = served

section Advances

variable {write : FreeDownloadDeliveryRange → FreeDownloadDeliveryRange}

theorem updateRange_ids (hid : ∀ row, (write row).id = row.id) :
    (updateRange attemptId write ranges).map (·.id) = ranges.map (·.id) := by
  rw [updateRange, List.map_map]
  refine List.map_congr_left fun row _ => ?_
  by_cases h : row.id = attemptId
  · simp [h, hid]
  · simp [h]

theorem mem_updateRange {row' : FreeDownloadDeliveryRange}
    (h : row' ∈ updateRange attemptId write ranges) :
    row' ∈ ranges ∨ ∃ row ∈ ranges, row.id = attemptId ∧ row' = write row := by
  obtain ⟨row, hrow, rfl⟩ := List.mem_map.mp h
  by_cases hid : row.id = attemptId
  · simp only [hid, if_true]
    exact .inr ⟨row, hrow, hid, rfl⟩
  · simp only [hid, if_false]
    exact .inl hrow

/-- Advancing one attempt adds the bytes between its start and its new end. -/
theorem coverage_updateRange (hwrite : Advances served write) (hnodup : (ranges.map (·.id)).Nodup)
    (hfind : ranges.find? (·.id = attemptId) = some attempt)
    (hle : attempt.servedEndExclusive ≤ served) :
    coverage (updateRange attemptId write ranges) =
      coverage ranges ∪ Finset.Ico attempt.requestStart served := by
  have hattempt := List.mem_of_find?_eq_some hfind
  have hid : attempt.id = attemptId := by simpa using List.find?_some hfind
  ext x
  simp only [mem_coverage, Finset.mem_union, Finset.mem_Ico]
  constructor
  · rintro ⟨row', hrow', hx⟩
    rcases mem_updateRange hrow' with hrow | ⟨row, hrow, hrowId, rfl⟩
    · exact .inl ⟨row', hrow, hx⟩
    · obtain rfl := find?_unique hnodup hfind hrow hrowId
      rw [hwrite.start, hwrite.served] at hx
      exact .inr hx
  · rintro (⟨row, hrow, hx⟩ | hx)
    · by_cases hrowId : row.id = attemptId
      · obtain rfl := find?_unique hnodup hfind hrow hrowId
        refine ⟨write row, List.mem_map.mpr ⟨row, hrow, if_pos hrowId⟩, ?_⟩
        rw [hwrite.start, hwrite.served]
        omega
      · exact ⟨row, List.mem_map.mpr ⟨row, hrow, if_neg hrowId⟩, hx⟩
    · refine ⟨write attempt, List.mem_map.mpr ⟨attempt, hattempt, if_pos hid⟩, ?_⟩
      rw [hwrite.start, hwrite.served]
      exact hx

theorem Sound.advance (h : Sound job log quota.ranges) (hwrite : Advances served write)
    (hobserves : Observes attemptId observedEnd rows quota attempt served)
    (hchecked : ∀ row ∈ updateRange attemptId write quota.ranges, row.Checked) :
    Sound job (.reported attemptId observedEnd :: log)
      (updateRange attemptId write quota.ranges) := by
  have hattempt := List.mem_of_find?_eq_some hobserves.found
  have hid : attempt.id = attemptId := by simpa using List.find?_some hobserves.found
  have hlog := h.append [.reported attemptId observedEnd]
  refine ⟨?_, hchecked, ?_, ?_, ?_⟩
  · rw [updateRange_ids hwrite.id]
    exact h.nodup
  · intro row' hrow'
    rcases mem_updateRange hrow' with hrow | ⟨row, hrow, _, rfl⟩
    · exact h.generation row' hrow
    · exact (hwrite.generation row).matches (h.generation row hrow)
  · intro row' hrow'
    obtain ⟨hmem, hactive⟩ := List.mem_filter.mp hrow'
    rcases mem_updateRange hmem with hrow | ⟨row, hrow, _, rfl⟩
    · exact hlog.begun row' (List.mem_filter.mpr ⟨hrow, hactive⟩)
    · rw [hwrite.state] at hactive
      rw [hwrite.id, hwrite.start]
      exact hlog.begun row (List.mem_filter.mpr ⟨hrow, hactive⟩)
  · intro x hx
    have hle : attempt.servedEndExclusive ≤ served := hobserves.length ▸ le_max_right _ _
    rw [coverage_updateRange hwrite h.nodup hobserves.found hle, Finset.mem_union,
      Finset.mem_Ico] at hx
    by_cases hold : x ∈ coverage quota.ranges
    · exact hlog.observed x hold
    -- A byte the row did not cover before lies below the end that was just reported.
    have hnew := hx.resolve_left hold
    have hbeyond : ¬ x < attempt.servedEndExclusive := fun hlt =>
      hold (mem_coverage.mpr ⟨attempt, hattempt, hnew.1, hlt⟩)
    have hend : x < observedEnd := by
      have := hobserves.length
      omega
    obtain ⟨stop, hbegun⟩ := hlog.begun attempt
      (List.mem_filter.mpr ⟨hattempt, by simpa using hobserves.active⟩)
    exact ⟨_, observedEnd, hbegun, by simp [hid], hnew.1, hend⟩

end Advances

theorem advances_served : Advances served fun row => { row with servedEndExclusive := served } :=
  ⟨fun _ => rfl, fun _ => ⟨rfl, rfl, rfl⟩, fun _ => rfl, fun _ => rfl, fun _ => rfl⟩

theorem advances_renewed {lease : Option Timestamp} :
    Advances served fun row =>
      { row with servedEndExclusive := served, leaseExpiresAt := lease } :=
  ⟨fun _ => rfl, fun _ => ⟨rfl, rfl, rfl⟩, fun _ => rfl, fun _ => rfl, fun _ => rfl⟩

/-- A prefix inside the requested range keeps the row's constraints. -/
theorem Sound.advance_checked (h : Sound job log quota.ranges)
    (hobserves : Observes attemptId observedEnd rows quota attempt served) :
    ∀ row ∈ FetchNow.advance attemptId served quota.ranges, row.Checked := by
  intro row' hrow'
  rcases mem_updateRange hrow' with hrow | ⟨row, hrow, hid, rfl⟩
  · exact h.checked row' hrow
  · obtain rfl := find?_unique h.nodup hobserves.found hrow hid
    have hrow := h.checked row hrow
    have hstart := hrow.served.1
    have hlength := hobserves.length
    refine ⟨hrow.artifactBytes, hrow.request, ⟨?_, hobserves.within⟩, hrow.lifecycle⟩
    show row.requestStart ≤ served
    omega

/-! ## The entry follows the coverage -/

/-- The entry is reserved while bytes are missing and consumed once none is. -/
def Charged (job : MediaDownloadJob) (quota : QuotaRows) : Prop :=
  (quota.entry.state = .reserved ∧
      coverage quota.ranges ≠ Finset.Ico 0 (job.artifactBytes.getD 0)) ∨
    (quota.entry.state = .consumed ∧
      coverage quota.ranges = Finset.Ico 0 (job.artifactBytes.getD 0))

/-- Growing the coverage and then running `_consume_if_complete` keeps the entry in step. -/
theorem Charged.consumes {entry : FreeDownloadQuotaEntry} (h : Charged job quota)
    (hn : 0 < job.artifactBytes.getD 0) (hsound : Sound job log ranges)
    (hgrows : coverage quota.ranges ⊆ coverage ranges) (hentry : entry.state = quota.entry.state)
    (hconsumes : Consumes job now ⟨entry, ranges⟩ quota' result) :
    Charged job quota' ∧ (quota.entry.state = .consumed → quota'.entry.state = .consumed) := by
  cases hconsumes with
  | duplicate hstate =>
    refine ⟨.inr ⟨hstate, ?_⟩, fun _ => hstate⟩
    rcases h with ⟨hreserved, _⟩ | ⟨_, hwhole⟩
    · have hstate : entry.state = .consumed := hstate
      simp [hentry, hreserved] at hstate
    · exact (hsound.coverage_subset).antisymm (hwhole ▸ hgrows)
  | incomplete hstate _ hcomplete =>
    have hstate : entry.state = .reserved := hstate
    refine ⟨.inl ⟨hstate, fun hwhole => hcomplete ((complete_iff hn).mpr hwhole)⟩, fun h => ?_⟩
    rw [← hentry, hstate] at h
    cases h
  | complete hstate _ hcomplete =>
    exact ⟨.inr ⟨rfl, (complete_iff hn).mp hcomplete⟩, fun _ => rfl⟩

/-! ## Steps and runs -/

/-- The state of one accounted entry between calls. -/
def Accounted (job : MediaDownloadJob) (log : List LedgerEvent) (rows : DownloadRows) : Prop :=
  rows.job = job ∧ ∃ quota, rows.quota = some quota ∧ Sound job log quota.ranges ∧
    Charged job quota

/-- The row that `begin` inserts covers nothing yet. -/
theorem Sound.openAttempt {newId : Uuid} {start stop : Nat} (h : Sound job log ranges)
    (hartifact : job.artifactId.isSome)
    (hnodup : (ranges.map (·.id)).Nodup →
      ((ranges ++ [FetchNow.openAttempt job newId start stop now]).map (·.id)).Nodup)
    (hchecked : ∀ row ∈ ranges ++ [FetchNow.openAttempt job newId start stop now], row.Checked) :
    Sound job (.begun ⟨newId, start, stop⟩ :: log)
        (ranges ++ [FetchNow.openAttempt job newId start stop now]) ∧
      coverage (ranges ++ [FetchNow.openAttempt job newId start stop now]) = coverage ranges := by
  have hempty : coverage [FetchNow.openAttempt job newId start stop now] = ∅ := by
    simp [coverage, FetchNow.openAttempt, FreeDownloadDeliveryRange.served]
  have hcoverage : coverage (ranges ++ [FetchNow.openAttempt job newId start stop now]) =
      coverage ranges := by
    rw [coverage_append, hempty, Finset.union_empty]
  have hlog := h.append [.begun ⟨newId, start, stop⟩]
  refine ⟨⟨hnodup h.nodup, hchecked, ?_, ?_, fun x hx => hlog.observed x (hcoverage ▸ hx)⟩,
    hcoverage⟩
  · intro row hrow
    rcases List.mem_append.mp hrow with hrow | hrow
    · exact h.generation row hrow
    · obtain rfl := List.mem_singleton.mp hrow
      obtain ⟨artifactId, hsome⟩ := Option.isSome_iff_exists.mp hartifact
      simp [GenerationMatches, FetchNow.openAttempt, hsome]
  · intro row hrow
    obtain ⟨hmem, hactive⟩ := List.mem_filter.mp hrow
    rcases List.mem_append.mp hmem with hmem | hmem
    · exact hlog.begun row (List.mem_filter.mpr ⟨hmem, hactive⟩)
    · obtain rfl := List.mem_singleton.mp hmem
      exact ⟨stop, by simp [FetchNow.openAttempt]⟩

/-- What a later state of the same entry may not undo. -/
def Extends (rows rows' : DownloadRows) : Prop :=
  rows.coverage ⊆ rows'.coverage ∧
    (rows.entryState = some .consumed → rows'.entryState = some .consumed)

theorem Extends.refl : Extends rows rows := ⟨fun _ h => h, id⟩

theorem Extends.trans {rows'' : DownloadRows} (h : Extends rows rows') (h' : Extends rows' rows'') :
    Extends rows rows'' := ⟨h.1.trans h'.1, fun hs => h'.2 (h.2 hs)⟩

theorem accounted_consumes {entry : FreeDownloadQuotaEntry} (hquota : rows.quota = some quota)
    (hcharged : Charged rows.job quota) (hn : 0 < rows.artifactSize)
    (hsound : Sound rows.job log ranges) (hgrows : coverage quota.ranges ⊆ coverage ranges)
    (hentry : entry.state = quota.entry.state)
    (hconsumes : Consumes rows.job now ⟨entry, ranges⟩ quota' result)
    {final : FreeDownloadQuotaEntry} (hfinal : final.state = quota'.entry.state) :
    Accounted rows.job log { rows with quota := some { quota' with entry := final } } ∧
      Extends rows { rows with quota := some { quota' with entry := final } } := by
  obtain ⟨hcharged', hconsumed⟩ := hcharged.consumes hn hsound hgrows hentry hconsumes
  have hranges : quota'.ranges = ranges := hconsumes.ranges
  refine ⟨⟨rfl, _, rfl, ?_, ?_⟩, ?_, ?_⟩
  · exact hranges ▸ hsound
  · simpa [Charged, hfinal] using hcharged'
  · simpa [DownloadRows.coverage, hquota, hranges] using hgrows
  · simpa [DownloadRows.entryState, hquota, hfinal] using hconsumed

/-- Every committed call keeps the ledger accounted and loses nothing. -/
theorem accounted_step (h : Accounted job log rows) (hn : 0 < job.artifactBytes.getD 0)
    (hstep : LedgerStep rows rows' events) :
    Accounted job (events ++ log) rows' ∧ Extends rows rows' := by
  obtain ⟨rfl, quota, hquota, hsound, hcharged⟩ := h
  cases hstep with
  | begin hbegin =>
    cases hbegin with
    | unaccounted => exact ⟨⟨rfl, quota, hquota, hsound.append _, hcharged⟩, .refl⟩
    | admitted hquota' _ _ hartifact _ hstate hsettles _ _ hnodup hchecked =>
      obtain rfl := Option.some.inj (hquota.symm.trans hquota')
      obtain ⟨hsound', hcoverage⟩ := (hsound.settles hsettles).openAttempt hartifact hnodup hchecked
      have hsame := hcoverage.trans hsettles.coverage_eq
      refine ⟨⟨rfl, _, rfl, hsound', ?_⟩, ?_, ?_⟩
      · simpa [Charged, FreeDownloadQuotaEntry.extended, hsame] using hcharged
      · simp [DownloadRows.coverage, hquota, hsame]
      · simp [DownloadRows.entryState, hquota, FreeDownloadQuotaEntry.extended]
  | checkpoint hcheckpoint =>
    cases hcheckpoint with
    | @advanced quota' _ attempt served entry ranges _ hobserves _ hentry hranges hchecked hconsumes
        _ =>
      obtain rfl := Option.some.inj (hquota.symm.trans hobserves.stored)
      subst hranges
      have hle : attempt.servedEndExclusive ≤ served := hobserves.length ▸ le_max_right _ _
      refine accounted_consumes hquota hcharged hn
        (hsound.advance advances_renewed hobserves hchecked) ?_ hentry hconsumes rfl
      rw [coverage_updateRange advances_renewed hsound.nodup hobserves.found hle]
      exact Finset.subset_union_left
  | finalize hfinalize =>
    cases hfinalize with
    | duplicate => exact ⟨⟨rfl, quota, hquota, hsound.append _, hcharged⟩, .refl⟩
    | @closed quota' _ attempt served entry ranges _ hobserves hsettles hchecked hconsumes hfinal
        _ =>
      obtain rfl := Option.some.inj (hquota.symm.trans hobserves.stored)
      have hle : attempt.servedEndExclusive ≤ served := hobserves.length ▸ le_max_right _ _
      have hsettles := hsettles hsound.nodup
      have hadvanced := hsound.advance advances_served hobserves
        (hsound.advance_checked hobserves)
      refine accounted_consumes hquota hcharged hn (hadvanced.settles hsettles) ?_ rfl hconsumes
        hfinal
      rw [hsettles.coverage_eq, FetchNow.advance,
        coverage_updateRange advances_served hsound.nodup hobserves.found hle]
      exact Finset.subset_union_left
  | idle => exact ⟨⟨rfl, quota, hquota, hsound, hcharged⟩, .refl⟩
  | reconcile hquota' hsettles hchecked hconsumes =>
    obtain rfl := Option.some.inj (hquota.symm.trans hquota')
    exact accounted_consumes hquota hcharged hn (hsound.settles hsettles)
      hsettles.coverage_eq.ge rfl hconsumes rfl

theorem accounted_run (hn : 0 < job.artifactBytes.getD 0) (h : Accounted job [] rows₀)
    (hrun : LedgerRun rows₀ log rows) : Accounted job log rows := by
  induction hrun with
  | start => exact h
  | call call _ hcall ih => exact (accounted_step ih hn (LedgerCall.run_spec hcall)).1

theorem extends_run {log₀ : List LedgerEvent} (hn : 0 < job.artifactBytes.getD 0)
    (h : Accounted job log₀ rows₀) (hrun : LedgerRun rows₀ log rows) :
    Accounted job (log ++ log₀) rows ∧ Extends rows₀ rows := by
  induction hrun with
  | start => exact ⟨h, .refl⟩
  | call call _ hcall ih =>
    obtain ⟨haccounted, hextends⟩ := accounted_step ih.1 hn (LedgerCall.run_spec hcall)
    exact ⟨by simpa using haccounted, ih.2.trans hextends⟩

theorem Published.accounted (h : Published rows) : Accounted rows.job [] rows := by
  obtain ⟨entry, hstate, hquota⟩ := h.reserved
  refine ⟨rfl, ⟨entry, []⟩, hquota, sound_nil, .inl ⟨hstate, ?_⟩⟩
  intro hwhole
  have hzero : 0 ∈ Finset.Ico 0 (rows.job.artifactBytes.getD 0) := by
    exact Finset.mem_Ico.mpr ⟨le_rfl, h.size_pos⟩
  rw [← hwhole] at hzero
  simp at hzero

theorem Accounted.charged (h : Accounted job log rows) :
    (rows.entryState = some .reserved ∧
        rows.coverage ≠ Finset.Ico 0 (job.artifactBytes.getD 0)) ∨
      (rows.entryState = some .consumed ∧
        rows.coverage = Finset.Ico 0 (job.artifactBytes.getD 0)) := by
  obtain ⟨_, quota, hquota, _, hcharged⟩ := h
  simpa [DownloadRows.entryState, DownloadRows.coverage, hquota, Charged] using hcharged

/-- In every run from a published artifact of size `n`: later states keep every covered byte and
a consumed entry; every covered byte was reported by an attempt begun at or before it; a reserved
entry misses a byte of `[0, n)`; and a call consumes the entry exactly when it completes the
coverage. -/
theorem delivery_ledger_exact (hpublished : Published rows₀) (hrun : LedgerRun rows₀ log rows) :
    (∀ log' rows', LedgerRun rows log' rows' → rows.coverage ⊆ rows'.coverage ∧
        (rows.entryState = some .consumed → rows'.entryState = some .consumed)) ∧
      (∀ x ∈ rows.coverage, Observed log x) ∧
      (rows.entryState = some .reserved → rows.coverage ≠ Finset.Ico 0 rows₀.artifactSize) ∧
      (∀ (call : LedgerCall) rows' events, call.run rows = .ok (rows', events) →
        ((rows.entryState = some .reserved ∧ rows'.entryState = some .consumed) ↔
          (rows.coverage ≠ Finset.Ico 0 rows₀.artifactSize ∧
            rows'.coverage = Finset.Ico 0 rows₀.artifactSize))) := by
  have hn := hpublished.size_pos
  have haccounted := accounted_run hn hpublished.accounted hrun
  have hcharged := haccounted.charged
  refine ⟨fun _ _ hlater => (extends_run hn haccounted hlater).2, ?_, ?_, ?_⟩
  · obtain ⟨_, quota, hquota, hsound, _⟩ := haccounted
    simpa [DownloadRows.coverage, hquota] using hsound.observed
  · intro hreserved
    rcases hcharged with ⟨_, hmissing⟩ | ⟨hconsumed, _⟩
    · exact hmissing
    · simp [hreserved] at hconsumed
  · intro call rows' events hcall
    have hcharged' := (accounted_step haccounted hn (LedgerCall.run_spec hcall)).1.charged
    simp only [DownloadRows.artifactSize] at *
    rcases hcharged with ⟨hstate, hcover⟩ | ⟨hstate, hcover⟩ <;>
      rcases hcharged' with ⟨hstate', hcover'⟩ | ⟨hstate', hcover'⟩ <;>
      simp [hstate, hcover, hstate', hcover', -Nat.Ico_zero_eq_range]

/-! ## One run, evaluated -/

/-- Run calls one after the other; `log` holds the events so far. -/
def runCalls : List LedgerCall → DownloadRows → List LedgerEvent →
    Except Raised (DownloadRows × List LedgerEvent)
  | [], rows, log => .ok (rows, log)
  | call :: calls, rows, log => do
    let (rows, events) ← call.run rows
    runCalls calls rows (events ++ log)

theorem LedgerRun.runCalls {calls : List LedgerCall} {log' : List LedgerEvent}
    (hrun : LedgerRun rows₀ log rows) (h : runCalls calls rows log = .ok (rows', log')) :
    LedgerRun rows₀ log' rows' := by
  induction calls generalizing rows log with
  | nil =>
    cases h
    exact hrun
  | cons call calls ih =>
    simp only [FetchNow.runCalls, bind_eq_ok] at h
    obtain ⟨⟨_, _⟩, hcall, h⟩ := h
    exact ih (hrun.call call hcall) h

/-- A published artifact of `size` bytes that expires after one hour. -/
def publishedJob (size : Nat) : MediaDownloadJob :=
  { id := 1,
    target :=
      { mediaJobId := 1, formatOptionId := "137", providerId := "youtube",
        canonicalProviderUrl := "https://youtube.com/watch/x", mediaId := "x",
        hostname := "youtube.com", path := "/watch/x", scheme := "https", port := none,
        schemaVersion := 1, suggestedFilename := none },
    publicState := .ready,
    selectedFormatSnapshot := ⟨⟨"137", .normalVideo, true⟩, .absent⟩,
    attemptCount := 1, maxAttempts := 3, availableAt := 0, leaseOwner := none,
    leaseExpiresAt := none, fenceToken := 1, artifactId := some 7, artifactBytes := some size,
    artifactContentType := some "video/mp4", artifactContainer := some "mp4",
    publicErrorCode := none, progressStage := .ready, progressPercent := none,
    cancelRequestedAt := none, createdAt := 0, updatedAt := 5, startedAt := some 1,
    completedAt := some 5, expiresAt := seconds 3600 }

def publishedRows (size : Nat) : DownloadRows :=
  { job := publishedJob size,
    quota := some ⟨⟨1, 1, .reserved, 0, seconds 3600, none, none⟩, []⟩, grants := [] }

theorem published_publishedRows {size : Nat} (h : 0 < size) : Published (publishedRows size) where
  job := by
    constructor <;>
      simp [publishedRows, publishedJob, MediaDownloadJob.CkPublicState,
        MediaDownloadJob.CkAttemptCountNonneg, MediaDownloadJob.CkLeaseState,
        MediaDownloadJob.CkResultState, MediaDownloadJob.CkArtifactBytesPositive,
        MediaDownloadJob.CkProgressState, MediaDownloadJob.CkCancelRequested,
        MediaDownloadJob.CkProgressPercent, h]
  ready := rfl
  reserved := ⟨_, rfl, rfl⟩

/-- `begin` for bytes `[start, stop)` of the published artifact, at time `now`. -/
def beginCall (size start stop : Nat) (newId : Uuid) (now : Timestamp) : LedgerCall :=
  .begin (publishedJob size) .free start stop (.ok 1) newId (newId + 1000 + ·) fun _ => now

def finalizeCall (attemptId : Uuid) (observedEnd : Nat) (now : Timestamp) : LedgerCall :=
  .finalize attemptId observedEnd (attemptId + 1000 + ·) fun _ => now

/-- Two overlapping attempts complete a three-byte artifact. -/
def overlappingCalls : List LedgerCall :=
  [beginCall 3 0 3 10 20, beginCall 3 1 3 11 21, finalizeCall 10 2 22, finalizeCall 11 3 23]

theorem delivery_ledger_exact_overlapping :
    ∃ log rows, LedgerRun (publishedRows 3) log rows ∧ rows.entryState = some .consumed ∧
      ∀ x ∈ rows.coverage, Observed log x := by
  have hstate : (runCalls overlappingCalls (publishedRows 3) []).map (·.1.entryState) =
      .ok (some .consumed) := by decide +kernel
  cases h : runCalls overlappingCalls (publishedRows 3) [] with
  | error e =>
    rw [h] at hstate
    cases hstate
  | ok final =>
    rw [h] at hstate
    have hrun := LedgerRun.start.runCalls h
    refine ⟨_, _, hrun, Except.ok.inj hstate, ?_⟩
    exact (delivery_ledger_exact (published_publishedRows (by decide)) hrun).2.1

end FetchNow
