import FetchNow.Release.Outcome

/-!
# The outcome of a rollout, after recoveries

Recoveries of any deployments, one after the other, after one rollout.
-/
namespace FetchNow.Release

open Faults Faults.Prog

variable {releases : Releases} {root root' : DeployRoot} {id rev : String} {c₀ : Option Text}
  {inp : RecoverInput} {plan : PlanDocument} {j : Deployment} {status : Status}
  {A : Op → DeployRoot → Fault ReleaseError → Prop}

/-- What a result says of `current.json`. -/
def Agrees (c₀ : Option Text) (id rev : String) (root : DeployRoot) : Prop :=
  ∀ j r, root.deployments.lookup id = some j → j.result = some r →
    (r.status = .committed → Names id rev root) ∧
      (r.status ∈ [Status.rolledBack, .failed] → root.current = c₀)

/-- A rollback that was started and may still be finished finds one of the two states. -/
def Restorable (c₀ : Option Text) (id rev : String) (root : DeployRoot) : Prop :=
  ∀ j, root.deployments.lookup id = some j → j.result = none →
    j.events.head? = some .rollbackStarted → root.current = c₀ ∨ Names id rev root

/-- What holds after a rollout and its recoveries. -/
structure Consistent (c₀ : Option Text) (id rev : String) (root : DeployRoot) : Prop where
  agrees : Agrees c₀ id rev root
  restorable : Restorable c₀ id rev root
  alone : Alone id rev root

/-- The rollback of a deployment whose rollback was interrupted finds the previous release in
`current.json`. -/
def RollsBackSafely (inp : RecoverInput) (root : DeployRoot) : Prop :=
  inp.action = .rollback → ∀ j plan, root.deployments.lookup inp.deploymentId = some j →
    j.result = none → j.events.head? = some .rollbackStarted → j.plan = some plan →
    ∀ parsed, parseCurrent root = .ok (some parsed) → plan.previousRevision = some parsed.named.2

theorem agrees_of_notCommitted (h : NotCommitted c₀ id root) : Agrees c₀ id rev root :=
  fun j r hj hr => ⟨fun hcommitted => absurd hcommitted (h.2 j hj r hr), fun _ => h.1⟩

theorem restorable_of_notCommitted (h : NotCommitted c₀ id root) : Restorable c₀ id rev root :=
  fun _ _ _ _ => .inl h.1

/-- The journal without a result, the target in `current.json`. -/
def Accepted (id rev : String) (root : DeployRoot) : Prop :=
  Names id rev root ∧ ∀ j, root.deployments.lookup id = some j → ∀ r, j.result = some r →
    r.status = .committed

theorem agrees_of_accepted (h : Accepted id rev root) : Agrees c₀ id rev root := by
  refine fun j r hj hr => ⟨fun _ => h.1, fun hended => ?_⟩
  simp [h.2 j hj r hr] at hended

theorem restorable_of_accepted (h : Accepted id rev root) : Restorable c₀ id rev root :=
  fun _ _ _ _ => .inr h.1

theorem agrees_of_settled (h : Settled c₀ id rev root) : Agrees c₀ id rev root := by
  cases h with
  | inl h => exact agrees_of_notCommitted h
  | inr h =>
    refine agrees_of_accepted ⟨h.1, fun j hj r hr => ?_⟩
    cases h.2 with
    | inl hpending =>
      obtain ⟨k, hk, hresult, _⟩ := hpending
      obtain rfl : k = j := by rw [hk] at hj; injection hj
      simp [hresult] at hr
    | inr hcommitted =>
      obtain ⟨k, hk, _, hresult⟩ := hcommitted
      obtain rfl : k = j := by rw [hk] at hj; injection hj
      exact hresult r hr

theorem restorable_of_settled (h : Settled c₀ id rev root) : Restorable c₀ id rev root := by
  cases h with
  | inl h => exact restorable_of_notCommitted h
  | inr h => exact fun _ _ _ _ => .inr h.1

/-! ## A deployment without a result -/

/-- The journal has no result, and its events satisfy `R`. -/
def Open (id : String) (R : List Status → Prop) (root : DeployRoot) : Prop :=
  ∃ j, root.deployments.lookup id = some j ∧ j.result = none ∧ R j.events

theorem open_of_appendEvent {R : List Status → Prop} {legal : Status → List Status}
    (hs : Open id R root)
    (ht : (root.modifyDeployment id fun j =>
      if legalNext legal .planned j.events status then
        .ok { j with events := status :: j.events }
      else
        .error .journalError) = .ok root') :
    root'.current = root.current ∧ Open id (fun events => events.head? = some status) root' := by
  obtain ⟨j, j', hlookup, hj, rfl⟩ := modifyDeployment_eq_ok.mp ht
  obtain ⟨k, hk, hresult, _⟩ := hs
  obtain rfl : k = j := by rw [hk] at hlookup; injection hlookup
  split at hj
  · obtain rfl : { k with events := status :: k.events } = j' := by simpa using hj
    exact ⟨rfl, _, AList.lookup_insert _, hresult, rfl⟩
  · cases hj

/-- Still to be settled. -/
def Unsettled (c₀ : Option Text) (id rev : String) (root : DeployRoot) : Prop :=
  Open id (fun _ => True) root ∧ Restorable c₀ id rev root

theorem agrees_of_open {R : List Status → Prop} (h : Open id R root) : Agrees c₀ id rev root := by
  obtain ⟨j, hj, hresult, _⟩ := h
  intro k r hk hr
  obtain rfl : j = k := by rw [hj] at hk; injection hk
  simp [hresult] at hr

theorem preserves_stabilizing_unsettled :
    Preserves (Unsettled c₀ id rev) (appendEvent id .stabilizing) := by
  refine .update fun s t hs ht => ?_
  obtain ⟨_, j, hj, hresult, hlatest⟩ := open_of_appendEvent hs.1 ht
  refine ⟨⟨j, hj, hresult, trivial⟩, fun k hk _ hstarted => ?_⟩
  obtain rfl : j = k := by rw [hj] at hk; injection hk
  rw [hlatest] at hstarted
  cases hstarted

/-- Where a recovery without a result may end. -/
def recoverPost (c₀ : Option Text) (id rev : String) (α : Type) : Post DeployRoot ReleaseError α where
  returned _ root := Agrees c₀ id rev root ∧ Restorable c₀ id rev root
  raised _ root := Agrees c₀ id rev root ∧ Restorable c₀ id rev root
  stopped root := Agrees c₀ id rev root ∧ Restorable c₀ id rev root

/-- The first steps of a recovery without a result, which at most note that it stabilizes. -/
theorem preserves_noteStabilizing {I : DeployRoot → Prop} {phase : Option Status}
    (hI : Preserves I (appendEvent id .stabilizing)) :
    Preserves I (Prog.when (phase ≠ some .stabilizing) (Prog.tryCatch (appendEvent id .stabilizing)
      fun e => if e = .journalError then pure () else throw e) : ReleaseM Unit) :=
  .when fun _ => .tryCatch hI fun _ => .ite (fun _ => .pure) fun _ => .throw

theorem wp_recordAccepted (hnames : Names id rev root) (hopen : Open id (fun _ => True) root) :
    (do
      appendEvent id .committed
      writeResult id .committed false
      pure ⟨true, none⟩ : ReleaseM RecoverResult).wp A (recoverPost c₀ id rev _) root := by
  have hend : ∀ s, Accepted id rev s → Agrees c₀ id rev s ∧ Restorable c₀ id rev s :=
    fun s hs => ⟨agrees_of_accepted hs, restorable_of_accepted hs⟩
  have haccepted : ∀ s, Names id rev s ∧ Open id (fun _ => True) s → Accepted id rev s := by
    intro s ⟨hnamed, j, hj, hresult, _⟩
    refine ⟨hnamed, fun k hk r hr => ?_⟩
    obtain rfl : j = k := by rw [hj] at hk; injection hk
    simp [hresult] at hr
  have happend : Preserves (fun s => Names id rev s ∧ Open id (fun _ => True) s)
      (appendEvent id .committed) := by
    refine .update fun s t hs ht => ?_
    obtain ⟨j, j', hlookup, hj, rfl⟩ := modifyDeployment_eq_ok.mp ht
    obtain ⟨_, k, hk, hresult, _⟩ := open_of_appendEvent hs.2 ht
    exact ⟨hs.1, k, hk, hresult, trivial⟩
  refine wp_bind.mpr (happend.wp ⟨hnames, hopen⟩ (fun _ s hs => ?_)
    (fun _ s hs => hend s (haccepted s hs)) fun s hs => hend s (haccepted s hs))
  refine wp_bind.mpr (wp_mono (wp_writeResult (fun t j ht hj _ => ?_) (haccepted s hs))
    (fun _ s hs => wp_pure.mpr (hend s hs.1)) (fun _ s hs => hend s hs) fun s hs => hend s hs)
  refine ⟨ht.1, fun k hk r hr => ?_⟩
  rw [withResult, AList.lookup_insert, Option.some.injEq] at hk
  subst hk
  obtain rfl : ⟨id, .committed, false⟩ = r := by simpa using hr
  rfl

theorem wp_acceptInterrupted (haction : inp.action = .acceptTarget)
    (hplan : PlanFor inp.deploymentId rev plan) (hs : Unsettled c₀ inp.deploymentId rev root) :
    (recoverInterrupted releases inp plan).wp A (recoverPost c₀ inp.deploymentId rev _) root := by
  have hend : ∀ s, Unsettled c₀ inp.deploymentId rev s →
      Agrees c₀ inp.deploymentId rev s ∧ Restorable c₀ inp.deploymentId rev s :=
    fun s hs => ⟨agrees_of_open hs.1, hs.2⟩
  have hraise : ∀ (_ : ReleaseError) s, Unsettled c₀ inp.deploymentId rev s →
      Agrees c₀ inp.deploymentId rev s ∧ Restorable c₀ inp.deploymentId rev s := fun _ => hend
  simp only [recoverInterrupted, executeRecovery, haction, RecoverAction.status]
  refine wp_bind.mpr (wp_read (fun phase _ => ?_) (fun e => hraise e root hs) (hend root hs))
  refine wp_bind.mpr ((preserves_noteStabilizing preserves_stabilizing_unsettled).wp hs
    (fun _ s hs => ?_) hraise hend)
  refine wp_bind.mpr (wp_bind.mpr (preserves_acceptTargetGates.wp hs (fun database s hs => ?_)
    hraise hend))
  refine wp_bind.mpr (wp_ofExcept (fun state hstate => ?_) fun e _ => hraise e s hs)
  have hnamed : ∀ current, Names plan.deploymentId plan.targetRevision { s with current } →
      Names inp.deploymentId rev { s with current } := by
    intro current hnames
    rwa [hplan.deployment, hplan.target] at hnames
  have hwritten : ∀ current, Names plan.deploymentId plan.targetRevision { s with current } →
      Unsettled c₀ inp.deploymentId rev { s with current } :=
    fun current hnames => ⟨hs.1, fun _ _ _ _ => .inr (hnamed current hnames)⟩
  refine wp_bind.mpr (wp_writeCommitted hstate (hplan.target ▸ hplan.revision)
    (fun current hnames => ?_) (fun e => hraise e s hs)
    (fun e current _ hnames => hraise e _ (hwritten current hnames)) (hend s hs)
    fun current hnames => hend _ (hwritten current hnames))
  exact wp_pure.mpr (wp_recordAccepted (hnamed current hnames) hs.1)

/-! ## Rolling back -/

theorem wp_rollbackGate {prev : String} {Q : Post DeployRoot ReleaseError ResolvedCurrentState}
    (hret : ∀ parsed, parseCurrent root = .ok (some parsed) →
      Q.returned (resolve releases parsed) root)
    (hraise : ∀ e, Q.raised e root) (hstop : Q.stopped root) :
    (rollbackGate releases prev).wp A Q root := by
  refine wp_bind.mpr (wp_read (fun _ _ => ?_) hraise hstop)
  refine wp_bind.mpr (wp_check ?_ hraise hstop)
  refine wp_bind.mpr (wp_read (fun _ _ => ?_) hraise hstop)
  refine wp_bind.mpr (wp_loadAndResolve (fun parsed hparsed => ?_) hraise hstop)
  refine wp_bind.mpr (wp_ofOption (fun current hcurrent => ?_) fun _ => hraise _)
  obtain ⟨p, rfl, rfl⟩ := Option.map_eq_some_iff.mp hcurrent
  refine wp_bind.mpr (wp_require (fun _ => ?_) fun _ => hraise _)
  exact wp_bind.mpr (wp_bind.mpr (wp_ofExcept (fun _ _ => wp_require
    (fun _ => wp_pure.mpr (hret p hparsed)) fun _ => hraise _) fun e _ => hraise e))

/-- Finishing an interrupted rollback, with the previous release still in `current.json`. -/
theorem wp_finishRollback (haction : inp.action = .rollback)
    (hprevious : ∀ parsed, parseCurrent root = .ok (some parsed) →
      plan.previousRevision = some parsed.named.2)
    (hs : NotCommitted root.current inp.deploymentId root) :
    (recoverInterrupted releases inp plan).wp A
      (recoverPost root.current inp.deploymentId rev _) root := by
  have hend : ∀ s, NotCommitted root.current inp.deploymentId s →
      Agrees root.current inp.deploymentId rev s ∧
        Restorable root.current inp.deploymentId rev s :=
    fun s hs => ⟨agrees_of_notCommitted hs, restorable_of_notCommitted hs⟩
  have hraise : ∀ (_ : ReleaseError) s, NotCommitted root.current inp.deploymentId s →
      Agrees root.current inp.deploymentId rev s ∧
        Restorable root.current inp.deploymentId rev s := fun _ => hend
  have hfiled : Filed (NotCommitted root.current inp.deploymentId) := filed_guarded
  simp only [recoverInterrupted, executeRecovery, haction, RecoverAction.status]
  refine wp_bind.mpr (wp_read (fun phase _ => ?_) (fun e => hraise e root hs) (hend root hs))
  refine wp_bind.mpr ((preserves_noteStabilizing
    (preserves_appendEventBy stable_notCommitted)).wp hs (fun _ s hs => ?_) hraise hend)
  refine wp_bind.mpr (wp_bind.mpr (wp_ofOption (fun previous hprev => ?_)
    fun _ => hraise .recoverError s hs))
  refine wp_bind.mpr ((preserves_reactivatePrevious hfiled).wp hs (fun _ s hs => ?_) hraise hend)
  refine wp_bind.mpr (wp_rollbackGate (fun parsed hparsed => ?_) (fun e => hraise e s hs)
    (hend s hs))
  have hsame : parseCurrent root = .ok (some parsed) := by
    rw [← hparsed, parseCurrent, parseCurrent, hs.1]
  have hrevision : (resolve releases parsed).revision = previous.1 := by
    have hnamed : (resolve releases parsed).revision = parsed.named.2 :=
      congrArg Prod.snd resolve_named
    rw [hnamed]
    cases hbootstrap : plan.bootstrap
    · simp only [hbootstrap, hprevious parsed hsame, Option.bind_some, Bool.false_eq_true,
        if_false, Option.map_eq_some_iff] at hprev
      obtain ⟨_, _, rfl⟩ := hprev
      rfl
    · simp [hbootstrap] at hprev
  refine wp_bind.mpr (wp_when (fun hne => absurd hrevision hne) fun _ => wp_pure.mpr ?_)
  refine wp_bind.mpr ((preserves_appendEventBy stable_notCommitted).wp hs (fun _ s hs => ?_)
    hraise hend)
  exact wp_bind.mpr (wp_mono (wp_writeResult_notCommitted (by simp) hs)
    (fun _ s hs => wp_pure.mpr (hend s hs.1)) hraise hend)

theorem legalNext_rolledBack {events : List Status}
    (h : legalNext legalTransitions .planned events .rolledBack = true) :
    events.head? = some .rollbackStarted := by
  unfold legalNext at h
  split at h
  · next previous hprevious =>
    rw [hprevious]
    cases previous <;> simp [legalTransitions] at h ⊢
  · simp at h

/-- Elsewhere a rollback changes what it changes and then may not end. -/
theorem wp_rollbackInterrupted (haction : inp.action = .rollback)
    (hs : Open inp.deploymentId (fun events => events.head? ≠ some .rollbackStarted) root) :
    (recoverInterrupted releases inp plan).wp A (recoverPost c₀ inp.deploymentId rev _) root := by
  have hend : ∀ s, Open inp.deploymentId (fun events => events.head? ≠ some .rollbackStarted) s →
      Agrees c₀ inp.deploymentId rev s ∧ Restorable c₀ inp.deploymentId rev s := by
    intro s hs
    refine ⟨agrees_of_open hs, fun j hj _ hstarted => ?_⟩
    obtain ⟨k, hk, _, hlatest⟩ := hs
    obtain rfl : k = j := by rw [hk] at hj; injection hj
    exact absurd hstarted hlatest
  have hraise : ∀ (_ : ReleaseError) s,
      Open inp.deploymentId (fun events => events.head? ≠ some .rollbackStarted) s →
      Agrees c₀ inp.deploymentId rev s ∧ Restorable c₀ inp.deploymentId rev s := fun _ => hend
  have happend : Preserves
      (Open inp.deploymentId fun events => events.head? ≠ some .rollbackStarted)
      (appendEvent inp.deploymentId .stabilizing) := by
    refine .update fun s t hs ht => ?_
    obtain ⟨_, j, hj, hresult, hlatest⟩ := open_of_appendEvent hs ht
    exact ⟨j, hj, hresult, by simp [hlatest]⟩
  simp only [recoverInterrupted, haction, RecoverAction.status]
  refine wp_bind.mpr (wp_read (fun phase _ => ?_) (fun e => hraise e root hs) (hend root hs))
  refine wp_bind.mpr ((preserves_noteStabilizing happend).wp hs (fun _ s hs => ?_) hraise hend)
  have hplaced : Placed (Open inp.deploymentId fun events =>
      events.head? ≠ some .rollbackStarted) := fun _ _ h => h
  refine wp_bind.mpr ((hplaced.executeRecovery fun _ _ h => h).wp hs (fun _ s hs => ?_) hraise hend)
  refine wp_bind.mpr (wp_appendEventBy_of_illegal (fun j hj => ?_) (fun e => hraise e s hs)
    (hend s hs))
  obtain ⟨k, hk, _, hlatest⟩ := hs
  obtain rfl : k = j := by rw [hk] at hj; injection hj
  exact Bool.eq_false_iff.mpr fun hlegal => hlatest (legalNext_rolledBack hlegal)

/-! ## The command -/

/-- The events, the plan and the result of a journal whose rollback failed stay. -/
theorem noted_rollbackFailed :
    Noted id fun root => ∃ j r, root.deployments.lookup id = some j ∧ j.result = some r ∧
      r.status = .rollbackFailed where
  filed := fun _ _ h => h
  note := fun root j j' hs hlookup _ _ hresult => by
    obtain ⟨k, r, hk, hr, hstatus⟩ := hs
    obtain rfl : k = j := by rw [hk] at hlookup; injection hlookup
    exact ⟨j', r, AList.lookup_insert _, hresult.trans hr, hstatus⟩

theorem wp_loadPlan {Q : Post DeployRoot ReleaseError PlanDocument}
    (hlookup : root.deployments.lookup id = some j)
    (hplan : ∀ plan, j.plan = some plan → PlanFor id rev plan)
    (hret : ∀ plan, j.plan = some plan → Q.returned plan root)
    (hraise : ∀ e, Q.raised e root) (hstop : Q.stopped root) :
    (loadPlan id).wp A Q root := by
  refine wp_read (fun plan hload => ?_) hraise hstop
  simp only [hlookup] at hload
  cases hj : j.plan with
  | none => simp [hj] at hload
  | some p =>
    simp only [hj] at hload
    obtain ⟨_, htarget, hrevision, hprevious⟩ := hplan p hj
    have hsame : parsePlan p = .ok plan → p = plan := by
      intro h
      obtain ⟨target, ht, h⟩ := Transactions.bind_eq_ok.mp h
      obtain ⟨previous, hp, h⟩ := Transactions.bind_eq_ok.mp h
      simp only [Transactions.bind_eq_ok, pure, Except.pure, Except.ok.injEq] at h
      obtain ⟨_, _, _, _, _, _, _, _, _, _, _, _, rfl⟩ := h
      have htargetRevision : p.targetRevision = target := by
        simpa [parsePlanRevision, validateFullSha_of_isRevision (htarget ▸ hrevision),
          Except.mapError] using ht
      have hpreviousRevision : p.previousRevision = previous := by
        cases hprev : p.previousRevision with
        | none => simpa [hprev, pure, Except.pure] using hp
        | some prev =>
          have hvalid := validateFullSha_of_isRevision (hprevious prev hprev).1
          simpa [hprev, parsePlanRevision, hvalid, Except.mapError, Option.mapM_some, Functor.map,
            Except.map] using hp
      rw [← htargetRevision, ← hpreviousRevision]
    exact hret plan (by rw [hj, hsame hload])

theorem wp_recoverInterrupted (hlookup : root.deployments.lookup inp.deploymentId = some j)
    (hresult : j.result = none) (hj : j.plan = some plan)
    (hs : Consistent c₀ inp.deploymentId rev root) (hsafe : RollsBackSafely inp root) :
    (recoverInterrupted releases inp plan).wp A (recoverPost c₀ inp.deploymentId rev _) root := by
  have hplan : PlanFor inp.deploymentId rev plan := hs.alone.1 j plan hlookup hj
  cases haction : inp.action with
  | acceptTarget =>
    exact wp_acceptInterrupted haction hplan ⟨⟨j, hlookup, hresult, trivial⟩, hs.restorable⟩
  | rollback =>
    by_cases hstarted : j.events.head? = some .rollbackStarted
    · have hprevious := hsafe haction j plan hlookup hresult hstarted hj
      cases hs.restorable j hlookup hresult hstarted with
      | inl hcurrent =>
        subst hcurrent
        refine wp_finishRollback haction hprevious ⟨rfl, fun k hk r hr => ?_⟩
        obtain rfl : j = k := by rw [hlookup] at hk; injection hk
        simp [hresult] at hr
      | inr hnames =>
        -- the target cannot be its own previous release
        obtain ⟨c, hparsed, hrevision, _⟩ := hnames
        exact absurd hrevision (hplan.previous _ (hprevious _ hparsed)).2
    · exact wp_rollbackInterrupted haction ⟨j, hlookup, hresult, hstarted⟩

theorem resolvedBy_of_not_blocks (h : deploymentBlocksRollout j = false) :
    (∃ resolution, resolvedBy j = some resolution) ∨
      ∃ r, j.result = some r ∧ r.status ∈ [Status.committed, .rolledBack, .failed] := by
  unfold deploymentBlocksRollout at h
  cases hr : j.result with
  | none => simp [hr] at h
  | some r =>
    simp only [hr] at h
    split at h
    · next hstatus => exact .inr ⟨r, rfl, by simp [hstatus]⟩
    · next hstatus => exact .inr ⟨r, rfl, by simp [hstatus]⟩
    · next hstatus => exact .inr ⟨r, rfl, by simp [hstatus]⟩
    · exact .inl (by simpa [Option.isSome_iff_exists] using h)
    · cases h

/-- A deployment that is resolved is left alone. -/
theorem preserves_recoverLocked_resolved
    (hresolved : ∀ j, root.deployments.lookup inp.deploymentId = some j →
      deploymentBlocksRollout j = false) :
    Preserves (· = root) (recoverLocked releases inp) := by
  rintro _ rfl
  refine wp_bind.mpr (wp_read (fun found hfound => ?_) (fun _ => rfl) rfl)
  refine wp_bind.mpr (wp_ofOption (fun j hj => ?_) fun _ => rfl)
  obtain rfl : _ = found := by simpa using hfound
  cases hresolution : resolvedBy j with
  | some resolution =>
    simp only [hresolution]
    exact wp_pure.mpr rfl
  | none =>
    simp only [hresolution]
    refine wp_bind.mpr (wp_read (fun _ _ => ?_) (fun _ => rfl) rfl)
    refine wp_bind.mpr (wp_require (fun _ => ?_) fun _ => rfl)
    rcases resolvedBy_of_not_blocks (hresolved j hj) with ⟨resolution, hsome⟩ | ⟨r, hr, hstatus⟩
    · rw [hresolution] at hsome
      cases hsome
    · simp only [hr]
      rw [if_neg (by rintro hfailed; simp [hfailed] at hstatus)]
      exact wp_throw.mpr rfl

/-- A condition, however a program ends. -/
def Post.always (I : DeployRoot → Prop) (α : Type) : Post DeployRoot ReleaseError α :=
  ⟨fun _ => I, fun _ => I, I⟩

theorem wp_recoverLocked_own (hid : inp.deploymentId = id) (hs : Consistent c₀ id rev root)
    (hsafe : RollsBackSafely inp root) :
    (recoverLocked releases inp).wp A (Post.always (Consistent c₀ id rev) _) root := by
  subst hid
  have hraise : ∀ _ : ReleaseError, Consistent c₀ inp.deploymentId rev root := fun _ => hs
  refine wp_bind.mpr (wp_read (fun found hfound => ?_) hraise hs)
  refine wp_bind.mpr (wp_ofOption (fun j hj => ?_) fun _ => hs)
  obtain rfl : _ = found := by simpa using hfound
  cases hresolution : resolvedBy j with
  | some resolution =>
    simp only [hresolution]
    exact wp_pure.mpr hs
  | none =>
    simp only [hresolution]
    refine wp_bind.mpr (wp_loadPlan hj (fun plan hplan => hs.alone.1 j plan hj hplan)
      (fun plan hplan => ?_) hraise hs)
    refine wp_bind.mpr (wp_require (fun _ => ?_) fun _ => hs)
    cases hresult : j.result with
    | none =>
      dsimp only
      have hkept : Preserves (Alone inp.deploymentId rev) (recoverInterrupted releases inp plan) :=
        logged_alone.recoverInterrupted placed_alone
      exact wp_mono (wp_and (wp_recoverInterrupted hj hresult hplan hs hsafe)
        (hkept.holds hs.alone)) (fun _ _ h => ⟨h.1.1, h.1.2, h.2⟩) (fun _ _ h => ⟨h.1.1, h.1.2, h.2⟩)
        fun _ h => ⟨h.1.1, h.1.2, h.2⟩
    | some r =>
      dsimp only
      by_cases hfailed : r.status = .rollbackFailed
      · rw [if_pos hfailed]
        have hkept : Preserves (Alone inp.deploymentId rev)
            (recoverFailedRollback releases inp plan) :=
          logged_alone.noted.recoverFailedRollback placed_alone
        have hnoted := @Noted.recoverFailedRollback releases _ plan inp
          noted_rollbackFailed fun _ _ h => h
        have hend : ∀ s, (∃ j r, s.deployments.lookup inp.deploymentId = some j ∧
            j.result = some r ∧ r.status = .rollbackFailed) ∧ Alone inp.deploymentId rev s →
            Consistent c₀ inp.deploymentId rev s := by
          intro s ⟨⟨k, q, hk, hq, hstatus⟩, halone⟩
          refine ⟨fun l p hl hp => ?_, fun l hl hnone => ?_, halone⟩
          · obtain rfl : k = l := by rw [hk] at hl; injection hl
            obtain rfl : q = p := by rw [hq] at hp; injection hp
            exact ⟨fun h => by simp [hstatus] at h, fun h => by simp [hstatus] at h⟩
          · obtain rfl : k = l := by rw [hk] at hl; injection hl
            simp [hq] at hnone
        refine wp_catching.mpr (wp_mono (wp_and (hnoted.holds ⟨j, r, hj, hresult, hfailed⟩)
          (hkept.holds hs.alone)) (fun _ s h => hend s h) (fun _ s h => ?_) fun s h => hend s h)
        exact hend s h
      · rw [if_neg hfailed]
        exact wp_throw.mpr hs

theorem logged_absent (hne : inp.deploymentId ≠ id) :
    Logged inp.deploymentId fun root => root.deployments.lookup id = none where
  filed := fun _ _ h => h
  entry := fun root j j' hs _ _ => by
    rw [AList.lookup_insert_ne (Ne.symm hne)]
    exact hs

theorem preserves_recoverLocked {I : DeployRoot → Prop} (hI : Logged inp.deploymentId I)
    (hplaced : Placed I) : Preserves I (recoverLocked releases inp) := by
  refine .bind .read fun found => .bind .ofOption fun j => ?_
  split
  · exact .pure
  · refine .bind .read fun plan => .bind .require fun _ => ?_
    split
    · exact hI.recoverInterrupted hplaced
    · exact .ite (fun _ => .catching (hI.noted.recoverFailedRollback hplaced)) fun _ => .throw

theorem preserves_absent :
    Preserves (fun root => root.deployments.lookup id = none) (recoverLocked releases inp) := by
  by_cases hid : inp.deploymentId = id
  · intro root hs
    have hsame := @preserves_recoverLocked_resolved releases root inp fun j hj => by
      rw [hid, hs] at hj
      cases hj
    exact hsame.wp rfl (fun _ s h => h ▸ hs) (fun _ s h => h ▸ hs) fun s h => h ▸ hs
  · exact preserves_recoverLocked (logged_absent hid) fun _ _ h => h

theorem wp_recoverLocked (hs : Consistent c₀ id rev root)
    (hsafe : inp.deploymentId = id → RollsBackSafely inp root) :
    (recoverLocked releases inp).wp A (Post.always (Consistent c₀ id rev) _) root := by
  by_cases hid : inp.deploymentId = id
  · exact wp_recoverLocked_own hid hs (hsafe hid)
  · have hsame := @preserves_recoverLocked_resolved releases root inp fun j hj =>
      hs.alone.2 _ j hid hj
    exact hsame.wp rfl (fun _ s h => h ▸ hs) (fun _ s h => h ▸ hs) fun s h => h ▸ hs

theorem wp_recoverDeployment {I : DeployRoot → Prop} (hs : I root)
    (hlocked : (recoverLocked releases inp).wp A (Post.always I _) root) :
    (recoverDeployment releases inp).wp A (Post.always I _) root := by
  have hraise : ∀ _ : ReleaseError, I root := fun _ => hs
  refine wp_catching.mpr (wp_bind.mpr (wp_check ?_ hraise hs))
  refine wp_bind.mpr (wp_check ?_ hraise hs)
  refine wp_bind.mpr (wp_check ?_ hraise hs)
  refine wp_bind.mpr (wp_requireResolved (fun _ => ?_) hraise hs)
  refine wp_bind.mpr (wp_require (fun _ => ?_) fun _ => hs)
  exact wp_mono hlocked (fun _ _ h => h) (fun _ _ h => h) fun _ h => h

/-! ## Runs -/

/-- Recoveries, one after the other, each with faults of its own. -/
inductive Recoveries (releases : Releases) (safe : RecoverInput → DeployRoot → Prop)
    (root : DeployRoot) : DeployRoot → Prop
  | none : Recoveries releases safe root root
  | recover {mid : DeployRoot} (inp : RecoverInput) (script : List (Fault ReleaseError))
      (h : Recoveries releases safe root mid) (hsafe : safe inp mid) :
      Recoveries releases safe root ((recoverDeployment releases inp).run script mid).state

theorem invariant_recoveries {safe : RecoverInput → DeployRoot → Prop} {I : DeployRoot → Prop}
    (hI : ∀ inp root, safe inp root → I root →
      (recoverLocked releases inp).wp (fun _ _ _ => True) (Post.always I _) root)
    (hs : I root) (h : Recoveries releases safe root root') : I root' := by
  induction h with
  | none => exact hs
  | @recover mid inp script _ hsafely ih =>
    have hends := holds_of_wp script (wp_recoverDeployment ih (hI inp mid hsafely ih))
      fun _ _ => trivial
    revert hends
    cases ((recoverDeployment releases inp).run script mid).exit <;> exact fun h => h

/-- The result of a deployment, against `current.json` before the rollout and now. -/
def OutcomeAgrees (c₀ : Option Text) (inp : RolloutInput) (root : DeployRoot) : Prop :=
  ∀ j r, root.deployments.lookup inp.deploymentId.val = some j → j.result = some r →
    (r.status = .committed → ∃ rev, validateFullSha inp.expectedRevision = .ok rev ∧
      Names inp.deploymentId.val rev root) ∧
    (r.status ∈ [Status.rolledBack, .failed] → root.current = c₀)

/-- A rollout publishes what `current.json` says, and no recovery after it makes that untrue, if
no raise separates `current.json` from its event and no recovery rolls the published target back. -/
theorem rollout_outcome_agrees (releases : Releases) (root root' : DeployRoot) (inp : RolloutInput)
    (script : List (Fault ReleaseError))
    (hfresh : root.deployments.lookup inp.deploymentId.val = none)
    (hactive : ∀ rev, validateFullSha inp.expectedRevision = .ok rev → ActiveCommitted rev root)
    (hsafe : Meets PublishesSafely ((rolloutRelease releases inp).run script root))
    (hrecoveries : Recoveries releases
      (fun recovery mid => recovery.deploymentId = inp.deploymentId.val →
        RollsBackSafely recovery mid)
      ((rolloutRelease releases inp).run script root).state root') :
    OutcomeAgrees root.current inp root' ∧
      ∀ r, ((rolloutRelease releases inp).run script root).exit = .returned r →
        Honest r ((rolloutRelease releases inp).run script root).state := by
  have hends := holds_of_wp script (wp_rolloutRelease hfresh hactive) hsafe
  have hrecorded : Recorded root.current inp ((rolloutRelease releases inp).run script root).state := by
    revert hends
    cases ((rolloutRelease releases inp).run script root).exit with
    | returned r => exact fun h => h.1
    | raised e => exact fun h => h
    | stopped => exact fun h => h
  refine ⟨?_, fun r hr => ?_⟩
  · rcases hrecorded with hnone | ⟨rev, hrev, hsettled, halone⟩
    · have hstill := invariant_recoveries (fun _ s _ hs => preserves_absent s hs) hnone hrecoveries
      intro j r hj
      rw [hstill] at hj
      cases hj
    · have hstart : Consistent root.current inp.deploymentId.val rev
          ((rolloutRelease releases inp).run script root).state :=
        ⟨agrees_of_settled hsettled, restorable_of_settled hsettled, halone⟩
      have hend := invariant_recoveries (fun _ _ hsafely hs => wp_recoverLocked hs hsafely) hstart
        hrecoveries
      intro j r hj hr
      exact ⟨fun hstatus => ⟨rev, hrev, (hend.agrees j r hj hr).1 hstatus⟩,
        (hend.agrees j r hj hr).2⟩
  · rw [hr] at hends
    exact hends.2

theorem sample_fresh : sampleRoot.deployments.lookup sampleInput.deploymentId.val = none := rfl

theorem sample_active : ∀ rev, validateFullSha sampleInput.expectedRevision = .ok rev →
    ActiveCommitted rev sampleRoot := by
  intro rev hrev parsed hparsed hnamed
  have hexpected : validateFullSha sampleInput.expectedRevision = .ok (sampleRevision 'b') := by
    decide +kernel
  have hcurrent : parseCurrent sampleRoot = .ok (some (.v2 sampleCurrent)) := by decide +kernel
  obtain rfl : sampleRevision 'b' = rev := by simpa [hexpected] using hrev
  obtain rfl : .v2 sampleCurrent = parsed := by simpa [hcurrent] using hparsed
  exact absurd hnamed (by decide +kernel)

/-- The process stops as soon as the write of `current.json` has taken effect. -/
def stopsAtPublication : List (Fault ReleaseError) := List.replicate 34 .none ++ [.stopped true]

def sampleRecovery : RecoverInput where
  projectName := "fetchnow"
  deploymentId := sampleInput.deploymentId.val
  action := .acceptTarget
  recoveryId := ⟨"00000000-0000-4000-8000-000000000003", by decide +kernel⟩
  now := ⟨"2026-01-03T00:00:00Z", by decide +kernel⟩

theorem meets_stopsAtPublication :
    Meets PublishesSafely ((rolloutRelease sampleReleases sampleInput).run stopsAtPublication
      sampleRoot) := by
  have hsafe : ∀ fault, (∀ error effect, fault ≠ .raised error effect) → ∀ op root,
      PublishesSafely op root fault := by
    intro fault hfault op root
    unfold PublishesSafely
    split
    · exact absurd rfl (hfault _ _)
    · exact absurd rfl (hfault _ _)
    · trivial
  refine meets_run (hsafe .none fun _ _ => by simp) fun fault hfault => hsafe fault ?_
  rcases List.mem_append.mp hfault with hfault | hfault
  · rw [List.eq_of_mem_replicate hfault]
    exact fun _ _ => by simp
  · rw [List.mem_singleton.mp hfault]
    exact fun _ _ => by simp

/-- What is asked of the recoveries of the sample's deployment. -/
def SampleSafely (recovery : RecoverInput) (mid : DeployRoot) : Prop :=
  recovery.deploymentId = sampleInput.deploymentId.val → RollsBackSafely recovery mid

theorem sampleSafely {mid : DeployRoot} : SampleSafely sampleRecovery mid := fun _ h => by cases h

/-- A recovery accepts the target, and what it records agrees with `current.json`. -/
theorem rollout_outcome_agrees_recovered : ∃ recovered, Recoveries sampleReleases SampleSafely
      ((rolloutRelease sampleReleases sampleInput).run stopsAtPublication sampleRoot).state
      recovered ∧
    ((recovered.deployments.lookup sampleInput.deploymentId.val).bind Deployment.result).map
        ResultDocument.status = some .committed ∧
      OutcomeAgrees sampleRoot.current sampleInput recovered := by
  have hrecovered := (@Recoveries.none sampleReleases SampleSafely
    ((rolloutRelease sampleReleases sampleInput).run stopsAtPublication
      sampleRoot).state).recover sampleRecovery [] sampleSafely
  exact ⟨_, hrecovered, by decide +kernel, (rollout_outcome_agrees sampleReleases sampleRoot _
    sampleInput stopsAtPublication sample_fresh sample_active meets_stopsAtPublication
    hrecovered).1⟩

/-- The write of `current.json` took effect and raised. The rollback then succeeds, and its result
stands beside the state of the target. -/
theorem rollout_outcome_disagrees : ¬ ∀ (releases : Releases) (root : DeployRoot)
    (inp : RolloutInput) (script : List (Fault ReleaseError)),
    root.deployments.lookup inp.deploymentId.val = none →
    (∀ rev, validateFullSha inp.expectedRevision = .ok rev → ActiveCommitted rev root) →
    OutcomeAgrees root.current inp ((rolloutRelease releases inp).run script root).state := by
  intro hall
  have hagrees := hall sampleReleases sampleRoot sampleInput
    (List.replicate 34 .none ++ [.raised .osError true]) sample_fresh sample_active
  have hends : ((((rolloutRelease sampleReleases sampleInput).run
      (List.replicate 34 .none ++ [.raised .osError true]) sampleRoot).state.deployments.lookup
        sampleInput.deploymentId.val).bind Deployment.result).map ResultDocument.status =
      some .rolledBack ∧
    ((rolloutRelease sampleReleases sampleInput).run
      (List.replicate 34 .none ++ [.raised .osError true]) sampleRoot).state.current ≠
        sampleRoot.current := by decide +kernel
  obtain ⟨hresult, hcurrent⟩ := hends
  obtain ⟨r, hr, hstatus⟩ := Option.map_eq_some_iff.mp hresult
  obtain ⟨j, hj, hr⟩ := Option.bind_eq_some_iff.mp hr
  exact hcurrent ((hagrees j r hj hr).2 (by rw [hstatus]; decide))

end FetchNow.Release
