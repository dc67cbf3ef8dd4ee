import FetchNow.Release.Frames

/-!
# The outcome of a rollout

The result that a rollout publishes, and `current.json`.
-/
namespace FetchNow.Release

open Faults Faults.Prog

variable {releases : Releases} {root root' : DeployRoot} {id rev : String} {c₀ : Option Text}
  {R : Deployment → Prop} {j : Deployment} {status : Status}
  {A : Op → DeployRoot → Fault ReleaseError → Prop}

/-! ## What plans and events leave alone -/

/-- `current.json` is `c₀`, and the journal, if it is there, satisfies `R`. -/
def Guarded (c₀ : Option Text) (id : String) (R : Deployment → Prop) (root : DeployRoot) : Prop :=
  root.current = c₀ ∧ ∀ j, root.deployments.lookup id = some j → R j

/-- A condition that plans and events do not touch. -/
structure Stable (R : Deployment → Prop) : Prop where
  empty : R .empty
  plan : ∀ j plan, R j → R { j with plan := some plan }
  event : ∀ j status, R j → R { j with events := status :: j.events }

theorem stable_noResult : Stable fun j => j.result = none :=
  ⟨rfl, fun _ _ h => h, fun _ _ h => h⟩

theorem stable_notCommitted : Stable fun j => ∀ r, j.result = some r → r.status ≠ .committed :=
  ⟨fun r h => by simp [Deployment.empty] at h, fun _ _ h => h, fun _ _ h => h⟩

theorem guarded_of_modify {f : Deployment → Except ReleaseError Deployment}
    (hf : ∀ j j', R j → f j = .ok j' → R j') (h : Guarded c₀ id R root)
    (hmodify : root.modifyDeployment id f = .ok root') : Guarded c₀ id R root' := by
  obtain ⟨j, j', hlookup, hj, rfl⟩ := modifyDeployment_eq_ok.mp hmodify
  refine ⟨h.1, fun k hk => ?_⟩
  rw [AList.lookup_insert, Option.some.injEq] at hk
  exact hk ▸ hf j j' (h.2 j hlookup) hj

theorem preserves_appendEventBy {legal : Status → List Status} (hR : Stable R) :
    Preserves (Guarded c₀ id R) (appendEventBy legal id status) := by
  refine .update fun s t hs ht => guarded_of_modify (fun j j' hj hj' => ?_) hs ht
  split at hj'
  · obtain rfl : { j with events := status :: j.events } = j' := by simpa using hj'
    exact hR.event j status hj
  · cases hj'

theorem preserves_writePlan {plan : PlanDocument} (hR : Stable R) :
    Preserves (Guarded c₀ id R) (writePlan id plan) := by
  refine .bind (.update fun s t hs ht => ?_) fun _ => .update fun s t hs ht =>
    guarded_of_modify (fun j j' hj hj' => ?_) hs ht
  · split at ht
    · obtain rfl : { s with deployments := s.deployments.insert id .empty } = t := by
        simpa using ht
      refine ⟨hs.1, fun k hk => ?_⟩
      rw [AList.lookup_insert, Option.some.injEq] at hk
      exact hk ▸ hR.empty
    · split at ht
      · cases ht
      · obtain rfl : s = t := by simpa using ht
        exact hs
  · obtain rfl : { j with plan := some plan } = j' := by simpa using hj'
    exact hR.plan j plan hj

theorem filed_guarded : Filed (Guarded c₀ id R) := fun _ _ h => h

/-! ## Publication -/

/-- `current.json` is a state of the revision that the deployment published. -/
def Names (id rev : String) (root : DeployRoot) : Prop :=
  ∃ c, parseCurrent root = .ok (some (.v2 c)) ∧ c.application.revision = rev ∧
    c.application.deploymentId = id

/-- No raise comes between `current.json` and the event that goes with it. -/
def PublishesSafely : Op → DeployRoot → Fault ReleaseError → Prop
  | .writeCurrentState, _, .raised _ true => False
  | .appendEvent .committed, _, .raised _ false => False
  | _, _, _ => True

/-- The journal has no result, and this is its latest event. -/
def Pending (id : String) (latest : Status) (root : DeployRoot) : Prop :=
  ∃ j, root.deployments.lookup id = some j ∧ j.result = none ∧ j.events.head? = some latest

/-- The latest event says committed, and the result at most does. -/
def Committed (id : String) (root : DeployRoot) : Prop :=
  ∃ j, root.deployments.lookup id = some j ∧ j.events.head? = some .committed ∧
    ∀ r, j.result = some r → r.status = .committed

theorem names_of_current {c : CurrentStateV2} {state : CurrentStateV2}
    (hrev : IsRevision c.application.revision) (hparse : parseCurrentStateV2 c.toDict = .ok state)
    (hcurrent : root.current = some ⟨.indented, .obj c.toDict⟩) :
    Names c.application.deploymentId c.application.revision root := by
  have hlookup : c.toDict.lookup "schema_version" = some (.int 2) := rfl
  have hparsed : parseCurrent root = .ok (some (.v2 state)) := by
    simp only [parseCurrent, hcurrent, parseCurrentStateDocument, hlookup, hparse]
    rfl
  have happ := application_of_parseCurrentStateV2_toDict hrev hparse
  exact ⟨state, hparsed, by rw [happ], by rw [happ]⟩

variable {Q : Post DeployRoot ReleaseError Unit}

/-- The root after an event was appended to a journal. -/
def withEvent (root : DeployRoot) (id : String) (j : Deployment) (status : Status) : DeployRoot :=
  { root with deployments := root.deployments.insert id { j with events := status :: j.events } }

theorem wp_appendEventBy {legal : Status → List Status}
    (hlookup : root.deployments.lookup id = some j)
    (hlegal : legalNext legal .planned j.events status = true)
    (hret : Q.returned () (withEvent root id j status))
    (hraise : ∀ e (effect : Bool), A (.appendEvent status) root (.raised e effect) →
      Q.raised e (if effect then withEvent root id j status else root))
    (hstop : ∀ effect : Bool, Q.stopped (if effect then withEvent root id j status else root)) :
    (appendEventBy legal id status).wp A Q root := by
  have heffect : root.modifyDeployment id (fun j =>
      if legalNext legal .planned j.events status then
        .ok { j with events := status :: j.events }
      else
        .error .journalError) = .ok (withEvent root id j status) :=
    modifyDeployment_eq_ok.mpr ⟨j, _, hlookup, if_pos hlegal, rfl⟩
  refine wp_update.mpr ⟨fun _ t ht => ?_, fun _ e he => ?_, fun e effect hA => ?_,
    fun effect _ => ?_⟩
  · rw [heffect, Except.ok.injEq] at ht
    exact ht ▸ hret
  · rw [heffect] at he
    cases he
  · rw [interrupted_of_ok heffect]
    exact hraise e effect hA
  · rw [interrupted_of_ok heffect]
    exact hstop effect

/-- An event that may not follow is not written. -/
theorem wp_appendEventBy_of_illegal {legal : Status → List Status}
    (hillegal : ∀ j, root.deployments.lookup id = some j →
      legalNext legal .planned j.events status = false)
    (hraise : ∀ e, Q.raised e root) (hstop : Q.stopped root) :
    (appendEventBy legal id status).wp A Q root := by
  have heffect : ∃ e, root.modifyDeployment id (fun j =>
      if legalNext legal .planned j.events status then
        .ok { j with events := status :: j.events }
      else
        .error .journalError) = .error e := by
    simp only [DeployRoot.modifyDeployment, modify]
    cases hlookup : root.deployments.lookup id with
    | none => exact ⟨_, rfl⟩
    | some j => simp [hillegal j hlookup, Except.map]
  obtain ⟨e', heffect⟩ := heffect
  refine wp_update.mpr ⟨fun _ t ht => ?_, fun _ e _ => hraise e, fun e effect _ => ?_,
    fun effect _ => ?_⟩
  · rw [heffect] at ht
    cases ht
  · rw [interrupted_of_error heffect]
    exact hraise e
  · rw [interrupted_of_error heffect]
    exact hstop

/-! ## Commit -/

/-- No result yet, and `current.json` as it was. -/
def Unpublished (c₀ : Option Text) (id : String) : DeployRoot → Prop :=
  Guarded c₀ id fun j => j.result = none

theorem unpublished_of_pending (hcurrent : root.current = c₀) (h : Pending id status root) :
    Unpublished c₀ id root := by
  obtain ⟨j, hj, hresult, _⟩ := h
  refine ⟨hcurrent, fun k hk => ?_⟩
  obtain rfl : j = k := by rw [hj] at hk; injection hk
  exact hresult

theorem wp_appendEventBy_unpublished {legal : Status → List Status}
    (hs : Unpublished c₀ id root) :
    (appendEventBy legal id status).wp A ⟨fun _ root => root.current = c₀ ∧ Pending id status root,
      fun _ => Unpublished c₀ id, Unpublished c₀ id⟩ root := by
  have hpreserves : Preserves (Unpublished c₀ id) (appendEventBy legal id status) :=
    preserves_appendEventBy stable_noResult
  obtain ⟨_, herror, hraised, hstopped⟩ := wp_update.mp (hpreserves root hs)
  refine wp_update.mpr ⟨fun _ t ht => ?_, fun _ => herror trivial,
    fun e effect _ => hraised e effect trivial, fun effect _ => hstopped effect trivial⟩
  obtain ⟨j, j', hlookup, hj', rfl⟩ := modifyDeployment_eq_ok.mp ht
  split at hj'
  · obtain rfl : { j with events := status :: j.events } = j' := by simpa using hj'
    exact ⟨hs.1, _, AList.lookup_insert _, hs.2 j hlookup, rfl⟩
  · cases hj'

theorem wp_appendEvent_unpublished (hs : Unpublished c₀ id root) :
    (appendEvent id status).wp A ⟨fun _ root => root.current = c₀ ∧ Pending id status root,
      fun _ => Unpublished c₀ id, Unpublished c₀ id⟩ root :=
  wp_appendEventBy_unpublished hs

theorem wp_activateTarget (hs : Unpublished c₀ id root) :
    (activateTarget id rev).wp A ⟨fun _ root => root.current = c₀ ∧ Pending id .stabilizing root,
      fun _ => Unpublished c₀ id, Unpublished c₀ id⟩ root := by
  have hI : Filed (Unpublished c₀ id) := filed_guarded
  refine wp_bind.mpr ((preserves_activateAppTier hI).wp hs (fun _ s hs => ?_) (fun _ _ h => h)
    fun _ h => h)
  refine wp_bind.mpr (wp_check ?_ (fun _ => hs) hs)
  refine wp_bind.mpr ((preserves_appendEventBy stable_noResult).wp hs (fun _ s hs => ?_)
    (fun _ _ h => h) fun _ h => h)
  refine wp_bind.mpr ((preserves_appendEventBy stable_noResult).wp hs (fun _ s hs => ?_)
    (fun _ _ h => h) fun _ h => h)
  refine wp_bind.mpr ((preserves_activateGateway hI).wp hs (fun _ s hs => ?_) (fun _ _ h => h)
    fun _ h => h)
  refine wp_bind.mpr (wp_mono (wp_appendEvent_unpublished hs) (fun _ s hs => ?_) (fun _ _ h => h)
    fun _ h => h)
  have hunpublished := unpublished_of_pending hs.1 hs.2
  exact wp_check hs (fun _ => hunpublished) hunpublished

/-- The result on disk. -/
def HasResult (id : String) (status : Status) (root : DeployRoot) : Prop :=
  ∃ j r, root.deployments.lookup id = some j ∧ j.result = some r ∧ r.status = status

/-- The root after a result was written to a journal. -/
def withResult (root : DeployRoot) (id : String) (j : Deployment) (r : ResultDocument) :
    DeployRoot :=
  { root with deployments := root.deployments.insert id { j with result := some r } }

/-- A result is written once, and nothing else of the journal changes. -/
theorem writeResult_eq (id : String) (status : Status) (audit : Bool) :
    ∃ f : Deployment → Except ReleaseError Deployment, writeResult id status audit =
        (do
          Prog.require (status ∈ terminalResultStatuses) .journalError
          update (.writeResult status) fun root => root.modifyDeployment id f) ∧
      ∀ j j', f j = .ok j' →
        j.result = none ∧ { j with result := some ⟨id, status, audit⟩ } = j' := by
  refine ⟨_, rfl, fun j j' hj' => ?_⟩
  obtain ⟨_, hnone, hj'⟩ := Transactions.bind_eq_ok.mp hj'
  refine ⟨by simpa using hnone, ?_⟩
  split at hj'
  · split at hj'
    · cases hj'
    · obtain ⟨_, _, hj'⟩ := Transactions.bind_eq_ok.mp hj'
      injection hj'
  · injection hj'

/-- A result is written once, whatever it says. -/
theorem wp_writeResult {I : DeployRoot → Prop} {audit : Bool}
    (hI : ∀ root j, I root → root.deployments.lookup id = some j → j.result = none →
      I (withResult root id j ⟨id, status, audit⟩))
    (hs : I root) :
    (writeResult id status audit).wp A
      ⟨fun _ root => I root ∧ HasResult id status root, fun _ => I, I⟩ root := by
  obtain ⟨f, hwrite, hf⟩ := writeResult_eq id status audit
  have heffect : ∀ root root', I root → root.modifyDeployment id f = .ok root' →
      I root' ∧ HasResult id status root' := by
    intro root root' hs hroot
    obtain ⟨j, j', hlookup, hj', rfl⟩ := modifyDeployment_eq_ok.mp hroot
    obtain ⟨hresult, rfl⟩ := hf j j' hj'
    exact ⟨hI root j hs hlookup hresult, _, _, AList.lookup_insert _, rfl, rfl⟩
  rw [hwrite]
  refine wp_bind.mpr (wp_require (fun hterminal => ?_) fun _ => hs)
  refine wp_update.mpr ⟨fun _ t ht => heffect root t hs ht, fun _ _ _ => hs, ?_, ?_⟩
  · intro e effect _
    exact interrupted_of_imp hs fun t ht => (heffect root t hs ht).1
  · intro effect _
    exact interrupted_of_imp hs fun t ht => (heffect root t hs ht).1

/-- `current.json` names the target, and the journal is about to say so, or says so. -/
def Publishing (id rev : String) (root : DeployRoot) : Prop :=
  Names id rev root ∧ (Pending id .stabilizing root ∨ Committed id root)

/-- What is left when the body of a rollout raises. -/
def Raised (c₀ : Option Text) (id rev : String) (root : DeployRoot) : Prop :=
  Unpublished c₀ id root ∨ Names id rev root ∧ Committed id root

/-- How the body of a rollout ends. -/
def bodyPost (c₀ : Option Text) (id rev : String) : Post DeployRoot ReleaseError RolloutResult where
  returned r root := Names id rev root ∧ Committed id root ∧ HasResult id .committed root ∧
    r = ⟨true, false, some id, some .committed⟩
  raised _ := Raised c₀ id rev
  stopped root := Unpublished c₀ id root ∨ Publishing id rev root

theorem committed_withEvent (hnames : Names id rev root)
    (hresult : j.result = none) :
    Names id rev (withEvent root id j .committed) ∧
      Committed id (withEvent root id j .committed) :=
  ⟨hnames, _, AList.lookup_insert _, rfl, fun r hr => by simp [hresult] at hr⟩

/-- Once `current.json` names the target, the event and the result follow. -/
theorem wp_recordCommit (hnames : Names id rev root) (hpending : Pending id .stabilizing root) :
    (do
      appendEvent id .committed
      writeResult id .committed false
      pure ⟨true, false, some id, some .committed⟩ : ReleaseM RolloutResult).wp PublishesSafely
      (bodyPost c₀ id rev) root := by
  obtain ⟨j, hj, hresult, hlatest⟩ := hpending
  have hlegal : legalNext legalTransitions .planned j.events .committed = true := by
    rw [legalNext, hlatest]
    rfl
  have hcommitted := committed_withEvent hnames hresult
  refine wp_bind.mpr (wp_appendEventBy hj hlegal ?_ (fun e effect hA => ?_) fun effect => ?_)
  · refine wp_bind.mpr (wp_mono (wp_writeResult
      (I := fun root => Names id rev root ∧ Committed id root) (fun s k hs hk _ => ?_) hcommitted)
      (fun _ s hs => wp_pure.mpr ⟨hs.1.1, hs.1.2, hs.2, rfl⟩) (fun _ s hs => .inr hs)
      fun s hs => .inr ⟨hs.1, .inr hs.2⟩)
    obtain ⟨hnamed, l, hl, hevents, _⟩ := hs
    obtain rfl : l = k := by rw [hl] at hk; injection hk
    refine ⟨hnamed, _, AList.lookup_insert _, hevents, fun r hr => ?_⟩
    obtain rfl : ⟨id, .committed, false⟩ = r := by simpa using hr
    rfl
  · cases effect with
    | true => exact .inr hcommitted
    | false => exact hA.elim
  · cases effect with
    | true => exact .inr ⟨hcommitted.1, .inr hcommitted.2⟩
    | false => exact .inr ⟨hnames, .inl ⟨j, hj, hresult, hlatest⟩⟩

theorem application_of_buildCommitted {application : ApplicationState} {database : DatabaseState}
    {now : String} {state : CurrentStateV2}
    (h : buildCommittedCurrentState application database now = .ok state) :
    state.application = application := by
  simp only [buildCommittedCurrentState, Transactions.bind_eq_ok, pure, Except.pure,
    Except.ok.injEq] at h
  obtain ⟨_, _, _, _, rfl⟩ := h
  rfl

/-- What is written names the application it was built for. -/
theorem wp_writeCommitted {application : ApplicationState} {database : DatabaseState}
    {now : String} {state : CurrentStateV2}
    (hstate : buildCommittedCurrentState application database now = .ok state)
    (hrev : IsRevision application.revision)
    (hret : ∀ current, Names application.deploymentId application.revision
      { root with current } → Q.returned () { root with current })
    (hraise : ∀ e, Q.raised e root)
    (hraised : ∀ e current, A .writeCurrentState root (.raised e true) →
      Names application.deploymentId application.revision { root with current } →
      Q.raised e { root with current })
    (hstop : Q.stopped root)
    (hstopped : ∀ current, Names application.deploymentId application.revision
      { root with current } → Q.stopped { root with current }) :
    (writeCurrentState state).wp A Q root := by
  refine wp_bind.mpr (wp_ofExcept (fun parsed hparsed => ?_) fun e _ => hraise e)
  have happ := application_of_buildCommitted hstate
  have hnames : Names application.deploymentId application.revision
      { root with current := some ⟨.indented, .obj state.toDict⟩ } := by
    have hnamed : Names state.application.deploymentId state.application.revision
        { root with current := some ⟨.indented, .obj state.toDict⟩ } :=
      names_of_current (by rw [happ]; exact hrev) hparsed rfl
    rwa [happ] at hnamed
  refine wp_update.mpr ⟨fun _ t ht => ?_, fun _ e he => ?_, fun e effect hA => ?_,
    fun effect _ => ?_⟩
  · cases ht
    exact hret _ hnames
  · cases he
  · cases effect with
    | true => exact hraised e _ hA hnames
    | false => exact hraise e
  · cases effect with
    | true => exact hstopped _ hnames
    | false => exact hstop

theorem wp_commitTarget {inp : RolloutInput} {current : Option ResolvedCurrentState}
    {dbHeads targetHeads : Heads} (hrev : IsRevision rev) (hcurrent : root.current = c₀)
    (hpending : Pending inp.deploymentId.val .stabilizing root) :
    (commitTarget releases inp rev current dbHeads targetHeads).wp PublishesSafely
      (bodyPost c₀ inp.deploymentId.val rev) root := by
  have hunpublished := unpublished_of_pending hcurrent hpending
  refine wp_bind.mpr (wp_ofExcept (fun database hdatabase => ?_) fun _ _ => .inl hunpublished)
  refine wp_bind.mpr (wp_ofExcept (fun state hstate => ?_) fun _ _ => .inl hunpublished)
  refine wp_bind.mpr (wp_writeCommitted hstate hrev (fun _ hnames => ?_)
    (fun _ => .inl hunpublished) (fun _ _ hA => hA.elim) (.inl hunpublished) fun _ hnames => ?_)
  · exact wp_recordCommit hnames hpending
  · exact .inr ⟨hnames, .inl hpending⟩

/-! ## The handlers -/

/-- `current.json` as it was, and no result that says committed. -/
def NotCommitted (c₀ : Option Text) (id : String) : DeployRoot → Prop :=
  Guarded c₀ id fun j => ∀ r, j.result = some r → r.status ≠ .committed

/-- What every rollout leaves behind. -/
def Settled (c₀ : Option Text) (id rev : String) (root : DeployRoot) : Prop :=
  NotCommitted c₀ id root ∨ Publishing id rev root

/-- The status that a rollout returns for a deployment is its result on disk. -/
def Honest (r : RolloutResult) (root : DeployRoot) : Prop :=
  ∀ status ∈ [Status.committed, .rolledBack, .failed], r.status = some status →
    ∃ id, r.deploymentId = some id ∧ HasResult id status root

theorem honest_ended (hstatus : status ∉ [Status.committed, .rolledBack, .failed]) :
    Honest (.ended id (some status)) root := by
  intro st hst heq
  obtain rfl : status = st := by simpa [RolloutResult.ended] using heq
  exact absurd hst hstatus

theorem honest_of_none {r : RolloutResult} (hr : r.status = none) : Honest r root := by
  intro st _ heq
  simp [hr] at heq

theorem honest_of_hasResult {r : RolloutResult} (hid : r.deploymentId = some id)
    (hr : r.status = some status) (h : HasResult id status root) : Honest r root := by
  intro st _ heq
  obtain rfl : status = st := by simpa [hr] using heq
  exact ⟨id, hid, h⟩

/-- How the transaction of a rollout ends. -/
def endPost (c₀ : Option Text) (id rev : String) : Post DeployRoot ReleaseError RolloutResult where
  returned r root := Settled c₀ id rev root ∧ Honest r root
  raised _ := Settled c₀ id rev
  stopped := Settled c₀ id rev

theorem notCommitted_of_unpublished (h : Unpublished c₀ id root) : NotCommitted c₀ id root :=
  ⟨h.1, fun j hj r hr => by simp [h.2 j hj] at hr⟩

theorem wp_writeResult_notCommitted {audit : Bool} (hstatus : status ≠ .committed)
    (hs : NotCommitted c₀ id root) :
    (writeResult id status audit).wp A ⟨fun _ root => NotCommitted c₀ id root ∧
      HasResult id status root, fun _ => NotCommitted c₀ id, NotCommitted c₀ id⟩ root := by
  refine wp_writeResult (fun s j hs hj _ => ⟨hs.1, fun k hk r hr => ?_⟩) hs
  rw [withResult, AList.lookup_insert, Option.some.injEq] at hk
  subst hk
  obtain rfl : ⟨id, status, audit⟩ = r := by simpa using hr
  exact hstatus

/-- Nothing follows the committed event. -/
theorem legalNext_committed {legal : Status → List Status} (hlegal : legal .committed = [])
    (h : Committed id root) (j : Deployment) (hj : root.deployments.lookup id = some j) :
    legalNext legal .planned j.events status = false := by
  obtain ⟨k, hk, hevents, _⟩ := h
  obtain rfl : k = j := by rw [hk] at hj; injection hj
  simp [legalNext, hevents, hlegal]

theorem wp_performRollback {prev : String} (hs : Raised c₀ id rev root) :
    (performRollback releases id prev).wp A (endPost c₀ id rev) root := by
  refine wp_bind.mpr ?_
  cases hs with
  | inr hs =>
    have hsettled : Settled c₀ id rev root := .inr ⟨hs.1, .inr hs.2⟩
    exact wp_appendEventBy_of_illegal (legalNext_committed rfl hs.2) (fun _ => hsettled) hsettled
  | inl hs =>
    have hI : Filed (NotCommitted c₀ id) := filed_guarded
    refine (preserves_appendEventBy stable_notCommitted).wp (notCommitted_of_unpublished hs)
      (fun _ s hs => ?_) (fun _ _ h => .inl h) fun _ h => .inl h
    refine wp_tryCatch.mpr (wp_bind.mpr ?_)
    -- whatever fails from here on is noted as a failed rollback
    have hhandler : ∀ (_ : ReleaseError) s, NotCommitted c₀ id s →
        ((do
          Prog.tryCatch
            (do
              appendEvent id .rollbackFailed
              writeResult id .rollbackFailed false)
            fun _ => pure ()
          pure (.ended id (some .rollbackFailed))) : ReleaseM RolloutResult).wp A
          (endPost c₀ id rev) s := by
      intro _ s hs
      refine wp_bind.mpr (wp_tryCatch.mpr (wp_bind.mpr ?_))
      have hended : ∀ s, NotCommitted c₀ id s →
          (pure (.ended id (some .rollbackFailed)) : ReleaseM RolloutResult).wp A
            (endPost c₀ id rev) s :=
        fun s hs => wp_pure.mpr ⟨.inl hs, honest_ended (by simp)⟩
      refine (preserves_appendEventBy stable_notCommitted).wp hs (fun _ s hs => ?_)
        (fun _ s hs => wp_pure.mpr (hended s hs)) fun _ h => .inl h
      exact wp_mono (wp_writeResult_notCommitted (by simp) hs) (fun _ s hs => hended s hs.1)
        (fun _ s hs => wp_pure.mpr (hended s hs)) fun _ h => .inl h
    refine (preserves_restorePrevious hI).wp hs (fun _ s hs => ?_) hhandler fun _ h => .inl h
    refine wp_bind.mpr ((preserves_appendEventBy stable_notCommitted).wp hs (fun _ s hs => ?_)
      hhandler fun _ h => .inl h)
    refine wp_bind.mpr (wp_mono (wp_writeResult_notCommitted (by simp) hs) (fun _ s hs => ?_)
      hhandler fun _ h => .inl h)
    exact wp_pure.mpr ⟨.inl hs.1, honest_of_hasResult rfl rfl hs.2⟩

theorem wp_bootstrapCleanup {plan : PlanDocument} (hs : Raised c₀ id rev root) :
    (bootstrapCleanup id rev plan).wp A (endPost c₀ id rev) root := by
  have hhandler : ∀ e s, Settled c₀ id rev s →
      ((if e = .bootstrapCleanupError then pure (.ended id none) else throw e) :
        ReleaseM RolloutResult).wp A (endPost c₀ id rev) s := by
    intro e s hs
    by_cases he : e = .bootstrapCleanupError
    · rw [if_pos he]
      exact wp_pure.mpr ⟨hs, honest_of_none rfl⟩
    · rw [if_neg he]
      exact wp_throw.mpr hs
  refine wp_tryCatch.mpr (wp_bind.mpr ?_)
  cases hs with
  | inr hs =>
    have hsettled : Settled c₀ id rev root := .inr ⟨hs.1, .inr hs.2⟩
    exact wp_appendEventBy_of_illegal (legalNext_committed rfl hs.2)
      (fun e => hhandler e root hsettled) hsettled
  | inl hs =>
    have hI : Filed (NotCommitted c₀ id) := filed_guarded
    have hraise : ∀ e s, NotCommitted c₀ id s → _ := fun e s hs => hhandler e s (.inl hs)
    refine (preserves_appendEventBy stable_notCommitted).wp (notCommitted_of_unpublished hs)
      (fun _ s hs => ?_) hraise fun _ h => .inl h
    refine wp_bind.mpr (wp_read (fun owned _ => ?_) (fun e => hraise e s hs) (.inl hs))
    refine wp_bind.mpr ((preserves_removeOwned hI).wp hs (fun _ s hs => ?_) hraise
      fun _ h => .inl h)
    refine wp_bind.mpr (wp_require (fun _ => ?_) fun _ => hraise _ s hs)
    refine wp_bind.mpr (wp_bind.mpr (wp_ofExcept (fun _ _ => ?_) fun e _ => hraise e s hs))
    refine wp_bind.mpr ((preserves_appendEventBy stable_notCommitted).wp hs (fun _ s hs => ?_)
      hraise fun _ h => .inl h)
    refine wp_bind.mpr ((preserves_appendEventBy stable_notCommitted).wp hs (fun _ s hs => ?_)
      hraise fun _ h => .inl h)
    refine wp_mono (wp_writeResult_notCommitted (by simp) hs) (fun _ s hs => ?_) hraise
      fun _ h => .inl h
    exact wp_pure.mpr ⟨.inl hs.1, honest_of_hasResult rfl rfl hs.2⟩

theorem wp_afterMutation {inp : RolloutInput} {plan : PlanDocument}
    (hs : Raised c₀ inp.deploymentId.val rev root) :
    (afterMutation releases inp rev plan).wp A (endPost c₀ inp.deploymentId.val rev) root := by
  have hsettled : Settled c₀ inp.deploymentId.val rev root :=
    hs.imp notCommitted_of_unpublished fun h => ⟨h.1, .inr h.2⟩
  unfold afterMutation
  cases inp.bootstrap with
  | true => exact wp_bootstrapCleanup hs
  | false =>
    simp only [Bool.false_eq_true, if_false]
    split
    · exact wp_performRollback hs
    · exact wp_throw.mpr hsettled

theorem wp_beforeMutation (hs : Unpublished c₀ id root) :
    (beforeMutation id).wp A (endPost c₀ id rev) root := by
  refine wp_bind.mpr ((preserves_appendEventBy stable_notCommitted).wp
    (notCommitted_of_unpublished hs) (fun _ s hs => ?_) (fun _ _ h => .inl h) fun _ h => .inl h)
  refine wp_bind.mpr (wp_mono (wp_writeResult_notCommitted (by simp) hs) (fun _ s hs => ?_)
    (fun _ _ h => .inl h) fun _ h => .inl h)
  exact wp_pure.mpr ⟨.inl hs.1, honest_of_hasResult rfl rfl hs.2⟩

/-! ## The rollout -/

theorem preserves_beginActivation : Preserves (Unpublished c₀ id) (beginActivation releases id rev) :=
  .bind .check fun _ => .bind
    (.when fun _ => .bind (preserves_appendEventBy stable_noResult) fun _ => .check) fun _ =>
    preserves_appendEventBy stable_noResult

theorem wp_rolloutTransaction {inp : RolloutInput} {current : Option ResolvedCurrentState}
    {dbHeads targetHeads : Heads} (hrev : IsRevision rev)
    (hs : Unpublished c₀ inp.deploymentId.val root) :
    (rolloutTransaction releases inp rev current dbHeads targetHeads).wp PublishesSafely
      (endPost c₀ inp.deploymentId.val rev) root := by
  have hsettled : ∀ s, Unpublished c₀ inp.deploymentId.val s →
      Settled c₀ inp.deploymentId.val rev s := fun s hs => .inl (notCommitted_of_unpublished hs)
  have hraise : ∀ (_ : ReleaseError) s, Unpublished c₀ inp.deploymentId.val s →
      Settled c₀ inp.deploymentId.val rev s := fun _ => hsettled
  refine wp_bind.mpr ((preserves_writePlan stable_noResult).wp hs (fun _ s hs => ?_) hraise hsettled)
  refine wp_bind.mpr ((preserves_appendEventBy stable_noResult).wp hs (fun _ s hs => ?_) hraise
    hsettled)
  refine wp_bind.mpr (wp_check ?_ (fun e => hraise e s hs) (hsettled s hs))
  refine wp_bind.mpr (wp_attempt.mpr (preserves_beginActivation.wp hs (fun _ s hs => ?_)
    (fun _ s hs => wp_beforeMutation hs) hsettled))
  refine wp_tryCatch.mpr (wp_bind.mpr (wp_mono (wp_activateTarget hs) (fun _ s hs => ?_)
    (fun _ s hs => wp_afterMutation (.inl hs)) hsettled))
  refine wp_mono (wp_commitTarget hrev hs.1 hs.2) (fun r s hs => ?_)
    (fun _ s hs => wp_afterMutation hs) fun s hs => ?_
  · obtain ⟨hnames, hcommitted, hresult, rfl⟩ := hs
    exact ⟨.inr ⟨hnames, .inr hcommitted⟩, honest_of_hasResult rfl rfl hresult⟩
  · exact hs.imp notCommitted_of_unpublished fun h => h

/-- The deployment and the revision that a parsed state names. -/
def ParsedCurrentState.named : ParsedCurrentState → String × String
  | .v1 state => (state.deploymentId, state.revision)
  | .v2 state => (state.application.deploymentId, state.application.revision)

theorem resolve_named {parsed : ParsedCurrentState} :
    ((resolve releases parsed).deploymentId, (resolve releases parsed).revision) =
      parsed.named := by
  cases parsed <;> rfl

theorem isRevision_of_parseCurrent {parsed : ParsedCurrentState}
    (h : parseCurrent root = .ok (some parsed)) : IsRevision parsed.named.2 := by
  have hdocument : ∃ document, parseCurrentStateDocument document = .ok parsed := by
    simp only [parseCurrent] at h
    split at h
    · cases h
    · next text _ =>
      cases hparsed : parseCurrentStateDocument text.document with
      | error e => simp [hparsed, Except.map] at h
      | ok p => exact ⟨text.document, by simpa [hparsed, Except.map] using h⟩
  obtain ⟨document, hparsed⟩ := hdocument
  unfold parseCurrentStateDocument at hparsed
  split at hparsed
  · next raw =>
    split at hparsed
    · cases hstate : parseLegacyCurrentStateV1 raw with
      | error e => simp [hstate, Except.map] at hparsed
      | ok state =>
        obtain rfl : .v1 state = parsed := by simpa [hstate, Except.map] using hparsed
        obtain ⟨_, _, hstate⟩ := Transactions.bind_eq_ok.mp hstate
        obtain ⟨revision, hrevision, hstate⟩ := Transactions.bind_eq_ok.mp hstate
        obtain ⟨_, _, hstate⟩ := Transactions.bind_eq_ok.mp hstate
        split at hstate
        · simp only [Transactions.bind_eq_ok, pure, Except.pure, Except.ok.injEq] at hstate
          obtain ⟨_, _, _, _, _, _, rfl⟩ := hstate
          exact parseSha_eq_ok hrevision
        · cases hstate
    · cases hstate : parseCurrentStateV2 raw with
      | error e => simp [hstate, Except.map] at hparsed
      | ok state =>
        obtain rfl : .v2 state = parsed := by simpa [hstate, Except.map] using hparsed
        exact (wellFormed_of_parseCurrentStateV2 hstate).application.revision
    · cases hparsed
  · cases hparsed

/-- The plan of a rollout to a revision that was not the current one. -/
structure PlanFor (id rev : String) (plan : PlanDocument) : Prop where
  deployment : plan.deploymentId = id
  target : plan.targetRevision = rev
  revision : IsRevision rev
  previous : ∀ prev ∈ plan.previousRevision, IsRevision prev ∧ prev ≠ rev

/-- The journal holds at most its own plan, and every other deployment is resolved. -/
def Alone (id rev : String) (root : DeployRoot) : Prop :=
  (∀ j plan, root.deployments.lookup id = some j → j.plan = some plan → PlanFor id rev plan) ∧
    ∀ other j, other ≠ id → root.deployments.lookup other = some j →
      deploymentBlocksRollout j = false

theorem alone_insert (hs : Alone id rev root)
    (hj : ∀ plan, j.plan = some plan → PlanFor id rev plan) :
    Alone id rev { root with deployments := root.deployments.insert id j } := by
  refine ⟨fun k plan hk hplan => ?_, fun other k hother hk => ?_⟩
  · rw [AList.lookup_insert, Option.some.injEq] at hk
    exact hj plan (hk ▸ hplan)
  · rw [AList.lookup_insert_ne hother] at hk
    exact hs.2 other k hother hk

theorem logged_alone : Logged id (Alone id rev) where
  filed := fun _ _ h => h
  entry := fun _ j _ hs hlookup hplan =>
    alone_insert hs fun plan hj => hs.1 j plan hlookup (hplan ▸ hj)

theorem planned_alone {plan : PlanDocument} (hplan : PlanFor id rev plan) :
    Planned id plan (Alone id rev) where
  logged := logged_alone
  create := fun _ hs _ => alone_insert hs fun plan h => by simp [Deployment.empty] at h
  plan := fun _ _ hs _ => alone_insert hs fun plan h => by
    obtain rfl : _ = plan := by simpa using h
    exact hplan

theorem placed_alone : Placed (Alone id rev) := fun _ _ h => h

/-- Before the rollout wrote anything, or after. -/
def Recorded (c₀ : Option Text) (inp : RolloutInput) (root : DeployRoot) : Prop :=
  root.deployments.lookup inp.deploymentId.val = none ∨
    ∃ rev, validateFullSha inp.expectedRevision = .ok rev ∧
      Settled c₀ inp.deploymentId.val rev root ∧ Alone inp.deploymentId.val rev root

/-- A revision that is already active was committed by the deployment that is on record. -/
def ActiveCommitted (rev : String) (root : DeployRoot) : Prop :=
  ∀ parsed, parseCurrent root = .ok (some parsed) → parsed.named.2 = rev →
    HasResult parsed.named.1 .committed root

/-- How a rollout ends. -/
def rolloutPost (c₀ : Option Text) (inp : RolloutInput) :
    Post DeployRoot ReleaseError RolloutResult where
  returned r root := Recorded c₀ inp root ∧ Honest r root
  raised _ := Recorded c₀ inp
  stopped := Recorded c₀ inp

theorem caught_of_recorded {inp : RolloutInput} {r : RolloutResult} (hr : r.status = none)
    (hs : Recorded c₀ inp root) (e : ReleaseError) :
    if rolloutCatches e then (rolloutPost c₀ inp).returned r root
    else (rolloutPost c₀ inp).raised e root := by
  by_cases hcaught : rolloutCatches e = true
  · rw [if_pos hcaught]
    exact ⟨hs, honest_of_none hr⟩
  · rw [if_neg hcaught]
    exact hs

theorem wp_requireResolved {find : DeployRoot → List String} {e : ReleaseError}
    (hret : find root = [] → Q.returned () root) (hraise : ∀ e, Q.raised e root)
    (hstop : Q.stopped root) : (requireResolved find e).wp A Q root := by
  refine wp_bind.mpr (wp_read (fun found hfound => ?_) hraise hstop)
  obtain rfl : find root = found := by simpa using hfound
  exact wp_require hret fun _ => hraise e

theorem wp_verifyAlreadyActive {current : ResolvedCurrentState} {Q : Post DeployRoot ReleaseError
    RolloutResult} (hret : Q.returned ⟨true, true, some current.deploymentId, some .committed⟩ root)
    (hraise : ∀ e, Q.raised e root) (hstop : Q.stopped root) :
    (verifyAlreadyActive releases rev current).wp A Q root := by
  refine wp_bind.mpr (wp_check ?_ hraise hstop)
  refine wp_bind.mpr (wp_require (fun _ => ?_) fun _ => hraise _)
  refine wp_bind.mpr (wp_check ?_ hraise hstop)
  refine wp_bind.mpr (wp_read (fun _ _ => ?_) hraise hstop)
  refine wp_bind.mpr (wp_require (fun _ => ?_) fun _ => hraise _)
  refine wp_bind.mpr (wp_read (fun _ _ => ?_) hraise hstop)
  refine wp_bind.mpr (wp_require (fun _ => ?_) fun _ => hraise _)
  refine wp_bind.mpr (wp_bind.mpr (wp_ofExcept (fun _ _ => wp_require (fun _ => ?_)
    fun _ => hraise _) fun _ _ => hraise _))
  exact wp_bind.mpr (wp_check (wp_bind.mpr (wp_check (wp_pure.mpr hret) hraise hstop)) hraise hstop)

theorem planFor_rolloutPlan {inp : RolloutInput} {parsed : Option ParsedCurrentState}
    {dbHeads : Heads} (hrev : IsRevision rev) (hparsed : parseCurrent root = .ok parsed)
    (hinactive : (parsed.map (resolve releases)).filter (·.revision = rev) = none) :
    PlanFor inp.deploymentId.val rev
      (rolloutPlan releases inp rev (parsed.map (resolve releases)) dbHeads) := by
  refine ⟨rfl, rfl, hrev, fun prev hprev => ?_⟩
  cases parsed with
  | none => simp [rolloutPlan] at hprev
  | some parsed =>
    have hrevision : (resolve releases parsed).revision = parsed.named.2 :=
      congrArg Prod.snd resolve_named
    obtain rfl : parsed.named.2 = prev := by simpa [rolloutPlan, hrevision] using hprev
    exact ⟨isRevision_of_parseCurrent hparsed, by simpa [hrevision] using hinactive⟩

theorem preserves_rolloutHeadGates {I : DeployRoot → Prop} {inp : RolloutInput}
    {current : Option ResolvedCurrentState} {dbHeads targetHeads : Heads} :
    Preserves I (rolloutHeadGates inp rev current dbHeads targetHeads) := by
  unfold rolloutHeadGates
  split
  · exact .bind .require fun _ => preserves_compatible
  · exact .require

theorem preserves_bootstrapGates {I : DeployRoot → Prop} {current : Option ResolvedCurrentState} :
    Preserves I (bootstrapGates current) :=
  .bind .require fun _ => .bind .read fun _ => .bind .require fun _ => .bind .read fun _ => .require

theorem wp_rolloutTarget {inp : RolloutInput} {parsed : Option ParsedCurrentState}
    (hexpected : validateFullSha inp.expectedRevision = .ok rev)
    (hfresh : root.deployments.lookup inp.deploymentId.val = none)
    (hresolved : root.unresolvedDeployments = []) (hparsed : parseCurrent root = .ok parsed)
    (hinactive : (parsed.map (resolve releases)).filter (·.revision = rev) = none) :
    (rolloutTarget releases inp rev (parsed.map (resolve releases))).wp PublishesSafely
      (rolloutPost root.current inp) root := by
  have hrecorded : Recorded root.current inp root := .inl hfresh
  have hraise : ∀ _ : ReleaseError, Recorded root.current inp root := fun _ => hrecorded
  -- up to the transaction nothing is written
  have hsame : ∀ {α : Type} {p : ReleaseM α} {Q : Post DeployRoot ReleaseError α},
      Preserves (· = root) p → (∀ a, Q.returned a root) → (∀ e, Q.raised e root) →
      Q.stopped root → p.wp PublishesSafely Q root := fun hp hret hraise hstop =>
    hp.wp rfl (fun a s hs => hs ▸ hret a) (fun e s hs => hs ▸ hraise e) fun s hs => hs ▸ hstop
  refine wp_bind.mpr (wp_check ?_ hraise hrecorded)
  refine wp_bind.mpr (wp_check ?_ hraise hrecorded)
  refine wp_bind.mpr (wp_check ?_ hraise hrecorded)
  refine wp_bind.mpr (hsame (.when fun _ => preserves_bootstrapGates) (fun _ => ?_) hraise
    hrecorded)
  refine wp_bind.mpr (wp_read (fun targetHeads _ => ?_) hraise hrecorded)
  refine wp_bind.mpr (wp_read (fun dbHeads _ => ?_) hraise hrecorded)
  refine wp_bind.mpr (hsame preserves_rolloutHeadGates (fun _ => ?_) hraise hrecorded)
  refine wp_bind.mpr (hsame (.when fun _ => .bind .check fun _ => .check)
    (fun _ => wp_catching.mpr ?_) hraise hrecorded)
  have hrev := isRevision_of_validateFullSha hexpected
  have halone : Alone inp.deploymentId.val rev root := by
    refine ⟨fun j plan hj => by simp [hfresh] at hj, fun other j _ hj => ?_⟩
    exact findUnresolved_eq_nil.mp hresolved other j hj
  have hunpublished : Unpublished root.current inp.deploymentId.val root :=
    ⟨rfl, fun j hj => by simp [hfresh] at hj⟩
  have hplan := @planFor_rolloutPlan releases root rev inp parsed dbHeads hrev hparsed hinactive
  have hkept := (planned_alone hplan).rolloutTransaction
    (@Placed.commitTarget releases rev _ inp (parsed.map (resolve releases)) dbHeads targetHeads
      placed_alone logged_alone)
  refine wp_mono (wp_and (wp_rolloutTransaction hrev hunpublished) (hkept.holds halone)) ?_ ?_ ?_
  · exact fun r s hs => ⟨.inr ⟨rev, hexpected, hs.1.1, hs.2⟩, hs.1.2⟩
  · exact fun e s hs => caught_of_recorded rfl (.inr ⟨rev, hexpected, hs⟩) e
  · exact fun s hs => .inr ⟨rev, hexpected, hs⟩

theorem wp_rolloutLocked {inp : RolloutInput}
    (hexpected : validateFullSha inp.expectedRevision = .ok rev)
    (hfresh : root.deployments.lookup inp.deploymentId.val = none)
    (hactive : ActiveCommitted rev root) :
    (rolloutLocked releases inp rev).wp PublishesSafely
      (rolloutPost root.current inp) root := by
  have hrecorded : Recorded root.current inp root := .inl hfresh
  have hraise : ∀ _ : ReleaseError, Recorded root.current inp root := fun _ => hrecorded
  refine wp_bind.mpr (wp_requireResolved (fun hresolved => ?_) hraise hrecorded)
  refine wp_bind.mpr (wp_requireResolved (fun _ => ?_) hraise hrecorded)
  refine wp_bind.mpr (wp_requireResolved (fun _ => ?_) hraise hrecorded)
  refine wp_bind.mpr (wp_loadAndResolve (fun parsed hparsed => ?_) hraise hrecorded)
  cases hfilter : (parsed.map (resolve releases)).filter (·.revision = rev) with
  | none =>
    simp only [hfilter]
    exact wp_rolloutTarget hexpected hfresh hresolved hparsed hfilter
  | some active =>
    simp only [hfilter]
    obtain ⟨hmem, hrevision⟩ := Option.filter_eq_some_iff.mp hfilter
    obtain ⟨p, rfl, rfl⟩ := Option.map_eq_some_iff.mp hmem
    have hnamed := @resolve_named releases p
    have hcommitted := hactive p hparsed (by rw [← hnamed]; simpa using hrevision)
    have hhonest : Honest ⟨true, true, some (resolve releases p).deploymentId, some .committed⟩
        root := honest_of_hasResult (by rw [← hnamed]) rfl hcommitted
    exact wp_verifyAlreadyActive ⟨hrecorded, hhonest⟩ hraise hrecorded

theorem wp_rolloutRelease {inp : RolloutInput}
    (hfresh : root.deployments.lookup inp.deploymentId.val = none)
    (hactive : ∀ rev, validateFullSha inp.expectedRevision = .ok rev → ActiveCommitted rev root) :
    (rolloutRelease releases inp).wp PublishesSafely
      (rolloutPost root.current inp) root := by
  have hrecorded : Recorded root.current inp root := .inl hfresh
  have hraise := @caught_of_recorded root root.current inp
    ⟨false, false, none, none⟩ rfl hrecorded
  refine wp_catching.mpr (wp_bind.mpr (wp_check ?_ hraise hrecorded))
  refine wp_bind.mpr (wp_ofExcept (fun rev hrev => ?_) fun e _ => hraise e)
  refine wp_bind.mpr (wp_check ?_ hraise hrecorded)
  refine wp_bind.mpr (wp_check ?_ hraise hrecorded)
  refine wp_bind.mpr (wp_loadAndResolve (fun parsed _ => ?_) hraise hrecorded)
  refine wp_bind.mpr (wp_require (fun _ => ?_) fun _ => hraise .rolloutError)
  have hwhen : Preserves (· = root)
      (Prog.when (parsed.map (resolve releases)).isSome (check Op.preparedRelease) :
        ReleaseM Unit) :=
    .when fun _ => .check
  refine wp_bind.mpr (hwhen.wp rfl (fun _ s hs => ?_) (fun e s hs => hs ▸ hraise e)
    fun s hs => hs ▸ hrecorded)
  subst hs
  refine wp_bind.mpr (wp_check ?_ hraise hrecorded)
  exact wp_mono (wp_rolloutLocked hrev hfresh (hactive rev hrev))
    (fun _ _ h => h) (fun e _ hs => caught_of_recorded rfl hs e) fun _ h => h

end FetchNow.Release
