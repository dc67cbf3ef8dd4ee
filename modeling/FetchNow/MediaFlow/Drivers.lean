import FetchNow.MediaFlow.Steps
import Mathlib.Data.List.Pairwise
import Mathlib.Data.List.Perm.Basic

/-!
# Drivers of an action

An action is carried on by its drivers: the awaits whose answers lead it from phase to phase. At
most one driver of the current generation is live, that is, not aborted, and the phase says which
kind it is. Every await of the current generation that is about a download is about the same one.
-/
namespace FetchNow.MediaFlow

namespace Await

/-- The generation that the code after it checks. -/
def generation : Await → Nat
  | resumeRead generation _ _ _ | submitCreate generation _ _ | resumeDownload generation _ _ _
  | enqueueQuota generation _ _ | enqueueCreate generation _ _ _ _ | enqueueLapsed generation _
  | upgrade generation _ _ | grant generation _ _ _ _ | cancel generation _ _ _ => generation
  | inspectionPoll _ poll | downloadPoll _ poll => poll.generation
  | account _ => 0

/-- It carries an action on. -/
def drives : Await → Bool
  | resumeRead .. | submitCreate .. | inspectionPoll .. | resumeDownload .. | downloadPoll ..
  | enqueueQuota .. | enqueueCreate .. | enqueueLapsed .. => true
  | upgrade .. | grant .. | cancel .. | account .. => false

/-- A restored download depends on it. -/
def resumes : Await → Bool
  | resumeDownload .. | downloadPoll .resumed _ => true
  | _ => false

/-- The download job it is about, once the flow has one. -/
def job : Await → Option Uuid
  | downloadPoll _ poll => some poll.jobId
  | upgrade _ jobId _ | grant _ _ jobId _ _ | cancel _ jobId _ _ => some jobId
  | _ => none

/-- The number of a request for a grant. -/
def grantNumber : Await → Option Nat
  | grant _ grantGeneration _ _ _ => some grantGeneration
  | _ => none

/-- A refresh that was aborted settles without an error. -/
def honest : Await → Bool
  | enqueueQuota _ _ (some (some .abort)) => false
  | _ => true

/-- Its call was made with an aborted signal. -/
def isAborted (aborted : List Nat) (t : Await) : Bool := t.signal.any (· ∈ aborted)

def current (generation : Nat) (t : Await) : Bool :=
  t.drives && decide (t.generation = generation)

/-- A driver of the generation whose call may still be answered. -/
def live (generation : Nat) (aborted : List Nat) (t : Await) : Bool :=
  t.current generation && !t.isAborted aborted

/-- The driver is the one of the phase. After a lapsed Premium the flow may have been cancelled. -/
def Fits (phase : FlowPhase) : Await → Prop
  | resumeRead .. | submitCreate .. => phase = .submitting
  | inspectionPoll .. => phase = .inspecting
  | resumeDownload .. => phase = .inspected
  | enqueueQuota .. | enqueueCreate .. => phase = .enqueueingDownload
  | enqueueLapsed .. => phase = .enqueueingDownload ∨ phase = .downloading ∨ phase = .cancelled
  | downloadPoll .. => phase = .downloading
  | _ => True

variable {t : Await} {generation : Nat} {aborted signals : List Nat}

theorem not_current_of_ne (h : t.generation ≠ generation) : t.current generation = false := by
  simp [current, h]

theorem not_live_of_not_current (h : t.current generation = false) :
    t.live generation aborted = false := by
  simp [live, h]

theorem isAborted_iff : t.isAborted aborted ↔ ∃ s, t.signal = some s ∧ s ∈ aborted := by
  simp [isAborted, Option.any_eq_true]

theorem isAborted_append (h : t.isAborted aborted) : t.isAborted (signals ++ aborted) := by
  cases hs : t.signal with
  | none => simp [isAborted, hs] at h
  | some s =>
    have hmem : s ∈ aborted := by simpa [isAborted, hs] using h
    simp [isAborted, hs, hmem]

theorem live_of_append (h : t.live generation (signals ++ aborted)) : t.live generation aborted := by
  simp only [live, Bool.and_eq_true, Bool.not_eq_true'] at h ⊢
  refine ⟨h.1, ?_⟩
  by_contra haborted
  have hmore : t.isAborted (signals ++ aborted) := isAborted_append (eq_true_of_ne_false haborted)
  simp [h.2] at hmore

end Await

namespace FlowPhase

/-- The phases of an action that has no download job yet. -/
def early : FlowPhase → Bool
  | submitting | inspecting | inspected | enqueueingDownload => true
  | _ => false

/-- The phases of an action under way. -/
def working : FlowPhase → Bool
  | submitting | inspecting | enqueueingDownload | downloading => true
  | _ => false

theorem not_early_of_terminal {phase : FlowPhase} (h : phase.terminal) : phase.early = false := by
  cases phase <;> simp_all [terminal, early]

end FlowPhase

namespace Action

variable {c d : Action} {t : Await} {phase : FlowPhase} {busy : Bool}

/-- No download job, and nothing of the current generation is about one. -/
def Jobless (c : Action) : Prop :=
  c.downloadJob = none ∧ ∀ t ∈ c.tasks, t.generation = c.machine.generation → t.job = none

/-- All that is about a download job is about this one. -/
def About (c : Action) (id : Uuid) : Prop :=
  (∀ t ∈ c.tasks, t.generation = c.machine.generation → ∀ j, t.job = some j → j = id) ∧
    ∀ d, c.downloadJob = some d → d.id = id

structure Sound (c : Action) : Prop where
  bounded : ∀ t ∈ c.tasks, t.generation ≤ c.machine.generation
  freshAborted : ∀ s ∈ c.aborted, s < c.nextSignal
  freshAbort : ∀ s, c.abort = some s → s < c.nextSignal
  own : ∀ t ∈ c.tasks, t.live c.machine.generation c.aborted →
    ∀ s, t.signal = some s → c.abort = some s
  fits : ∀ t ∈ c.tasks, t.live c.machine.generation c.aborted → t.Fits c.machine.phase
  alone : c.tasks.Pairwise fun t u =>
    ¬ (t.live c.machine.generation c.aborted ∧ u.live c.machine.generation c.aborted)
  ready : c.machine.phase = .ready → ∀ t ∈ c.tasks, t.current c.machine.generation = false
  stale : ∀ t ∈ c.tasks, t.resumes → t.generation < c.machine.generation →
    t.isAborted c.aborted ∧ c.downloadJob = none
  early : c.machine.phase.early → c.Jobless
  about : ∃ id, c.About id
  honest : ∀ t ∈ c.tasks, t.honest

/-- No driver of the current generation is left. -/
def Undriven (c : Action) : Prop :=
  ∀ t ∈ c.tasks, t.live c.machine.generation c.aborted = false

theorem Jobless.about (h : c.Jobless) (id : Uuid) : c.About id :=
  ⟨fun t ht hgen j hj => by simp [h.2 t ht hgen] at hj, fun d hd => by simp [h.1] at hd⟩

theorem Undriven.absurd {p : Prop} (h : c.Undriven) (ht : t ∈ c.tasks)
    (hlive : t.live c.machine.generation c.aborted) : p := by
  simp [h t ht] at hlive

/-! ## Updates that keep soundness -/

/-- Dropping awaits. -/
theorem Sound.sublist (h : Sound c) {tasks : List Await} (hsub : tasks.Sublist c.tasks) :
    Sound { c with tasks } where
  bounded t ht := h.bounded t (hsub.subset ht)
  freshAborted := h.freshAborted
  freshAbort := h.freshAbort
  own t ht := h.own t (hsub.subset ht)
  fits t ht := h.fits t (hsub.subset ht)
  alone := h.alone.sublist hsub
  ready hready t ht := h.ready hready t (hsub.subset ht)
  stale t ht := h.stale t (hsub.subset ht)
  early hearly := ⟨(h.early hearly).1, fun t ht => (h.early hearly).2 t (hsub.subset ht)⟩
  about := by
    obtain ⟨id, hid⟩ := h.about
    exact ⟨id, fun t ht => hid.1 t (hsub.subset ht), hid.2⟩
  honest t ht := h.honest t (hsub.subset ht)

/-- The live driver that finishes leaves none. -/
theorem Sound.undriven_erase (h : Sound c) (ht : t ∈ c.tasks)
    (hlive : t.live c.machine.generation c.aborted) :
    Undriven { c with tasks := c.tasks.erase t } := by
  have hperm : c.tasks.Perm (t :: c.tasks.erase t) := List.perm_cons_erase ht
  have hpair := (hperm.pairwise_iff (fun h hba => h ⟨hba.2, hba.1⟩)).mp h.alone
  intro u hu
  have hnot := List.rel_of_pairwise_cons hpair hu
  by_contra hu'
  exact hnot ⟨hlive, eq_true_of_ne_false hu'⟩

/-- With no driver left, the phase is free but for `ready` and for what the early phases say. -/
theorem Sound.move (h : Sound c) (hidle : c.Undriven) (hready : phase ≠ .ready)
    (hearly : phase.early → c.Jobless) :
    Sound { c with machine := ⟨phase, c.machine.generation, busy⟩ } where
  bounded := h.bounded
  freshAborted := h.freshAborted
  freshAbort := h.freshAbort
  own _ ht hlive := hidle.absurd ht hlive
  fits _ ht hlive := hidle.absurd ht hlive
  alone := h.alone
  ready hphase := absurd hphase hready
  stale := h.stale
  early := hearly
  about := h.about
  honest := h.honest

theorem Sound.moveReady (h : Sound c)
    (hidle : ∀ t ∈ c.tasks, t.current c.machine.generation = false) :
    Sound { c with machine := ⟨.ready, c.machine.generation, busy⟩ } := by
  have hundriven : c.Undriven := fun t ht => Await.not_live_of_not_current (hidle t ht)
  exact
    { bounded := h.bounded
      freshAborted := h.freshAborted
      freshAbort := h.freshAbort
      own := fun _ ht hlive => hundriven.absurd ht hlive
      fits := fun _ ht hlive => hundriven.absurd ht hlive
      alone := h.alone
      ready := fun _ => hidle
      stale := h.stale
      early := fun hearly => by simp [FlowPhase.early] at hearly
      about := h.about
      honest := h.honest }

theorem Sound.setBusy (h : Sound c) :
    Sound { c with machine := ⟨c.machine.phase, c.machine.generation, busy⟩ } where
  bounded := h.bounded
  freshAborted := h.freshAborted
  freshAbort := h.freshAbort
  own := h.own
  fits := h.fits
  alone := h.alone
  ready := h.ready
  stale := h.stale
  early := h.early
  about := h.about
  honest := h.honest

/-- A new generation: what the old one left behind is stale. -/
theorem Sound.renew (h : Sound c) (hphase : phase ≠ .ready)
    (hstale : ∀ t ∈ c.tasks, t.resumes → t.isAborted c.aborted) (hjob : c.downloadJob = none) :
    Sound { c with machine := ⟨phase, c.machine.generation + 1, busy⟩ } := by
  have hold : ∀ t ∈ c.tasks, t.generation ≠ c.machine.generation + 1 := fun t ht => by
    have := h.bounded t ht
    omega
  have hlive : ∀ t ∈ c.tasks, ¬ t.live (c.machine.generation + 1) c.aborted := fun t ht hlive => by
    simp [Await.not_live_of_not_current (Await.not_current_of_ne (hold t ht))] at hlive
  exact
    { bounded := fun t ht => Nat.le_succ_of_le (h.bounded t ht)
      freshAborted := h.freshAborted
      freshAbort := h.freshAbort
      own := fun t ht hl => absurd hl (hlive t ht)
      fits := fun t ht hl => absurd hl (hlive t ht)
      alone := List.Pairwise.imp_of_mem (fun ht _ _ hl => hlive _ ht hl.1) h.alone
      ready := fun hready => absurd hready hphase
      stale := fun t ht hresumes _ => ⟨hstale t ht hresumes, hjob⟩
      early := fun _ => ⟨hjob, fun t ht hgen => absurd hgen (hold t ht)⟩
      about := ⟨0, fun t ht hgen => absurd hgen (hold t ht), fun d hd => by simp [hjob] at hd⟩
      honest := h.honest }

/-- The signals of controllers made so far may be aborted. -/
theorem Sound.abort (h : Sound c) {signals : List Nat} (hfresh : ∀ s ∈ signals, s < c.nextSignal) :
    Sound { c with aborted := signals ++ c.aborted } where
  bounded := h.bounded
  freshAborted s hs := by
    rcases List.mem_append.mp hs with hs | hs
    · exact hfresh s hs
    · exact h.freshAborted s hs
  freshAbort := h.freshAbort
  own t ht hl := h.own t ht (Await.live_of_append hl)
  fits t ht hl := h.fits t ht (Await.live_of_append hl)
  alone := h.alone.imp fun hpair hl =>
    hpair ⟨Await.live_of_append hl.1, Await.live_of_append hl.2⟩
  ready := h.ready
  stale t ht hresumes hgen := by
    obtain ⟨haborted, hjob⟩ := h.stale t ht hresumes hgen
    exact ⟨Await.isAborted_append haborted, hjob⟩
  early := h.early
  about := h.about
  honest := h.honest

/-- A download is cancelled and its controller aborted: only the wait for a lapse may go on. -/
theorem Sound.cancel (h : Sound c) (hearly : c.machine.phase.early = false) :
    Sound
      { c with
        machine := ⟨.cancelled, c.machine.generation, busy⟩
        aborted := c.abort.toList ++ c.aborted } := by
  have habort : Sound { c with aborted := c.abort.toList ++ c.aborted } := by
    apply h.abort
    intro s hs
    exact h.freshAbort s (by simpa using hs)
  exact
    { bounded := habort.bounded
      freshAborted := habort.freshAborted
      freshAbort := habort.freshAbort
      own := habort.own
      fits := by
        intro t ht hlive
        have hbefore := Await.live_of_append hlive
        have hfits := h.fits t ht hbefore
        have hsignal : t.signal = none := by
          by_contra hne
          obtain ⟨s, hs⟩ := Option.ne_none_iff_exists'.mp hne
          have hown := h.own t ht hbefore s hs
          have haborted : t.isAborted (c.abort.toList ++ c.aborted) = true :=
            Await.isAborted_iff.mpr ⟨s, hs, by simp [hown]⟩
          simp [Await.live, haborted] at hlive
        cases t with
        | enqueueLapsed => exact .inr (.inr rfl)
        | enqueueQuota =>
          rw [show c.machine.phase = .enqueueingDownload from hfits] at hearly
          cases hearly
        | resumeRead | submitCreate | inspectionPoll | resumeDownload | enqueueCreate
        | downloadPoll => cases hsignal
        | upgrade | grant | cancel | account => trivial
      alone := habort.alone
      ready := fun hready => by cases hready
      stale := habort.stale
      early := fun hearly => by cases hearly
      about := habort.about
      honest := habort.honest }

/-- `this.abort = new AbortController()`, with no driver left. -/
theorem Sound.newAbort (h : Sound c) (hidle : c.Undriven) :
    Sound { c with abort := some c.nextSignal, nextSignal := c.nextSignal + 1 } where
  bounded := h.bounded
  freshAborted s hs := Nat.lt_succ_of_lt (h.freshAborted s hs)
  freshAbort s hs := by
    obtain rfl := Option.some.inj hs
    exact Nat.lt_succ_self _
  own _ ht hlive := hidle.absurd ht hlive
  fits _ ht hlive := hidle.absurd ht hlive
  alone := h.alone
  ready := h.ready
  stale := h.stale
  early := h.early
  about := h.about
  honest := h.honest

theorem Sound.noAbort (h : Sound c) (hidle : c.Undriven) : Sound { c with abort := none } where
  bounded := h.bounded
  freshAborted := h.freshAborted
  freshAbort s hs := by simp at hs
  own _ ht hlive := hidle.absurd ht hlive
  fits _ ht hlive := hidle.absurd ht hlive
  alone := h.alone
  ready := h.ready
  stale := h.stale
  early := h.early
  about := h.about
  honest := h.honest

/-- The download job goes. -/
theorem Sound.noJob (h : Sound c) : Sound { c with downloadJob := none } where
  bounded := h.bounded
  freshAborted := h.freshAborted
  freshAbort := h.freshAbort
  own := h.own
  fits := h.fits
  alone := h.alone
  ready := h.ready
  stale t ht hresumes hgen := ⟨(h.stale t ht hresumes hgen).1, rfl⟩
  early hearly := ⟨rfl, (h.early hearly).2⟩
  about := by
    obtain ⟨id, hid⟩ := h.about
    exact ⟨id, hid.1, by simp⟩
  honest := h.honest

/-- The server's view of the download job comes in, while nothing is aborted. -/
theorem Sound.setJob (h : Sound c) {d : DownloadJob}
    (hquiet : ∀ t ∈ c.tasks, t.isAborted c.aborted = false)
    (hearly : c.machine.phase.early = false) (habout : c.About d.id) :
    Sound { c with downloadJob := some d } where
  bounded := h.bounded
  freshAborted := h.freshAborted
  freshAbort := h.freshAbort
  own := h.own
  fits := h.fits
  alone := h.alone
  ready := h.ready
  stale t ht hresumes hgen := by
    have haborted := (h.stale t ht hresumes hgen).1
    simp [hquiet t ht] at haborted
  early he := by simp [hearly] at he
  about := ⟨d.id, habout.1, fun d' hd' => by rw [Option.some.inj hd']⟩
  honest := h.honest

/-- A driver starts, or goes on, where none is left. -/
theorem Sound.spawn (h : Sound c) (hidle : c.Undriven) (hgen : t.generation = c.machine.generation)
    (hphase : c.machine.phase ≠ .ready) (hfits : t.Fits c.machine.phase)
    (hown : ∀ s, t.signal = some s → c.abort = some s)
    (hjob : ∀ j, t.job = some j → c.machine.phase.early = false ∧ c.About j)
    (hhonest : t.honest) : Sound { c with tasks := t :: c.tasks } where
  bounded := List.forall_mem_cons.mpr ⟨Nat.le_of_eq hgen, h.bounded⟩
  freshAborted := h.freshAborted
  freshAbort := h.freshAbort
  own := List.forall_mem_cons.mpr ⟨fun _ => hown, h.own⟩
  fits := List.forall_mem_cons.mpr ⟨fun _ => hfits, h.fits⟩
  alone := List.pairwise_cons.mpr ⟨fun u hu hl => hidle.absurd hu hl.2, h.alone⟩
  ready hready := absurd hready hphase
  stale := List.forall_mem_cons.mpr ⟨fun _ hlt => absurd hgen (Nat.ne_of_lt hlt), h.stale⟩
  early hearly := by
    refine ⟨(h.early hearly).1, List.forall_mem_cons.mpr ⟨fun _ => ?_, (h.early hearly).2⟩⟩
    cases hj : t.job with
    | none => rfl
    | some j => simp [(hjob j hj).1] at hearly
  about := by
    cases hj : t.job with
    | none =>
      obtain ⟨id, hid⟩ := h.about
      exact ⟨id, List.forall_mem_cons.mpr ⟨fun _ j hj' => by simp [hj] at hj', hid.1⟩, hid.2⟩
    | some j =>
      obtain ⟨-, habout⟩ := hjob j hj
      exact ⟨j, List.forall_mem_cons.mpr ⟨fun _ j' hj' => by simpa [hj, eq_comm] using hj', habout.1⟩,
        habout.2⟩
  honest := List.forall_mem_cons.mpr ⟨hhonest, h.honest⟩

/-- An await that drives nothing, or a poll of an old generation. -/
theorem Sound.spawnOther (h : Sound c) (hgen : t.generation ≤ c.machine.generation)
    (hdrives : t.generation = c.machine.generation → t.drives = false)
    (hresumes : t.resumes = false)
    (hjob : t.generation = c.machine.generation → ∀ j, t.job = some j →
      ∃ d, c.downloadJob = some d ∧ d.id = j) (hhonest : t.honest) :
    Sound { c with tasks := t :: c.tasks } := by
  have hcurrent : t.current c.machine.generation = false := by
    by_cases heq : t.generation = c.machine.generation
    · simp [Await.current, hdrives heq]
    · exact Await.not_current_of_ne heq
  have hlive : ¬ t.live c.machine.generation c.aborted := by
    simp [Await.not_live_of_not_current hcurrent]
  exact
    { bounded := List.forall_mem_cons.mpr ⟨hgen, h.bounded⟩
      freshAborted := h.freshAborted
      freshAbort := h.freshAbort
      own := List.forall_mem_cons.mpr ⟨fun hl => absurd hl hlive, h.own⟩
      fits := List.forall_mem_cons.mpr ⟨fun hl => absurd hl hlive, h.fits⟩
      alone := List.pairwise_cons.mpr ⟨fun u _ hl => hlive hl.1, h.alone⟩
      ready := fun hready => List.forall_mem_cons.mpr ⟨hcurrent, h.ready hready⟩
      stale := List.forall_mem_cons.mpr ⟨fun hr => by simp [hresumes] at hr, h.stale⟩
      early := fun hearly => by
        refine ⟨(h.early hearly).1, List.forall_mem_cons.mpr ⟨fun heq => ?_, (h.early hearly).2⟩⟩
        cases hj : t.job with
        | none => rfl
        | some j =>
          obtain ⟨d, hd, -⟩ := hjob heq j hj
          simp [(h.early hearly).1] at hd
      about := by
        obtain ⟨id, hid⟩ := h.about
        refine ⟨id, List.forall_mem_cons.mpr ⟨fun heq j hj => ?_, hid.1⟩, hid.2⟩
        obtain ⟨d, hd, rfl⟩ := hjob heq j hj
        exact hid.2 d hd
      honest := List.forall_mem_cons.mpr ⟨hhonest, h.honest⟩ }

/-- Settling the waiters of a refresh. -/
theorem Sound.map (h : Sound c) {f : Await → Await} (hgen : ∀ t, (f t).generation = t.generation)
    (hdrives : ∀ t, (f t).drives = t.drives) (hsignal : ∀ t, (f t).signal = t.signal)
    (hresumes : ∀ t, (f t).resumes = t.resumes) (hjob : ∀ t, (f t).job = t.job)
    (hfits : ∀ t, t.Fits c.machine.phase → (f t).Fits c.machine.phase)
    (hhonest : ∀ t, t.honest → (f t).honest) :
    Sound { c with tasks := c.tasks.map f } := by
  have hcurrent : ∀ t generation, (f t).current generation = t.current generation := by
    simp [Await.current, hgen, hdrives]
  have haborted : ∀ t aborted, (f t).isAborted aborted = t.isAborted aborted := by
    simp [Await.isAborted, hsignal]
  have hlive : ∀ t generation aborted, (f t).live generation aborted = t.live generation aborted := by
    simp [Await.live, hcurrent, haborted]
  exact
    { bounded := List.forall_mem_map.mpr fun t ht => by simpa [hgen] using h.bounded t ht
      freshAborted := h.freshAborted
      freshAbort := h.freshAbort
      own := List.forall_mem_map.mpr fun t ht hl => by
        simpa [hsignal] using h.own t ht (by simpa [hlive] using hl)
      fits := List.forall_mem_map.mpr fun t ht hl =>
        hfits t (h.fits t ht (by simpa [hlive] using hl))
      alone := List.pairwise_map.mpr (h.alone.imp fun hpair hl =>
        hpair ⟨by simpa [hlive] using hl.1, by simpa [hlive] using hl.2⟩)
      ready := fun hready => List.forall_mem_map.mpr fun t ht => by
        simpa [hcurrent] using h.ready hready t ht
      stale := List.forall_mem_map.mpr fun t ht hr hg => by
        simpa [haborted] using h.stale t ht (by simpa [hresumes] using hr) (by simpa [hgen] using hg)
      early := fun hearly => ⟨(h.early hearly).1, List.forall_mem_map.mpr fun t ht hg => by
        simpa [hjob] using (h.early hearly).2 t ht (by simpa [hgen] using hg)⟩
      about := by
        obtain ⟨id, hid⟩ := h.about
        exact ⟨id, List.forall_mem_map.mpr fun t ht hg j hj =>
          hid.1 t ht (by simpa [hgen] using hg) j (by simpa [hjob] using hj), hid.2⟩
      honest := List.forall_mem_map.mpr fun t ht => hhonest t (h.honest t ht) }

/-- The action ends in a terminal phase. -/
def Ended (c d : Action) : Prop :=
  ∃ phase : FlowPhase, phase.terminal ∧ d = { c with machine := ⟨phase, c.machine.generation, false⟩ }

theorem Ended.sound (hended : Ended c d) (h : Sound c) (hidle : c.Undriven) : d.Sound := by
  obtain ⟨phase, hterminal, rfl⟩ := hended
  refine h.move hidle ?_ fun hearly => ?_
  · rintro rfl
    simp [FlowPhase.terminal] at hterminal
  · simp [FlowPhase.not_early_of_terminal hterminal] at hearly

/-! ## Progress -/

/-- A driver of the generation is live. -/
def HasDriver (c : Action) : Prop := ∃ t ∈ c.tasks, t.live c.machine.generation c.aborted

/-- The abort controller of the action was aborted: the page was hidden, or the task cancelled. -/
def Hidden (c : Action) : Prop := ∃ s, c.abort = some s ∧ s ∈ c.aborted

/-- What is to carry the action on. A download may have been stranded before. -/
def Carried (stranded : Prop) (c : Action) : Prop :=
  c.HasDriver ∨ c.Hidden ∨ (stranded ∧ c.machine.phase = .downloading)

/-- An action under way is carried on. -/
structure Driven (stranded : Prop) (c : Action) : Prop where
  carried : c.machine.phase.working ∨ c.machine.busy → c.Carried stranded
  phase : c.machine.busy → c.machine.phase.working ∨ c.machine.phase = .inspected

structure Inv (stranded : Prop) (c : Action) : Prop extends Sound c, Driven stranded c

variable {stranded stranded' : Prop}

theorem Carried.mono (h : c.Carried stranded) (himp : stranded → stranded') : c.Carried stranded' := by
  rcases h with hdriver | hhidden | ⟨hs, hphase⟩
  · exact .inl hdriver
  · exact .inr (.inl hhidden)
  · exact .inr (.inr ⟨himp hs, hphase⟩)

theorem Inv.mono (h : c.Inv stranded) (himp : stranded → stranded') : c.Inv stranded' where
  toSound := h.toSound
  carried hwork := (h.carried hwork).mono himp
  phase := h.phase

theorem Driven.idle (hbusy : c.machine.busy = false) (hphase : c.machine.phase.working = false) :
    c.Driven stranded where
  carried h := by simp [hphase, hbusy] at h
  phase h := by simp [hbusy] at h

theorem Driven.downloading (h : c.machine.phase = .downloading) (hs : stranded) :
    c.Driven stranded where
  carried _ := .inr (.inr ⟨hs, h⟩)
  phase _ := .inl (by rw [h]; rfl)

/-- A driver of the generation, if its signal is the current one, drives or was stopped. -/
theorem Driven.spawned (ht : t ∈ c.tasks) (hdrives : t.drives)
    (hgen : t.generation = c.machine.generation) (hown : ∀ s, t.signal = some s → c.abort = some s)
    (hphase : c.machine.phase.working ∨ c.machine.phase = .inspected) : c.Driven stranded := by
  have hdriven : c.Carried stranded := by
    by_cases haborted : t.isAborted c.aborted = true
    · obtain ⟨s, hs, hmem⟩ := Await.isAborted_iff.mp haborted
      exact .inr (.inl ⟨s, hown s hs, hmem⟩)
    · exact .inl ⟨t, ht, by simp [Await.live, Await.current, hdrives, hgen, haborted]⟩
  exact ⟨fun _ => hdriven, fun _ => hphase⟩

/-- With what a dead driver leaves, or what is no driver. -/
theorem Driven.of_live (h : c.Driven stranded) {tasks : List Await}
    (hlive : ∀ t ∈ c.tasks, t.live c.machine.generation c.aborted → t ∈ tasks) :
    Driven stranded { c with tasks } := by
  have hdriven (hd : c.Carried stranded) : Carried stranded { c with tasks } := by
    refine hd.imp_left ?_
    rintro ⟨t, ht, hl⟩
    exact ⟨t, hlive t ht hl, hl⟩
  exact ⟨fun hw => hdriven (h.carried hw), h.phase⟩

theorem Driven.more (h : c.Driven stranded) : Driven stranded { c with tasks := t :: c.tasks } :=
  h.of_live fun _ ht _ => List.mem_cons_of_mem _ ht

theorem Driven.erase (h : c.Driven stranded)
    (hdead : t.live c.machine.generation c.aborted = false) :
    Driven stranded { c with tasks := c.tasks.erase t } := by
  refine h.of_live fun u hu hlive => (List.mem_erase_of_ne ?_).mpr hu
  rintro rfl
  rw [hdead] at hlive
  cases hlive

theorem Driven.setJob (h : c.Driven stranded) {job : Option DownloadJob} :
    Driven stranded { c with downloadJob := job } := ⟨h.carried, h.phase⟩

theorem Driven.free (h : c.Driven stranded) :
    Driven stranded { c with machine := c.machine.endAction } where
  carried hwork := by
    rcases hwork with hwork | hbusy
    · exact h.carried (.inl hwork)
    · cases hbusy
  phase hbusy := by cases hbusy

/-- Aborting the action's own controller hides it. -/
theorem Driven.abort (h : c.Driven stranded) (hsound : c.Sound) :
    Driven stranded { c with aborted := c.abort.toList ++ c.aborted } := by
  have hdriven (hd : c.Carried stranded) :
      Carried stranded { c with aborted := c.abort.toList ++ c.aborted } := by
    rcases hd with ⟨t, ht, hlive⟩ | ⟨s, hs, hmem⟩ | hs
    · by_cases haborted : t.isAborted (c.abort.toList ++ c.aborted) = true
      · obtain ⟨s, hs, hmem⟩ := Await.isAborted_iff.mp haborted
        exact .inr (.inl ⟨s, hsound.own t ht hlive s hs, hmem⟩)
      · refine .inl ⟨t, ht, ?_⟩
        simp only [Await.live, Bool.and_eq_true] at hlive ⊢
        exact ⟨hlive.1, by simpa using haborted⟩
    · exact .inr (.inl ⟨s, hs, List.mem_append_right _ hmem⟩)
    · exact .inr (.inr hs)
  exact ⟨fun hw => hdriven (h.carried hw), h.phase⟩

theorem Driven.map (h : c.Driven stranded) {f : Await → Await}
    (hgen : ∀ t, (f t).generation = t.generation) (hdrives : ∀ t, (f t).drives = t.drives)
    (hsignal : ∀ t, (f t).signal = t.signal) :
    Driven stranded { c with tasks := c.tasks.map f } := by
  have hlive : ∀ t, (f t).live c.machine.generation c.aborted =
      t.live c.machine.generation c.aborted := by
    simp [Await.live, Await.current, Await.isAborted, hgen, hdrives, hsignal]
  have hdriven (hd : c.Carried stranded) : Carried stranded { c with tasks := c.tasks.map f } := by
    refine hd.imp_left ?_
    rintro ⟨t, ht, hl⟩
    exact ⟨f t, List.mem_map_of_mem ht, (hlive t).trans hl⟩
  exact ⟨fun hw => hdriven (h.carried hw), h.phase⟩

theorem Ended.driven (hended : Ended c d) : d.Driven stranded := by
  obtain ⟨phase, hterminal, rfl⟩ := hended
  refine Driven.idle rfl ?_
  cases phase <;> first | rfl | cases hterminal

theorem Ended.inv (hended : Ended c d) (h : Sound c) (hidle : c.Undriven) : d.Inv stranded :=
  { hended.sound h hidle, hended.driven with }

/-- A driver starts, or goes on, where none is left. -/
theorem Inv.spawn (h : Sound c) (hidle : c.Undriven) (hdrives : t.drives) (hhonest : t.honest)
    (hgen : t.generation = c.machine.generation)
    (hphase : c.machine.phase.working ∨ c.machine.phase = .inspected)
    (hfits : t.Fits c.machine.phase) (hown : ∀ s, t.signal = some s → c.abort = some s)
    (hjob : ∀ j, t.job = some j → c.machine.phase.early = false ∧ c.About j) :
    Inv stranded { c with tasks := t :: c.tasks } := by
  have hready : c.machine.phase ≠ .ready := by
    rintro hready
    simp [hready, FlowPhase.working] at hphase
  have hdriven : Driven stranded { c with tasks := t :: c.tasks } :=
    Driven.spawned List.mem_cons_self hdrives hgen hown hphase
  exact { h.spawn hidle hgen hready hfits hown hjob hhonest, hdriven with }

theorem Inv.spawnOther (h : c.Inv stranded) (hgen : t.generation ≤ c.machine.generation)
    (hdrives : t.generation = c.machine.generation → t.drives = false)
    (hresumes : t.resumes = false) (hhonest : t.honest)
    (hjob : t.generation = c.machine.generation → ∀ j, t.job = some j →
      ∃ d, c.downloadJob = some d ∧ d.id = j) :
    Inv stranded { c with tasks := t :: c.tasks } :=
  { h.toSound.spawnOther hgen hdrives hresumes hjob hhonest, h.toDriven.more with }

/-- What is no live driver goes. -/
theorem Inv.erase (h : c.Inv stranded) (hdead : t.live c.machine.generation c.aborted = false) :
    Inv stranded { c with tasks := c.tasks.erase t } :=
  { h.toSound.sublist List.erase_sublist, h.toDriven.erase hdead with }

theorem Inv.setBusyFalse (h : c.Inv stranded) :
    Inv stranded { c with machine := c.machine.endAction } :=
  { h.toSound.setBusy, h.toDriven.free with }

end Action

end FetchNow.MediaFlow
