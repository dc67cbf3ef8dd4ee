import Mathlib.Data.List.Basic

/-!
# Faults

A program is a tree of operations on a durable state. A run of it follows a script of faults: an
operation may raise or the process may stop at it, and in both cases its effect may or may not
have taken place. `wp` is the weakest precondition over every script whose faults are allowed.
-/
namespace Faults

/-- What happens to one operation of a program. -/
inductive Fault (ε : Type)
  | none
  | raised (error : ε) (effect : Bool)
  | stopped (effect : Bool)
  deriving DecidableEq

/-- How a run ends. -/
inductive Exit (ε α : Type)
  | returned (value : α)
  | raised (error : ε)
  | stopped
  deriving DecidableEq

/-- A program that may raise `ε` and acts on the state `σ` by labelled operations. After an
operation it continues with what it read from the state before, or handles what was raised. -/
inductive Prog (L σ ε α : Type) : Type
  | ret (value : α)
  | raise (error : ε)
  | step (label : L) (effect : σ → Except ε σ) (next : σ → Prog L σ ε α)
      (handler : ε → Prog L σ ε α)

/-- One operation of a run: its label, the state before it and the fault that met it. -/
structure Incident (L σ ε : Type) where
  label : L
  before : σ
  fault : Fault ε

/-- How a run ended, the operations it went through and the state it left. -/
structure Outcome (L σ ε α : Type) where
  exit : Exit ε α
  trace : List (Incident L σ ε)
  state : σ

/-- Conditions on the three ways a run ends. -/
structure Post (σ ε α : Type) where
  returned : α → σ → Prop
  raised : ε → σ → Prop
  stopped : σ → Prop

variable {L σ ε α β : Type} {s t : σ} {e : ε} {a : α} {p : Prog L σ ε α} {Q R : Post σ ε α}
  {f : α → Prog L σ ε β} {h : ε → Prog L σ ε α} {A B : L → σ → Fault ε → Prop} {I : σ → Prop}

/-- The condition on the state that a run ended in. -/
def Post.Holds (Q : Post σ ε α) : Exit ε α → σ → Prop
  | .returned a => Q.returned a
  | .raised e => Q.raised e
  | .stopped => Q.stopped

/-- The state after an interrupted operation, with or without its effect. -/
def interrupted (f : σ → Except ε σ) (effect : Bool) (s : σ) : σ :=
  if effect then (match f s with | .ok t => t | .error _ => s) else s

@[simp] theorem interrupted_false {f : σ → Except ε σ} : interrupted f false s = s := rfl

theorem interrupted_of_ok {f : σ → Except ε σ} {effect : Bool} (hf : f s = .ok t) :
    interrupted f effect s = if effect then t else s := by
  cases effect <;> simp [interrupted, hf]

theorem interrupted_of_error {f : σ → Except ε σ} {effect : Bool} (hf : f s = .error e) :
    interrupted f effect s = s := by
  cases effect <;> simp [interrupted, hf]

/-- What holds before an operation and after its effect holds after an interruption. -/
theorem interrupted_of_imp {f : σ → Except ε σ} {effect : Bool} (hs : I s)
    (hf : ∀ t, f s = .ok t → I t) : I (interrupted f effect s) := by
  cases hfs : f s with
  | error e => rwa [interrupted_of_error hfs]
  | ok t =>
    rw [interrupted_of_ok hfs]
    cases effect
    · exact hs
    · exact hf t hfs

namespace Prog

/-! ## Programs -/

/-- Sequencing. -/
def bind : Prog L σ ε α → (α → Prog L σ ε β) → Prog L σ ε β
  | ret a, f => f a
  | raise e, _ => raise e
  | step l g next handler, f => step l g (fun s => (next s).bind f) fun e => (handler e).bind f

/-- `try .. except ..`. A stop is not an exception. -/
def tryCatch : Prog L σ ε α → (ε → Prog L σ ε α) → Prog L σ ε α
  | ret a, _ => ret a
  | raise e, h => h e
  | step l g next handler, h =>
    step l g (fun s => (next s).tryCatch h) fun e => (handler e).tryCatch h

instance : Monad (Prog L σ ε) where
  pure := ret
  bind := bind

instance : MonadExceptOf ε (Prog L σ ε) where
  throw := raise
  tryCatch := tryCatch

/-- One operation, which reads a value from the state and changes it. -/
def act (l : L) (f : σ → Except ε (α × σ)) : Prog L σ ε α :=
  step l (fun s => (f s).map Prod.snd)
    (fun s => match f s with | .ok (a, _) => ret a | .error e => raise e) raise

/-- An operation that only changes the state, if the state allows it. -/
def update (l : L) (f : σ → Except ε σ) : Prog L σ ε Unit :=
  step l f (fun _ => ret ()) raise

/-- An operation that leaves the state alone. -/
def check (l : L) : Prog L σ ε Unit :=
  update l .ok

/-- An operation that only reads the state. -/
def read (l : L) (f : σ → Except ε α) : Prog L σ ε α :=
  act l fun s => (f s).map fun a => (a, s)

/-- A computation on values only. -/
def ofExcept : Except ε α → Prog L σ ε α
  | .ok a => ret a
  | .error e => raise e

/-- The value, or raise if there is none. -/
def ofOption (x : Option α) (e : ε) : Prog L σ ε α :=
  match x with
  | some a => ret a
  | none => raise e

/-- The value that a program returns or the error that it raises. -/
def attempt (p : Prog L σ ε α) : Prog L σ ε (Except ε α) :=
  tryCatch (p.bind fun a => ret (.ok a)) fun e => ret (.error e)

/-- `except` with the classes that are caught, and what is returned then. -/
def catching (caught : ε → Bool) (a : α) (p : Prog L σ ε α) : Prog L σ ε α :=
  tryCatch p fun e => if caught e then ret a else raise e

/-- Raise unless the condition holds. -/
def require (c : Prop) [Decidable c] (e : ε) : Prog L σ ε Unit :=
  if c then ret () else raise e

/-- An `if` without an `else`. -/
def when (c : Prop) [Decidable c] (p : Prog L σ ε Unit) : Prog L σ ε Unit :=
  if c then p else ret ()

/-! ## Runs -/

/-- Run a program against a script of faults. Operations beyond the script meet no fault. -/
def run : Prog L σ ε α → List (Fault ε) → σ → Outcome L σ ε α
  | ret a, _, s => ⟨.returned a, [], s⟩
  | raise e, _, s => ⟨.raised e, [], s⟩
  | step l f next handler, script, s =>
    let rest : Outcome L σ ε α :=
      match script.headD .none with
      | .none =>
        match f s with
        | .ok t => (next s).run script.tail t
        | .error e => (handler e).run script.tail s
      | .raised e effect => (handler e).run script.tail (interrupted f effect s)
      | .stopped effect => ⟨.stopped, [], interrupted f effect s⟩
    { rest with trace := ⟨l, s, script.headD .none⟩ :: rest.trace }

/-- The weakest condition under which every run whose faults are allowed ends as `Q` says. -/
def wp (A : L → σ → Fault ε → Prop) : Prog L σ ε α → Post σ ε α → σ → Prop
  | ret a, Q, s => Q.returned a s
  | raise e, Q, s => Q.raised e s
  | step l f next handler, Q, s =>
    (A l s .none → ∀ t, f s = .ok t → (next s).wp A Q t) ∧
    (A l s .none → ∀ e, f s = .error e → (handler e).wp A Q s) ∧
    (∀ e effect, A l s (.raised e effect) → (handler e).wp A Q (interrupted f effect s)) ∧
    ∀ effect, A l s (.stopped effect) → Q.stopped (interrupted f effect s)

/-- The run meets only faults that are allowed. -/
def Meets (A : L → σ → Fault ε → Prop) (o : Outcome L σ ε α) : Prop :=
  ∀ i ∈ o.trace, A i.label i.before i.fault

/-- Every run of the program keeps the invariant, however it ends. -/
def Preserves (I : σ → Prop) (p : Prog L σ ε α) : Prop :=
  ∀ s, I s → p.wp (fun _ _ _ => True) ⟨fun _ => I, fun _ => I, I⟩ s

/-! ## Soundness -/

theorem holds_of_wp (script : List (Fault ε)) (hwp : p.wp A Q s)
    (hmeets : Meets A (p.run script s)) :
    Q.Holds (p.run script s).exit (p.run script s).state := by
  induction p generalizing script s with
  | ret a => exact hwp
  | raise e => exact hwp
  | step l f next handler ihnext ihhandler =>
    have hhead : A l s (script.headD .none) :=
      hmeets ⟨l, s, script.headD .none⟩ (by simp only [run]; exact List.mem_cons_self)
    have htail : ∀ i ∈ (run (step l f next handler) script s).trace.tail,
        A i.label i.before i.fault := fun i hi => hmeets i (List.mem_of_mem_tail hi)
    simp only [run, List.tail_cons] at htail ⊢
    obtain ⟨hok, herror, hraised, hstopped⟩ := hwp
    cases hfault : script.headD .none with
    | none =>
      rw [hfault] at hhead
      simp only [hfault] at htail ⊢
      cases hf : f s with
      | ok t =>
        simp only [hf] at htail ⊢
        exact ihnext s script.tail (hok hhead t hf) htail
      | error e =>
        simp only [hf] at htail ⊢
        exact ihhandler e script.tail (herror hhead e hf) htail
    | raised e effect =>
      rw [hfault] at hhead
      simp only [hfault] at htail ⊢
      exact ihhandler e script.tail (hraised e effect hhead) htail
    | stopped effect =>
      rw [hfault] at hhead
      exact hstopped effect hhead

/-- A run meets what allows the faults of its script and the absence of one. -/
theorem meets_run {script : List (Fault ε)} (hnone : ∀ l s, A l s .none)
    (hscript : ∀ fault ∈ script, ∀ l s, A l s fault) : Meets A (p.run script s) := by
  induction p generalizing script s with
  | ret a => exact fun _ h => by simp [run] at h
  | raise e => exact fun _ h => by simp [run] at h
  | step l f next handler ihnext ihhandler =>
    have htail : ∀ fault ∈ script.tail, ∀ l s, A l s fault :=
      fun fault hfault => hscript fault (List.mem_of_mem_tail hfault)
    have hhead : A l s (script.headD .none) := by
      cases script with
      | nil => exact hnone l s
      | cons fault rest => exact hscript fault List.mem_cons_self l s
    intro i hi
    simp only [run, List.mem_cons] at hi
    rcases hi with rfl | hi
    · exact hhead
    · cases hfault : script.headD .none with
      | none =>
        simp only [hfault] at hi
        cases hf : f s with
        | ok t =>
          simp only [hf] at hi
          exact ihnext s htail i hi
        | error e =>
          simp only [hf] at hi
          exact ihhandler e htail i hi
      | raised e effect =>
        simp only [hfault] at hi
        exact ihhandler e htail i hi
      | stopped effect =>
        simp only [hfault, List.not_mem_nil] at hi

/-! ## Rules -/

theorem wp_mono (h : p.wp A Q s) (hret : ∀ a s, Q.returned a s → R.returned a s)
    (hraise : ∀ e s, Q.raised e s → R.raised e s)
    (hstop : ∀ s, Q.stopped s → R.stopped s) : p.wp A R s := by
  induction p generalizing s with
  | ret a => exact hret a s h
  | raise e => exact hraise e s h
  | step l f next handler ihnext ihhandler =>
    obtain ⟨hok, herror, hraised, hstopped⟩ := h
    exact ⟨fun hA t ht => ihnext s (hok hA t ht), fun hA e he => ihhandler e (herror hA e he),
      fun e effect hA => ihhandler e (hraised e effect hA),
      fun effect hA => hstop _ (hstopped effect hA)⟩

/-- Fewer allowed faults, fewer runs. -/
theorem wp_anti (hA : ∀ l s fault, B l s fault → A l s fault) (h : p.wp A Q s) : p.wp B Q s := by
  induction p generalizing s with
  | ret a => exact h
  | raise e => exact h
  | step l f next handler ihnext ihhandler =>
    obtain ⟨hok, herror, hraised, hstopped⟩ := h
    exact ⟨fun hB t ht => ihnext s (hok (hA _ _ _ hB) t ht),
      fun hB e he => ihhandler e (herror (hA _ _ _ hB) e he),
      fun e effect hB => ihhandler e (hraised e effect (hA _ _ _ hB)),
      fun effect hB => hstopped effect (hA _ _ _ hB)⟩

/-- What two arguments say of a program, they say together. -/
theorem wp_and (hQ : p.wp A Q s) (hR : p.wp A R s) :
    p.wp A ⟨fun a s => Q.returned a s ∧ R.returned a s, fun e s => Q.raised e s ∧ R.raised e s,
      fun s => Q.stopped s ∧ R.stopped s⟩ s := by
  induction p generalizing s with
  | ret a => exact ⟨hQ, hR⟩
  | raise e => exact ⟨hQ, hR⟩
  | step l f next handler ihnext ihhandler =>
    exact ⟨fun hA t ht => ihnext s (hQ.1 hA t ht) (hR.1 hA t ht),
      fun hA e he => ihhandler e (hQ.2.1 hA e he) (hR.2.1 hA e he),
      fun e effect hA => ihhandler e (hQ.2.2.1 e effect hA) (hR.2.2.1 e effect hA),
      fun effect hA => ⟨hQ.2.2.2 effect hA, hR.2.2.2 effect hA⟩⟩

@[simp] theorem wp_pure : (pure a : Prog L σ ε α).wp A Q s ↔ Q.returned a s := Iff.rfl

@[simp] theorem wp_throw : (throw e : Prog L σ ε α).wp A Q s ↔ Q.raised e s := Iff.rfl

theorem wp_bind {Q : Post σ ε β} :
    (p >>= f).wp A Q s ↔ p.wp A ⟨fun a => (f a).wp A Q, Q.raised, Q.stopped⟩ s := by
  change (p.bind f).wp A Q s ↔ _
  induction p generalizing s with
  | ret a => exact Iff.rfl
  | raise e => exact Iff.rfl
  | step l g next handler ihnext ihhandler =>
    simp only [bind, wp, ihnext, ihhandler]

theorem wp_tryCatch :
    (tryCatch p h).wp A Q s ↔ p.wp A ⟨Q.returned, fun e => (h e).wp A Q, Q.stopped⟩ s := by
  induction p generalizing s with
  | ret a => exact Iff.rfl
  | raise e => exact Iff.rfl
  | step l g next handler ihnext ihhandler =>
    simp only [tryCatch, wp, ihnext, ihhandler]

theorem wp_act {l : L} {g : σ → Except ε (α × σ)} :
    (act l g).wp A Q s ↔
      (A l s .none → ∀ a t, g s = .ok (a, t) → Q.returned a t) ∧
      (A l s .none → ∀ e, g s = .error e → Q.raised e s) ∧
      (∀ e effect, A l s (.raised e effect) →
        Q.raised e (interrupted (fun s => (g s).map Prod.snd) effect s)) ∧
      ∀ effect, A l s (.stopped effect) →
        Q.stopped (interrupted (fun s => (g s).map Prod.snd) effect s) := by
  simp only [act, wp]
  cases hg : g s with
  | error e => simp [Except.map, wp]
  | ok v => obtain ⟨a, t⟩ := v; simp [Except.map, wp]

theorem wp_update {l : L} {g : σ → Except ε σ} {Q : Post σ ε Unit} :
    (update l g).wp A Q s ↔
      (A l s .none → ∀ t, g s = .ok t → Q.returned () t) ∧
      (A l s .none → ∀ e, g s = .error e → Q.raised e s) ∧
      (∀ e effect, A l s (.raised e effect) → Q.raised e (interrupted g effect s)) ∧
      ∀ effect, A l s (.stopped effect) → Q.stopped (interrupted g effect s) :=
  Iff.rfl

/-- An operation that leaves the state alone may end in any way. -/
theorem wp_check {l : L} {Q : Post σ ε Unit} (hret : Q.returned () s) (hraise : ∀ e, Q.raised e s)
    (hstop : Q.stopped s) : (check l).wp A Q s := by
  refine ⟨fun _ t ht => ?_, fun _ e he => ?_, fun e effect _ => ?_, fun effect _ => ?_⟩
  · obtain rfl : s = t := by simpa using ht
    exact hret
  · simp at he
  · rw [interrupted_of_ok rfl, ite_self]
    exact hraise e
  · rw [interrupted_of_ok rfl, ite_self]
    exact hstop

theorem wp_read {l : L} {g : σ → Except ε α} (hret : ∀ a, g s = .ok a → Q.returned a s)
    (hraise : ∀ e, Q.raised e s) (hstop : Q.stopped s) : (read l g).wp A Q s := by
  have hsame : ∀ effect,
      interrupted (fun s => ((g s).map fun a => (a, s)).map Prod.snd) effect s = s := by
    intro effect
    cases hg : g s <;> cases effect <;> simp [interrupted, hg, Except.map]
  refine wp_act.2 ⟨fun _ a t h => ?_, fun _ e _ => hraise e, fun e effect _ => ?_,
    fun effect _ => ?_⟩
  · cases hg : g s with
    | error e => simp [hg, Except.map] at h
    | ok b =>
      obtain ⟨rfl, rfl⟩ : b = a ∧ s = t := by simpa [hg, Except.map] using h
      exact hret b hg
  · rw [hsame]
    exact hraise e
  · rw [hsame]
    exact hstop

theorem wp_ofExcept {x : Except ε α} (hret : ∀ a, x = .ok a → Q.returned a s)
    (hraise : ∀ e, x = .error e → Q.raised e s) : (ofExcept x : Prog L σ ε α).wp A Q s := by
  cases x with
  | ok a => exact hret a rfl
  | error e => exact hraise e rfl

theorem wp_ofOption {x : Option α} (hret : ∀ a, x = some a → Q.returned a s)
    (hraise : x = none → Q.raised e s) : (ofOption x e : Prog L σ ε α).wp A Q s := by
  cases x with
  | some a => exact hret a rfl
  | none => exact hraise rfl

theorem wp_attempt {Q : Post σ ε (Except ε α)} : (attempt p).wp A Q s ↔
    p.wp A ⟨fun a => Q.returned (.ok a), fun e => Q.returned (.error e), Q.stopped⟩ s := by
  rw [attempt, wp_tryCatch]
  exact wp_bind

theorem wp_catching {caught : ε → Bool} : (catching caught a p).wp A Q s ↔
    p.wp A ⟨Q.returned,
      fun e s => if caught e then Q.returned a s else Q.raised e s, Q.stopped⟩ s := by
  rw [catching, wp_tryCatch]
  have h : (fun e => (if caught e = true then ret a else raise e : Prog L σ ε α).wp A Q) =
      fun e s => if caught e then Q.returned a s else Q.raised e s := by
    funext e s
    by_cases hc : caught e = true <;> simp [hc, wp]
  rw [h]

theorem wp_require {c : Prop} [Decidable c] {Q : Post σ ε Unit} (hret : c → Q.returned () s)
    (hraise : ¬c → Q.raised e s) : (require c e : Prog L σ ε Unit).wp A Q s := by
  by_cases hc : c
  · simp only [require, if_pos hc]
    exact hret hc
  · simp only [require, if_neg hc]
    exact hraise hc

theorem wp_when {c : Prop} [Decidable c] {q : Prog L σ ε Unit} {Q : Post σ ε Unit}
    (hq : c → q.wp A Q s) (hret : ¬c → Q.returned () s) : (when c q).wp A Q s := by
  by_cases hc : c
  · simp only [when, if_pos hc]
    exact hq hc
  · simp only [when, if_neg hc]
    exact hret hc

/-! ## Invariants -/

theorem Preserves.wp (hp : Preserves I p) (hs : I s) (hret : ∀ a s, I s → Q.returned a s)
    (hraise : ∀ e s, I s → Q.raised e s) (hstop : ∀ s, I s → Q.stopped s) : p.wp A Q s :=
  wp_anti (fun _ _ _ _ => trivial) (wp_mono (hp s hs) hret hraise hstop)

theorem Preserves.holds (hp : Preserves I p) (hs : I s) :
    p.wp A ⟨fun _ => I, fun _ => I, I⟩ s :=
  wp_anti (fun _ _ _ _ => trivial) (hp s hs)

theorem Preserves.pure : Preserves I (pure a : Prog L σ ε α) := fun _ hs => hs

theorem Preserves.throw : Preserves I (throw e : Prog L σ ε α) := fun _ hs => hs

theorem Preserves.bind (hp : Preserves I p) (hf : ∀ a, Preserves I (f a)) :
    Preserves I (p >>= f) := by
  intro s hs
  rw [wp_bind]
  exact hp.wp hs (fun a t ht => hf a t ht) (fun _ _ h => h) fun _ h => h

theorem Preserves.tryCatch (hp : Preserves I p) (hh : ∀ e, Preserves I (h e)) :
    Preserves I (tryCatch p h) := by
  intro s hs
  rw [wp_tryCatch]
  exact hp.wp hs (fun _ _ h => h) (fun e t ht => hh e t ht) fun _ h => h

theorem Preserves.update {l : L} {g : σ → Except ε σ} (hg : ∀ s t, I s → g s = .ok t → I t) :
    Preserves I (update l g) := by
  intro s hs
  have hinterrupted : ∀ effect, I (interrupted g effect s) := fun _ =>
    interrupted_of_imp hs fun t ht => hg s t hs ht
  exact ⟨fun _ t h => hg s t hs h, fun _ _ _ => hs, fun _ effect _ => hinterrupted effect,
    fun effect _ => hinterrupted effect⟩

theorem Preserves.check {l : L} : Preserves I (check l : Prog L σ ε Unit) :=
  fun _ hs => wp_check hs (fun _ => hs) hs

theorem Preserves.read {l : L} {g : σ → Except ε α} : Preserves I (read l g) :=
  fun _ hs => wp_read (fun _ _ => hs) (fun _ => hs) hs

/-- What follows has to keep the invariant only for a value that can be read. -/
theorem Preserves.read_bind {l : L} {g : σ → Except ε α}
    (hf : ∀ s a, I s → g s = .ok a → Preserves I (f a)) : Preserves I (Prog.read l g >>= f) := by
  intro s hs
  rw [wp_bind]
  exact wp_read (fun a ha => hf s a hs ha s hs) (fun _ => hs) hs

theorem Preserves.ofExcept {x : Except ε α} : Preserves I (ofExcept x : Prog L σ ε α) :=
  fun _ hs => wp_ofExcept (fun _ _ => hs) fun _ _ => hs

theorem Preserves.ofOption {x : Option α} : Preserves I (ofOption x e : Prog L σ ε α) :=
  fun _ hs => wp_ofOption (fun _ _ => hs) fun _ => hs

theorem Preserves.attempt (hp : Preserves I p) : Preserves I (attempt p) := by
  intro s hs
  rw [wp_attempt]
  exact hp s hs

theorem Preserves.catching {caught : ε → Bool} (hp : Preserves I p) :
    Preserves I (catching caught a p) := by
  intro s hs
  rw [wp_catching]
  exact hp.wp hs (fun _ _ h => h) (fun e s h => by simpa using h) fun _ h => h

theorem Preserves.require {c : Prop} [Decidable c] :
    Preserves I (require c e : Prog L σ ε Unit) :=
  fun _ hs => wp_require (fun _ => hs) fun _ => hs

theorem Preserves.ite {c : Prop} [Decidable c] {q : Prog L σ ε α} (hp : c → Preserves I p)
    (hq : ¬c → Preserves I q) : Preserves I (if c then p else q) := by
  by_cases hc : c
  · rw [if_pos hc]
    exact hp hc
  · rw [if_neg hc]
    exact hq hc

theorem Preserves.when {c : Prop} [Decidable c] {q : Prog L σ ε Unit} (hq : c → Preserves I q) :
    Preserves I (when c q) :=
  fun s hs => wp_when (fun hc => hq hc s hs) fun _ => hs

attribute [irreducible] wp

end Prog

end Faults
