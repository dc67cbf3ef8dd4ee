import FetchNow.Basic
import FetchNow.Theory.Pacing
import Mathlib.Data.NNRat.Defs
import Mathlib.Algebra.Order.Ring.Rat

/-!
# Streams of an artifact

A range of an artifact is read in chunks, and every chunk is held back until the pacer lets it go.
What the environment does between two chunks is a turn.
-/
namespace FetchNow

open Transactions Pacing

structure MonotonicBytePacer where
  rate : ℕ
  deadline : Option ℚ
  deriving DecidableEq

def monotonicBytePacer (rateBytesPerSecond : Int) : Except Raised MonotonicBytePacer := do
  require (0 < rateBytesPerSecond) (.valueError "rate_bytes_per_second must be a positive integer")
  .ok ⟨rateBytesPerSecond.toNat, none⟩

/-- The pacer after `pace`, and the delay for which it sleeps if that is positive. `now` and `later`
are the readings of the clock. -/
def MonotonicBytePacer.pace (pacer : MonotonicBytePacer) (byteCount : ℕ) (now later : ℚ) :
    Except Raised (MonotonicBytePacer × ℚ) := do
  require (1 ≤ byteCount) (.valueError "byte_count must be a positive integer")
  let baseline := pacer.deadline.elim now (max · now)
  let deadline := baseline + byteCount / pacer.rate
  .ok ({ pacer with deadline := some deadline }, deadline - later)

/-- What the environment does from one chunk to the next: how much a read gives, and the time that
goes by until the clock is read, until it is read again, and beyond the delay that was asked for. -/
structure Turn where
  read : ℕ
  stall : ℚ≥0
  gap : ℚ≥0
  late : ℚ≥0

structure Chunk (α : Type) where
  time : ℚ
  bytes : List α
  deriving DecidableEq

inductive StreamOutcome where
  | finished
  | raised (e : Raised)
  /-- The consumer has not asked for more. -/
  | suspended
  deriving DecidableEq

/-- `_read_chunk`, of at most `size` bytes. -/
def readChunk {α : Type} (content : List α) (offset size read : ℕ) : List α :=
  (content.drop offset).take (min size read)

structure StreamState where
  time : ℚ
  offset : ℕ
  remaining : ℕ
  pacer : Option MonotonicBytePacer

/-- The pacer of a stream that has one. -/
def paceChunk (pacer : Option MonotonicBytePacer) (byteCount : ℕ) (now later : ℚ) :
    Except Raised (Option MonotonicBytePacer × ℚ) :=
  match pacer with
  | none => .ok (none, 0)
  | some pacer => do
    let (pacer, delay) ← pacer.pace byteCount now later
    .ok (some pacer, delay)

/-- The loop of `iter_fd_range`. -/
def iterChunks {α : Type} (content : List α) (chunkBytes : ℕ) :
    StreamState → List Turn → List (Chunk α) × StreamOutcome
  | s, [] => ([], if s.remaining = 0 then .finished else .suspended)
  | s, turn :: turns =>
    if s.remaining = 0 then ([], .finished)
    else
      let chunk := readChunk content s.offset (min chunkBytes s.remaining) turn.read
      if chunk = [] then
        ([], .raised (.downloadError .downloadStorageUnavailable "DELIVERY_SHORT_READ"))
      else
        let now := s.time + turn.stall
        let later := now + turn.gap
        match paceChunk s.pacer chunk.length now later with
        | .error e => ([], .raised e)
        | .ok (pacer, delay) =>
          let time := later + max delay 0 + turn.late
          let (chunks, outcome) := iterChunks content chunkBytes
            ⟨time, s.offset + chunk.length, s.remaining - chunk.length, pacer⟩ turns
          (⟨time, chunk⟩ :: chunks, outcome)

def iterFdRange {α : Type} (content : List α) (start length chunkBytes : Int) (rate : Option Int)
    (time : ℚ) (turns : List Turn) : List (Chunk α) × StreamOutcome :=
  if chunkBytes < 1 then ([], .raised (.valueError "chunk_bytes must be positive"))
  else if start < 0 ∨ length < 0 then ([], .raised (.valueError "invalid range"))
  else
    match rate.mapM monotonicBytePacer with
    | .error e => ([], .raised e)
    | .ok pacer => iterChunks content chunkBytes.toNat ⟨time, start.toNat, length.toNat, pacer⟩ turns

def Chunk.delivery {α : Type} (chunk : Chunk α) : Delivery ℚ := ⟨chunk.time, chunk.bytes.length⟩

variable {α : Type} {content : List α} {chunkBytes : ℕ} {s next : StreamState} {turn : Turn}
  {turns : List Turn} {pacer : MonotonicBytePacer} {chunk : List α}

/-! ## One turn -/

/-- A pacer lets a chunk go when its own time has passed since the clock was read. -/
theorem pace_delay {byteCount : ℕ} {now later delay late : ℚ} {pacer' : MonotonicBytePacer}
    (hrate : 0 < pacer.rate) (hlate : 0 ≤ late)
    (h : pacer.pace byteCount now later = .ok (pacer', delay)) :
    pacer'.rate = pacer.rate ∧
      (byteCount : ℚ) ≤ pacer.rate * (later + max delay 0 + late - now) := by
  obtain ⟨_, _, h⟩ := bind_eq_ok.mp h
  cases h
  refine ⟨rfl, ?_⟩
  have hbaseline : now ≤ pacer.deadline.elim now (max · now) := by
    cases pacer.deadline with
    | none => exact le_rfl
    | some d => exact le_max_right d now
  have hpos : (0 : ℚ) < pacer.rate := by exact_mod_cast hrate
  have hdelay := le_max_left
    (pacer.deadline.elim now (max · now) + byteCount / pacer.rate - later) (0 : ℚ)
  have hquotient : (byteCount : ℚ) / pacer.rate ≤ later +
      max (pacer.deadline.elim now (max · now) + byteCount / pacer.rate - later) 0 + late - now := by
    linarith
  have hproduct : (pacer.rate : ℚ) * (byteCount / pacer.rate) = byteCount := by
    rw [← mul_div_assoc, mul_div_cancel_left₀ _ hpos.ne']
  exact hproduct.symm.trans_le (mul_le_mul_of_nonneg_left hquotient hpos.le)

/-- From one chunk to the next. -/
structure ChunkRead (s : StreamState) (chunk : List α) (next : StreamState) : Prop where
  offset : next.offset = s.offset + chunk.length
  remaining : next.remaining = s.remaining - chunk.length
  paced : ∀ pacer, s.pacer = some pacer → 0 < pacer.rate →
    (chunk.length : ℚ) ≤ pacer.rate * (next.time - s.time) ∧
      ∃ pacer', next.pacer = some pacer' ∧ pacer'.rate = pacer.rate

/-- What a turn can do. -/
theorem iterChunks_cases (content : List α) (chunkBytes : ℕ) (s : StreamState) (turn : Turn)
    (turns : List Turn) :
    s.remaining = 0 ∧ iterChunks content chunkBytes s (turn :: turns) = ([], .finished) ∨
    s.remaining ≠ 0 ∧ readChunk content s.offset (min chunkBytes s.remaining) turn.read = [] ∧
      iterChunks content chunkBytes s (turn :: turns) =
        ([], .raised (.downloadError .downloadStorageUnavailable "DELIVERY_SHORT_READ")) ∨
    s.remaining ≠ 0 ∧ readChunk content s.offset (min chunkBytes s.remaining) turn.read ≠ [] ∧
      ∃ next, ChunkRead s (readChunk content s.offset (min chunkBytes s.remaining) turn.read) next ∧
        iterChunks content chunkBytes s (turn :: turns) =
          (⟨next.time, readChunk content s.offset (min chunkBytes s.remaining) turn.read⟩ ::
              (iterChunks content chunkBytes next turns).1,
            (iterChunks content chunkBytes next turns).2) := by
  by_cases hremaining : s.remaining = 0
  · refine .inl ⟨hremaining, ?_⟩
    rw [iterChunks, if_pos hremaining]
  by_cases hchunk : readChunk content s.offset (min chunkBytes s.remaining) turn.read = []
  · refine .inr (.inl ⟨hremaining, hchunk, ?_⟩)
    simp only [iterChunks, if_neg hremaining, if_pos hchunk]
  refine .inr (.inr ⟨hremaining, hchunk, ?_⟩)
  simp only [iterChunks, if_neg hremaining, if_neg hchunk]
  generalize readChunk content s.offset (min chunkBytes s.remaining) turn.read = chunk at hchunk
  have hlength : 1 ≤ chunk.length := List.length_pos_of_ne_nil hchunk
  have hstall : (0 : ℚ) ≤ turn.stall := turn.stall.2
  have hlate : (0 : ℚ) ≤ turn.late := turn.late.2
  cases hpacer : s.pacer with
  | none =>
    simp only [paceChunk]
    refine ⟨⟨_, _, _, _⟩, ⟨rfl, rfl, ?_⟩, rfl⟩
    intro pacer h
    rw [hpacer] at h
    cases h
  | some pacer =>
    obtain ⟨pacer', delay, hpace⟩ : ∃ pacer' delay, pacer.pace chunk.length (s.time + turn.stall)
        (s.time + turn.stall + turn.gap) = .ok (pacer', delay) := by
      rw [MonotonicBytePacer.pace, require_true hlength]
      exact ⟨_, _, rfl⟩
    simp only [paceChunk, hpace, ok_bind]
    refine ⟨⟨_, _, _, _⟩, ⟨rfl, rfl, ?_⟩, rfl⟩
    intro pacer₀ h hrate
    rw [hpacer] at h
    cases h
    obtain ⟨hsame, hbound⟩ := pace_delay hrate hlate hpace
    refine ⟨?_, pacer', rfl, hsame⟩
    have hpos : (0 : ℚ) ≤ pacer.rate := Nat.cast_nonneg _
    refine hbound.trans (mul_le_mul_of_nonneg_left ?_ hpos)
    simp only
    linarith

/-! ## Runs -/

/-- The bytes that a state still has to deliver. -/
def StreamState.range (s : StreamState) (content : List α) : List α :=
  (content.drop s.offset).take s.remaining

/-- A chunk is the start of the range, and the rest of it is the range of the next state. -/
theorem range_eq {read : ℕ} (hsize : s.offset + s.remaining ≤ content.length)
    (hchunk : chunk = readChunk content s.offset (min chunkBytes s.remaining) read)
    (hnext : ChunkRead s chunk next) : s.range content = chunk ++ next.range content ∧
      next.offset + next.remaining ≤ content.length ∧ chunk.length ≤ s.remaining := by
  have hlen : chunk.length = min (min chunkBytes s.remaining) read := by
    rw [hchunk, readChunk, List.length_take, List.length_drop]
    omega
  rw [StreamState.range, StreamState.range, hnext.offset, hnext.remaining]
  refine ⟨?_, by omega, by omega⟩
  have hsum : s.remaining = chunk.length + (s.remaining - chunk.length) := by omega
  conv_lhs => rw [hsum, List.take_add]
  rw [List.drop_drop, hlen, hchunk, readChunk]

def delivered (chunks : List (Chunk α)) : List α := (chunks.map Chunk.bytes).flatten

/-- Chunks make up a start of the range: all of it if the stream has finished, and not all of it if
it has raised. -/
structure Exact (range : List α) (result : List (Chunk α) × StreamOutcome) : Prop where
  initial : delivered result.1 <+: range
  finished : result.2 = .finished → delivered result.1 = range
  raised : ∀ e, result.2 = .raised e → delivered result.1 ≠ range ∧
    e = .downloadError .downloadStorageUnavailable "DELIVERY_SHORT_READ"

theorem iterChunks_exact (hsize : s.offset + s.remaining ≤ content.length) :
    Exact (s.range content) (iterChunks content chunkBytes s turns) := by
  have hnonempty : ∀ {s : StreamState}, s.offset + s.remaining ≤ content.length →
      s.remaining ≠ 0 → s.range content ≠ [] := by
    intro s hsize hremaining hnil
    have hlen := congrArg List.length hnil
    rw [StreamState.range, List.length_take, List.length_drop, List.length_nil] at hlen
    omega
  have hempty : ∀ {s : StreamState}, s.remaining = 0 → s.range content = [] := by
    intro s hremaining
    rw [StreamState.range, hremaining, List.take_zero]
  induction turns generalizing s with
  | nil =>
    rw [iterChunks]
    refine ⟨List.nil_prefix, ?_, ?_⟩
    · intro hfinished
      by_cases hremaining : s.remaining = 0
      · exact (hempty hremaining).symm
      · simp [hremaining] at hfinished
    · intro e he
      by_cases hremaining : s.remaining = 0 <;> simp [hremaining] at he
  | cons turn turns ih =>
    rcases iterChunks_cases content chunkBytes s turn turns with ⟨hremaining, h⟩ | ⟨hremaining, -, h⟩ | ⟨hremaining, -, next, hnext, h⟩
    · rw [h, hempty hremaining]
      refine ⟨List.nil_prefix, fun _ => rfl, ?_⟩
      intro e he
      cases he
    · rw [h]
      refine ⟨List.nil_prefix, ?_, ?_⟩
      · intro hfinished
        cases hfinished
      · intro e he
        cases he
        exact ⟨(hnonempty hsize hremaining).symm, rfl⟩
    · obtain ⟨hrange, hsize', -⟩ := range_eq hsize rfl hnext
      obtain ⟨hinitial, hfinished, hraised⟩ := ih hsize'
      rw [h, hrange]
      refine ⟨?_, ?_, ?_⟩
      · exact (List.prefix_append_right_inj _).mpr hinitial
      · intro hout
        exact congrArg _ (hfinished hout)
      · intro e he
        obtain ⟨hne, heq⟩ := hraised e he
        exact ⟨fun hsame => hne (List.append_cancel_left hsame), heq⟩

/-- Every chunk has its time from the one before it. -/
theorem iterChunks_paced (hpacer : s.pacer = some pacer) (hrate : 0 < pacer.rate) :
    Paced (pacer.rate : ℚ) s.time
      ((iterChunks content chunkBytes s turns).1.map Chunk.delivery) := by
  induction turns generalizing s pacer with
  | nil =>
    rw [iterChunks]
    exact .nil _
  | cons turn turns ih =>
    rcases iterChunks_cases content chunkBytes s turn turns with ⟨-, h⟩ | ⟨-, -, h⟩ | ⟨-, hchunk, next, hnext, h⟩
    · rw [h]
      exact .nil _
    · rw [h]
      exact .nil _
    · obtain ⟨hbound, pacer', hpacer', hsame⟩ := hnext.paced pacer hpacer hrate
      have hrest := ih hpacer' (hsame ▸ hrate)
      rw [h, List.map_cons]
      refine .cons ?_ hbound (hsame ▸ hrest)
      have hpos := List.length_pos_of_ne_nil hchunk
      change (0 : ℚ) < (_ : ℕ)
      exact_mod_cast hpos

/-- A stream ends within as many turns as there are bytes. -/
theorem iterChunks_ends (hturns : s.remaining ≤ turns.length) :
    (iterChunks content chunkBytes s turns).2 ≠ .suspended := by
  induction turns generalizing s with
  | nil =>
    have hremaining : s.remaining = 0 := Nat.le_zero.mp hturns
    rw [iterChunks, if_pos hremaining]
    simp
  | cons turn turns ih =>
    rcases iterChunks_cases content chunkBytes s turn turns with ⟨-, h⟩ | ⟨-, -, h⟩ | ⟨-, hchunk, next, hnext, h⟩
    · simp [h]
    · simp [h]
    · rw [h]
      apply ih
      have hpos := List.length_pos_of_ne_nil hchunk
      rw [List.length_cons] at hturns
      rw [hnext.remaining]
      omega

/-- A stream of a whole artifact raises only if a read gives nothing. -/
theorem iterChunks_reads (hsize : s.offset + s.remaining ≤ content.length) (hchunk : 1 ≤ chunkBytes)
    (hreads : ∀ turn ∈ turns, 0 < turn.read) (e : Raised) :
    (iterChunks content chunkBytes s turns).2 ≠ .raised e := by
  induction turns generalizing s with
  | nil =>
    rw [iterChunks]
    by_cases hremaining : s.remaining = 0 <;> simp [hremaining]
  | cons turn turns ih =>
    obtain ⟨hread, hreads⟩ := List.forall_mem_cons.mp hreads
    rcases iterChunks_cases content chunkBytes s turn turns with ⟨-, h⟩ | ⟨hremaining, hnil, -⟩ | ⟨-, -, next, hnext, h⟩
    · simp [h]
    · have hlen := congrArg List.length hnil
      rw [readChunk, List.length_take, List.length_drop, List.length_nil] at hlen
      omega
    · rw [h]
      exact ih (range_eq hsize rfl hnext).2.1 hreads

/-- The bytes that are yielded after one time, up to another one. -/
def yieldedWithin (chunks : List (Chunk α)) (t₁ t₂ : ℚ) : ℕ :=
  ((chunks.filter fun c => decide (t₁ < c.time) && decide (c.time ≤ t₂)).map
    fun c => c.bytes.length).sum

theorem yieldedWithin_eq {chunks : List (Chunk α)} {t₁ t₂ : ℚ} :
    (yieldedWithin chunks t₁ t₂ : ℚ) = deliveredWithin (chunks.map Chunk.delivery) t₁ t₂ := by
  induction chunks with
  | nil => rfl
  | cons c chunks ih =>
    rw [List.map_cons, deliveredWithin_cons, ← ih, yieldedWithin, yieldedWithin]
    by_cases h : t₁ < c.time ∧ c.time ≤ t₂
    · simp [Chunk.delivery, h]
    · rw [List.filter_cons_of_neg (by simpa using h)]
      simp [Chunk.delivery, h]

/-- The chunks are exactly the range, or a proper start of it when a read gives nothing, whatever
happens between them; and no more is yielded between two yields than the rate allows. -/
theorem stream_exact_and_paced {start length chunkBytes rate : Int} {time : ℚ} (hstart : 0 ≤ start)
    (hlength : 0 ≤ length) (hsize : start + length ≤ content.length) (hchunk : 1 ≤ chunkBytes)
    (hrate : 1 ≤ rate) (turns : List Turn) :
    ∃ chunks outcome,
      iterFdRange content start length chunkBytes (some rate) time turns = (chunks, outcome) ∧
      Exact ((content.drop start.toNat).take length.toNat) (chunks, outcome) ∧
      (length.toNat ≤ turns.length → outcome ≠ .suspended) ∧
      ((∀ turn ∈ turns, 0 < turn.read) → ∀ e, outcome ≠ .raised e) ∧
      ∀ c₁ ∈ chunks, ∀ c₂ ∈ chunks, c₁.time ≤ c₂.time →
        (yieldedWithin chunks c₁.time c₂.time : ℚ) ≤ rate * (c₂.time - c₁.time) := by
  have hpacer : (some rate).mapM monotonicBytePacer =
      Except.ok (some (⟨rate.toNat, none⟩ : MonotonicBytePacer)) := by
    have hpos : 0 < rate := by omega
    simp only [Option.mapM_some, monotonicBytePacer, require_true hpos]
    rfl
  have hvalid : ¬ chunkBytes < 1 := by omega
  have hrange : ¬ (start < 0 ∨ length < 0) := by omega
  rw [iterFdRange, if_neg hvalid, if_neg hrange, hpacer]
  refine ⟨_, _, rfl, ?_, ?_, ?_, ?_⟩
  · exact iterChunks_exact (s := ⟨time, start.toNat, length.toNat, _⟩) (by simp only; omega)
  · exact fun hturns => iterChunks_ends hturns
  · intro hreads
    exact iterChunks_reads (s := ⟨time, start.toNat, length.toNat, _⟩) (by simp only; omega)
      (by omega) hreads
  · intro c₁ hc₁ c₂ hc₂ hle
    have hpos : 0 < rate.toNat := by omega
    have hpaced := @iterChunks_paced _ content chunkBytes.toNat
      ⟨time, start.toNat, length.toNat, some ⟨rate.toNat, none⟩⟩ turns _ rfl hpos
    have hcast : ((rate.toNat : ℕ) : ℚ) = rate := by
      exact_mod_cast congrArg (Int.cast : ℤ → ℚ) (Int.toNat_of_nonneg (by omega : 0 ≤ rate))
    have hbound := hpaced.between (by exact_mod_cast hpos) (List.mem_map_of_mem hc₁) hle
    rw [← yieldedWithin_eq, hcast] at hbound
    exact hbound

/-- Three bytes in chunks of two, with a stall before the second one. -/
theorem stream_exact_and_paced_sample :
    ∃ chunks outcome,
      iterFdRange [7, 8, 9, 10] 1 3 2 (some 5) 0 [⟨2, 0, 0, 0⟩, ⟨2, 3, 0, 0⟩, ⟨2, 0, 0, 0⟩] =
        (chunks, outcome) ∧
      Exact [8, 9, 10] (chunks, outcome) ∧ (3 ≤ 3 → outcome ≠ .suspended) ∧
      ((∀ turn ∈ [(⟨2, 0, 0, 0⟩ : Turn), ⟨2, 3, 0, 0⟩, ⟨2, 0, 0, 0⟩], 0 < turn.read) →
        ∀ e, outcome ≠ .raised e) ∧
      ∀ c₁ ∈ chunks, ∀ c₂ ∈ chunks, c₁.time ≤ c₂.time →
        (yieldedWithin chunks c₁.time c₂.time : ℚ) ≤ (5 : ℤ) * (c₂.time - c₁.time) :=
  stream_exact_and_paced (by decide) (by decide) (by decide) (by decide) (by decide) _

end FetchNow
