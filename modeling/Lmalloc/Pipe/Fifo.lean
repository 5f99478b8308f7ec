/-
  Lmalloc/Pipe/Fifo.lean
  ======================
  **The pipe is a queue, and nothing published is stranded.**

  `SdpCreate` announces `BufCount - 1` free buffers, but the first read of the
  writer drains them all, and from then on there is exactly one token in the
  system: in one of the two event counters, or in the hands of the thread that
  has drained it and has not yet written the other one.  The token is what makes
  the two indices follow the numbers of publications and reads.
-/
import Lmalloc.Library.Word
import Lmalloc.Pipe.SensorDataPipe

namespace Lmalloc.Pipe

open Lmalloc.Library

/-! ### Where the token is -/

/-- 1 while the writer holds the token: it has drained its counter and not yet
    signalled the reader. -/
def WriterPc.token : WriterPc → ℕ
  | .gotSlot _ _ | .stored _ _ | .counted _ _ => 1
  | .idle | .flushing _ | .loaded _ _ | .signalled _ => 0

def ReaderPc.token : ReaderPc → ℕ
  | .gotToken | .loaded _ | .stored _ | .subbed _ => 1
  | .idle | .called | .owns _ => 0

/-- 1 between the addition to `FullBuffersCount` and the publication. -/
def WriterPc.ahead : WriterPc → ℕ
  | .counted _ _ => 1
  | _ => 0

/-- 1 between the subtraction from it and the return of the read. -/
def ReaderPc.ahead : ReaderPc → ℕ
  | .subbed _ => 1
  | _ => 0

/-- What the writer's locals and `WriteBufIdx` hold after `k` publications into a
    ring of `n`. -/
def WriterPc.At (n k : ℕ) (idx : UInt32) : WriterPc → Prop
  | .idle => idx.toNat = k % n
  | .flushing cur => cur.toNat = k % n ∧ idx.toNat = k % n
  | .loaded cur next | .gotSlot cur next =>
      cur.toNat = k % n ∧ next.toNat = (k + 1) % n ∧ idx.toNat = k % n
  | .stored cur next | .counted cur next =>
      cur.toNat = k % n ∧ next.toNat = (k + 1) % n ∧ idx.toNat = (k + 1) % n
  | .signalled next => next.toNat = k % n ∧ idx.toNat = k % n

/-- The same for the reader after `k` reads; it owns the buffer of the last one. -/
def ReaderPc.At (n k : ℕ) (idx : UInt32) : ReaderPc → Prop
  | .idle | .called | .gotToken => idx.toNat = k % n
  | .loaded cur => cur.toNat = k % n ∧ idx.toNat = k % n
  | .stored cur | .subbed cur => cur.toNat = k % n ∧ idx.toNat = (k + 1) % n
  | .owns cur => idx.toNat = k % n ∧ ∃ j, k = j + 1 ∧ cur.toNat = j % n

/-- **The invariant**, for a pipe created with `N` buffers. -/
structure Inv (N : UInt64) (s : Threads) : Prop where
  bufCount_eq : s.pipe.bufCount = N
  published_eq : s.published = Ring.places N.toUInt32.toNat s.published.length
  reads_eq : s.reads = Ring.places N.toUInt32.toNat s.reads.length
  token : min s.pipe.writeEventFd 1 + s.writer.token + s.pipe.readEventFd + s.reader.token = 1
  balance : s.published.length = s.reads.length + s.pipe.readEventFd + s.reader.token
  full : s.pipe.fullBuffersCount.toNat + s.reads.length + s.reader.ahead =
    s.published.length + s.writer.ahead
  writer : s.writer.At N.toUInt32.toNat s.published.length s.pipe.writeBufIdx
  reader : s.reader.At N.toUInt32.toNat s.reads.length s.pipe.readBufIdx

section Invariant

variable {N : UInt64}

theorem inv_init (hN : 2 ≤ N.toNat) : Inv N (Threads.init N) := by
  have hone : (1 : UInt64).toNat = 1 := rfl
  have hslots : (N - 1).toNat = N.toNat - 1 := Word.toNat_sub_of_le (by omega)
  have hinit : (Threads.init N).pipe.writeEventFd = N.toNat - 1 := by
    simp [Threads.init, sdpCreate, EventFd.write, hslots]
  refine ⟨rfl, rfl, rfl, ?_, rfl, rfl, ?_, ?_⟩
  · rw [hinit]
    simp only [Threads.init, sdpCreate, WriterPc.token, ReaderPc.token]
    omega
  · exact (Nat.zero_mod _).symm
  · exact (Nat.zero_mod _).symm

theorem Inv.count_eq {s : Threads} (h : Inv N s) :
    s.pipe.count.toNat = N.toUInt32.toNat := by
  rw [SensorDataPipe.count, h.bufCount_eq]

/-- Only one buffer is ever published and unread. -/
theorem Inv.published_le {s : Threads} (h : Inv N s) :
    s.published.length ≤ s.reads.length + 1 := by
  have htoken := h.token
  have hbalance := h.balance
  omega

theorem inv_loadWrite {s s' : Threads} (h : Inv N s) (hwriter : s.writer.token = 0)
    (hahead : s.writer.ahead = 0)
    (hidx : s.pipe.writeBufIdx.toNat = s.published.length % N.toUInt32.toNat)
    (hs : s.loadWrite = some s') : Inv N s' := by
  simp only [Threads.loadWrite, Option.map_eq_some_iff] at hs
  obtain ⟨next, hnext, rfl⟩ := hs
  have hcount := h.count_eq
  have hplace := SensorDataPipe.next?_at hnext (hcount ▸ hidx)
  rw [hcount] at hplace
  have htoken := h.token
  have hfull := h.full
  rw [hwriter] at htoken
  rw [hahead] at hfull
  exact ⟨h.bufCount_eq, h.published_eq, h.reads_eq, htoken, h.balance, hfull,
    ⟨hidx, hplace, hidx⟩, h.reader⟩

theorem inv_stepWriter {s s' : Threads} (h : Inv N s) (hs : s.stepWriter = some s') :
    Inv N s' := by
  have htoken := h.token
  have hbalance := h.balance
  have hfull := h.full
  have hat := h.writer
  unfold Threads.stepWriter at hs
  split at hs
  next => cases hs
  next cur hpc =>
    rw [hpc] at htoken hfull hat
    split at hs
    · exact inv_loadWrite h (by rw [hpc]; rfl) (by rw [hpc]; rfl) hat.2 hs
    · cases hs
      exact ⟨h.bufCount_eq, h.published_eq, h.reads_eq, htoken, hbalance, hfull, hat.2, h.reader⟩
  next cur next hpc =>
    rw [hpc] at htoken hfull hat
    simp only [Option.map_eq_some_iff] at hs
    obtain ⟨⟨v, c⟩, hread, rfl⟩ := hs
    obtain ⟨hpos, rfl, rfl⟩ := EventFd.read_eq_some_iff.mp hread
    refine ⟨h.bufCount_eq, h.published_eq, h.reads_eq, ?_, hbalance, hfull, hat, h.reader⟩
    simp only [WriterPc.token] at htoken ⊢
    omega
  next cur next hpc =>
    rw [hpc] at htoken hfull hat
    cases hs
    exact ⟨h.bufCount_eq, h.published_eq, h.reads_eq, htoken, hbalance, hfull,
      ⟨hat.1, hat.2.1, hat.2.1⟩, h.reader⟩
  next cur next hpc =>
    rw [hpc] at htoken hfull hat
    cases hs
    refine ⟨h.bufCount_eq, h.published_eq, h.reads_eq, htoken, hbalance, ?_, hat, h.reader⟩
    simp only [WriterPc.token, WriterPc.ahead] at htoken hfull ⊢
    -- at most one buffer is published and unread, so the counter does not wrap
    rw [UInt32.toNat_add, UInt32.toNat_one, Nat.mod_eq_of_lt (by omega)]
    omega
  next cur next hpc =>
    rw [hpc] at htoken hfull hat
    cases hs
    have hlen : (s.published ++ [cur.toNat]).length = s.published.length + 1 := by simp
    refine ⟨h.bufCount_eq, ?_, h.reads_eq, ?_, ?_, ?_, ?_, h.reader⟩
    · rw [hlen, Ring.places_succ, ← h.published_eq, ← hat.1]
    · simp only [WriterPc.token, EventFd.write] at htoken ⊢
      omega
    · simp only [hlen, EventFd.write]
      omega
    · simp only [hlen, WriterPc.ahead] at hfull ⊢
      omega
    · rw [hlen]
      exact ⟨hat.2.1, hat.2.2⟩
  next next hpc =>
    rw [hpc] at htoken hfull hat
    cases hs
    exact ⟨h.bufCount_eq, h.published_eq, h.reads_eq, htoken, hbalance, hfull, hat.2, h.reader⟩

theorem inv_stepReader {s s' : Threads} (h : Inv N s) (hs : s.stepReader = some s') :
    Inv N s' := by
  have htoken := h.token
  have hbalance := h.balance
  have hfull := h.full
  have hat := h.reader
  unfold Threads.stepReader at hs
  split at hs
  next => cases hs
  next hpc =>
    rw [hpc] at htoken hbalance hfull hat
    simp only [Option.map_eq_some_iff] at hs
    obtain ⟨⟨v, c⟩, hread, rfl⟩ := hs
    obtain ⟨hpos, rfl, rfl⟩ := EventFd.read_eq_some_iff.mp hread
    simp only [ReaderPc.token] at htoken hbalance
    -- the read drains the counter, which held one
    refine ⟨h.bufCount_eq, h.published_eq, h.reads_eq, ?_, ?_, hfull, h.writer, hat⟩
    · simp only [ReaderPc.token]
      omega
    · simp only [ReaderPc.token]
      omega
  next hpc =>
    rw [hpc] at htoken hbalance hfull hat
    cases hs
    exact ⟨h.bufCount_eq, h.published_eq, h.reads_eq, htoken, hbalance, hfull, h.writer,
      ⟨hat, hat⟩⟩
  next cur hpc =>
    rw [hpc] at htoken hbalance hfull hat
    simp only [Option.map_eq_some_iff] at hs
    obtain ⟨next, hnext, rfl⟩ := hs
    have hcount := h.count_eq
    have hplace := SensorDataPipe.next?_at hnext (hcount ▸ hat.1)
    rw [hcount] at hplace
    exact ⟨h.bufCount_eq, h.published_eq, h.reads_eq, htoken, hbalance, hfull, h.writer,
      ⟨hat.1, hplace⟩⟩
  next cur hpc =>
    rw [hpc] at htoken hbalance hfull hat
    cases hs
    refine ⟨h.bufCount_eq, h.published_eq, h.reads_eq, htoken, hbalance, ?_, h.writer, hat⟩
    simp only [ReaderPc.token, ReaderPc.ahead] at htoken hbalance hfull ⊢
    have hone : (1 : UInt32).toNat = 1 := rfl
    rw [UInt32.toNat_sub_of_le _ _ (UInt32.le_iff_toNat_le.mpr (by omega)), hone]
    omega
  next cur hpc =>
    rw [hpc] at htoken hbalance hfull hat
    cases hs
    have hlen : (s.reads ++ [cur.toNat]).length = s.reads.length + 1 := by simp
    refine ⟨h.bufCount_eq, h.published_eq, ?_, ?_, ?_, ?_, h.writer, ?_⟩
    · rw [hlen, Ring.places_succ, ← h.reads_eq, ← hat.1]
    · simp only [ReaderPc.token, EventFd.write] at htoken ⊢
      omega
    · simp only [hlen, ReaderPc.token] at hbalance ⊢
      omega
    · simp only [hlen, ReaderPc.ahead] at hfull ⊢
      omega
    · rw [hlen]
      exact ⟨hat.2, s.reads.length, rfl, hat.1⟩
  next => cases hs

/-- **Every move keeps the invariant.** -/
theorem inv_step (s : Threads) (m : Move) (s' : Threads) (h : Inv N s)
    (hs : s.step m = some s') : Inv N s' := by
  cases m with
  | fill bytes =>
    simp only [Threads.step] at hs
    split at hs
    · cases hs
      exact ⟨h.bufCount_eq, h.published_eq, h.reads_eq, h.token, h.balance, h.full, h.writer,
        h.reader⟩
    · cases hs
  | getWrite =>
    simp only [Threads.step] at hs
    split at hs
    · next hpc =>
      have hat := h.writer
      rw [hpc] at hat
      exact inv_loadWrite h (by rw [hpc]; rfl) (by rw [hpc]; rfl) hat hs
    · cases hs
  | flush =>
    simp only [Threads.step] at hs
    split at hs
    · next hpc =>
      have hat := h.writer
      have htoken := h.token
      have hfull := h.full
      rw [hpc] at hat htoken hfull
      cases hs
      exact ⟨h.bufCount_eq, h.published_eq, h.reads_eq, htoken, h.balance, hfull, ⟨hat, hat⟩,
        h.reader⟩
    · cases hs
  | writer => exact inv_stepWriter h hs
  | getRead =>
    have hat := h.reader
    have htoken := h.token
    have hbalance := h.balance
    have hfull := h.full
    simp only [Threads.step] at hs
    split at hs
    next hpc =>
      cases hs
      rw [hpc] at hat htoken hbalance hfull
      exact ⟨h.bufCount_eq, h.published_eq, h.reads_eq, htoken, hbalance, hfull, h.writer, hat⟩
    next b hpc =>
      cases hs
      rw [hpc] at hat htoken hbalance hfull
      exact ⟨h.bufCount_eq, h.published_eq, h.reads_eq, htoken, hbalance, hfull, h.writer, hat.1⟩
    next => cases hs
  | reader => exact inv_stepReader h hs

theorem inv_reachable (hN : 2 ≤ N.toNat) {s : Threads}
    (hs : Reachable Threads.step (Threads.init N) s) : Inv N s :=
  hs.invariant inv_step (inv_init hN)

end Invariant

/-! ### The queue law -/

def Threads.Quiet (s : Threads) : Prop :=
  s.writer = .idle ∧ (s.reader = .idle ∨ ∃ b, s.reader = .owns b)

/-- What a state reached with `N` buffers obeys. -/
structure FifoLaw (N : ℕ) (s : Threads) : Prop where
  /-- The `j`-th publication is of buffer `j % N`, counting from 0. -/
  published_eq : ∀ j, (hj : j < s.published.length) → s.published[j] = j % N
  reads_eq : ∀ j, (hj : j < s.reads.length) → s.reads[j] = j % N
  reads_le : s.reads.length ≤ s.published.length
  published_le : s.published.length ≤ s.reads.length + (N - 1)
  /-- The subtraction from `FullBuffersCount` never starts at zero. -/
  no_underflow : ∀ cur, s.reader = .stored cur → s.pipe.fullBuffersCount ≠ 0
  full_eq : s.Quiet → s.pipe.fullBuffersCount.toNat = s.published.length - s.reads.length
  none_stranded : s.Quiet → s.pipe.readEventFd = 0 → s.published = s.reads

theorem places_get {n k : ℕ} {l : List ℕ} (h : l = Ring.places n k) (j : ℕ) (hj : j < l.length) :
    l[j] = j % n := by
  subst h
  simp [Ring.places]

/-- **Every state of every interleaving obeys the queue law**, for any number of
    buffers from two up to what 32 bits can index. -/
theorem fifoLaw (N : UInt64) (hlow : 2 ≤ N.toNat) (hhigh : N.toNat < 2 ^ 32) (s : Threads)
    (hs : Reachable Threads.step (Threads.init N) s) : FifoLaw N.toNat s := by
  have h := inv_reachable hlow hs
  have hcount : N.toUInt32.toNat = N.toNat := by
    rw [UInt64.toNat_toUInt32, Nat.mod_eq_of_lt hhigh]
  have htoken := h.token
  have hbalance := h.balance
  have hfull := h.full
  have hpub := h.published_eq
  have hreads := h.reads_eq
  rw [hcount] at hpub hreads
  refine ⟨places_get hpub, places_get hreads, by omega, by omega, ?_, ?_, ?_⟩
  · intro cur hpc hzero
    rw [hpc] at hbalance hfull
    rw [hzero] at hfull
    simp only [ReaderPc.token, ReaderPc.ahead, UInt32.toNat_zero] at hbalance hfull
    omega
  · rintro ⟨hw, hr⟩
    rw [hw] at hfull
    rcases hr with hr | ⟨b, hr⟩
    · rw [hr] at hfull
      simp only [WriterPc.ahead, ReaderPc.ahead] at hfull
      omega
    · rw [hr] at hfull
      simp only [WriterPc.ahead, ReaderPc.ahead] at hfull
      omega
  · rintro ⟨hw, hr⟩ hzero
    have hlen : s.published.length = s.reads.length := by
      rw [hzero] at hbalance
      rcases hr with hr | ⟨b, hr⟩
      · rw [hr] at hbalance
        exact hbalance
      · rw [hr] at hbalance
        exact hbalance
    rw [hpub, hreads, hlen]

/-- Three buffers: two of them published, one read and owned by the reader. -/
def twoPublished : List Move :=
  .fill [7] :: .getWrite :: publishMoves ++
    [.getRead, .reader, .reader, .reader, .reader, .reader] ++ .fill [8] :: .getWrite :: publishMoves

theorem fifoLaw_three :
    2 ≤ (3 : UInt64).toNat ∧ (3 : UInt64).toNat < 2 ^ 32 ∧
      ∃ s, run Threads.step (Threads.init 3) twoPublished = some s ∧ FifoLaw 3 s := by
  have hrun : (run Threads.step (Threads.init 3) twoPublished).isSome := by decide
  obtain ⟨s, hs⟩ := Option.isSome_iff_exists.mp hrun
  exact ⟨by decide, by decide, s, hs, fifoLaw 3 (by decide) (by decide) s ⟨_, hs⟩⟩

end Lmalloc.Pipe
