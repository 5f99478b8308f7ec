/-
  Lmalloc/Pipe/Credits.lean
  =========================
  **How many buffers of the pipe are ever in use.**

  `SdpCreate` puts `BufCount - 1` credits into the writer's event descriptor, one
  for each buffer that may be published and unread.  The writer's read drains the
  descriptor and the value it got is thrown away, so one publication takes all
  credits, and the reader gives back one for each buffer.  With two buffers there
  is one credit to begin with and nothing is lost; with more, the writer blocks as
  soon as one buffer is unread.
-/
import Lmalloc.Pipe.Ownership

namespace Lmalloc.Pipe

open Lmalloc.Library

namespace Threads

/-- No call is in progress. -/
def AtRest (s : Threads) : Prop :=
  s.writer = .idle ∧ (s.reader = .idle ∨ ∃ b, s.reader = .owns b)

/-- The number of buffers published and not yet returned to the reader. -/
def unread (s : Threads) : ℕ := s.published.length - s.reads.length

/-- Between calls, if fewer than `N - 1` buffers are unread, the writer does not block. -/
def UsesAll (N : UInt64) (s : Threads) : Prop :=
  s.AtRest → s.unread < N.toNat - 1 → 0 < s.pipe.writeEventFd

/-! ### A pipe that never moves -/

/-- No call of the writer has got past its division by `(u32)BufCount`, which is 0. -/
structure Stuck (s : Threads) : Prop where
  count_eq : s.pipe.count = 0
  write_pos : 0 < s.pipe.writeEventFd
  read_eq : s.pipe.readEventFd = 0
  writer : s.writer = .idle ∨ ∃ cur, s.writer = .flushing cur
  reader : s.reader = .idle ∨ s.reader = .called

theorem stuck_init {N : UInt64} (hN : 2 ≤ N.toNat) (hcount : N.toUInt32 = 0) :
    Stuck (Threads.init N) := by
  have hone : (1 : UInt64).toNat = 1 := rfl
  have hslots : (N - 1).toNat = N.toNat - 1 := Word.toNat_sub_of_le (by omega)
  refine ⟨hcount, ?_, rfl, Or.inl rfl, Or.inl rfl⟩
  simp only [Threads.init, sdpCreate, EventFd.write, hslots]
  omega

theorem Stuck.loadWrite_eq_none {s : Threads} (h : s.Stuck) : s.loadWrite = none := by
  simp [loadWrite, SensorDataPipe.next?, h.count_eq]

theorem stuck_step (s : Threads) (m : Move) (s' : Threads) (h : s.Stuck)
    (hs : s.step m = some s') : s'.Stuck := by
  have hload := h.loadWrite_eq_none
  obtain ⟨hcount, hwrite, hread, hwriter, hreader⟩ := h
  cases m with
  | fill bytes =>
    simp only [step] at hs
    split at hs
    · cases hs
      exact ⟨hcount, hwrite, hread, hwriter, hreader⟩
    · cases hs
  | getWrite =>
    simp only [step, hload, ite_self] at hs
    cases hs
  | flush =>
    simp only [step] at hs
    split at hs
    · cases hs
      exact ⟨hcount, hwrite, hread, Or.inr ⟨_, rfl⟩, hreader⟩
    · cases hs
  | writer =>
    rcases hwriter with hidle | ⟨cur, hflush⟩
    · simp only [step, stepWriter, hidle] at hs
      cases hs
    · simp only [step, stepWriter, hflush, hload] at hs
      split at hs
      · cases hs
      · cases hs
        exact ⟨hcount, hwrite, hread, Or.inl rfl, hreader⟩
  | getRead =>
    rcases hreader with hidle | hcalled
    · simp only [step, hidle] at hs
      cases hs
      exact ⟨hcount, hwrite, hread, hwriter, Or.inr rfl⟩
    · simp only [step, hcalled] at hs
      cases hs
  | reader =>
    have hblocks : EventFd.read s.pipe.readEventFd = none := by
      rw [hread]
      rfl
    rcases hreader with hidle | hcalled
    · simp only [step, stepReader, hidle] at hs
      cases hs
    · simp only [step, stepReader, hcalled, hblocks] at hs
      cases hs

/-! ### The credits -/

/-- With two buffers there is one credit, and it is the token. -/
theorem usesAll_of_two {N : UInt64} (hN : N.toNat = 2) {s : Threads} (h : Inv N s) :
    s.UsesAll N := by
  rintro ⟨hwriter, hreader⟩ hunread
  have htoken := h.token
  have hbalance := h.balance
  have hrest : s.reader.token = 0 := by
    rcases hreader with hidle | ⟨b, howns⟩
    · rw [hidle]
      rfl
    · rw [howns]
      rfl
  rw [hwriter, hrest] at htoken
  rw [hrest] at hbalance
  simp only [unread] at hunread
  simp only [WriterPc.token] at htoken
  omega

/-- One publication, and the writer's counter is at 0. -/
theorem exists_drained {N : UInt64} (hN : 2 ≤ N.toNat) (hcount : N.toUInt32 ≠ 0) :
    ∃ s, Reachable step (Threads.init N) s ∧ s.AtRest ∧ s.unread = 1 ∧
      s.pipe.writeEventFd = 0 := by
  have hone : (1 : UInt64).toNat = 1 := rfl
  have hslots : (N - 1).toNat = N.toNat - 1 := Word.toNat_sub_of_le (by omega)
  have hslot : 0 < (sdpCreate N).writeEventFd := by
    simp only [sdpCreate, EventFd.write, hslots]
    omega
  obtain ⟨next, p, hget, _, _⟩ := @publish_of_slot (sdpCreate N) hcount hslot
  obtain ⟨_, _, hp⟩ := publish_eq_some_iff.mp hget
  refine ⟨_, ⟨_, run_get hget⟩, ⟨rfl, Or.inl rfl⟩, rfl, ?_⟩
  rw [hp]
  rfl

/-- **The writer never blocks before `N - 1` buffers are unread, in every reachable
    state between calls, exactly when there are two buffers, or `(u32)BufCount` is 0
    and no call of the writer is ever completed.** -/
theorem usesAll_iff (N : UInt64) (hN : 2 ≤ N.toNat) :
    (∀ s, Reachable step (Threads.init N) s → s.UsesAll N) ↔
      N.toNat = 2 ∨ N.toNat % 2 ^ 32 = 0 := by
  have hcount : N.toUInt32.toNat = N.toNat % 2 ^ 32 := UInt64.toNat_toUInt32 N
  constructor
  · intro hall
    by_contra hmore
    have hne : N.toUInt32 ≠ 0 := by
      intro hzero
      rw [hzero, UInt32.toNat_zero] at hcount
      omega
    obtain ⟨s, hs, hrest, hunread, hdrained⟩ := exists_drained hN hne
    have hpos := hall s hs hrest (by omega)
    omega
  · rintro (htwo | hzero) s hs
    · exact usesAll_of_two htwo (inv_reachable hN hs)
    · have hword : N.toUInt32 = 0 := UInt32.toNat_inj.mp (hcount.trans hzero)
      have hstuck := hs.invariant stuck_step (stuck_init hN hword)
      exact fun _ _ => hstuck.write_pos

theorem usesAll_iff_two :
    2 ≤ (2 : UInt64).toNat ∧
      ((∀ s, Reachable step (Threads.init 2) s → s.UsesAll 2) ↔
        (2 : UInt64).toNat = 2 ∨ (2 : UInt64).toNat % 2 ^ 32 = 0) :=
  ⟨by decide, usesAll_iff 2 (by decide)⟩

/-- Three buffers: after the first publication one buffer is unread and a second one
    is free, and the writer's next call blocks. -/
theorem three_buffers_block :
    ¬ ∀ s, Reachable step (Threads.init 3) s → s.UsesAll 3 := by
  intro hall
  have hrun : (run step (Threads.init 3) (.getWrite :: publishMoves)).map
      (fun s => (s.writer, s.reader, s.unread, s.pipe.writeEventFd)) =
        some (.idle, .idle, 1, 0) := by decide
  obtain ⟨s, hs, hstate⟩ := Option.map_eq_some_iff.mp hrun
  simp only [Prod.mk.injEq] at hstate
  obtain ⟨hwriter, hreader, hunread, hdrained⟩ := hstate
  have hpos := hall s ⟨_, hs⟩ ⟨hwriter, Or.inl hreader⟩ (by rw [hunread]; decide)
  omega

end Threads

end Lmalloc.Pipe
