/-
  Lmalloc/Pipe/Ownership.lean
  ===========================
  **When the writer and the reader never share a buffer.**

  `SdPipeGetReadBuffer` gives the credit for a buffer back before it returns, so
  the reader still owns the buffer while the writer may take a new one.  The
  writer then runs at most two places ahead of the buffer owned: with three
  buffers it cannot meet it, with two it can.
-/
import Lmalloc.Pipe.Fifo

namespace Lmalloc.Pipe

open Lmalloc.Library

namespace Threads

/-- The buffer the writer holds: the one it fills, until it has signalled it; then
    the one `ArenaFree` has reset for it. -/
def held (s : Threads) : Option UInt32 :=
  match s.writer with
  | .idle => some s.pipe.writeBufIdx
  | .flushing cur | .loaded cur _ | .gotSlot cur _ | .stored cur _ | .counted cur _ => some cur
  | .signalled _ => none

/-- The buffer the reader owns, from the return of one call to the start of the
    next. -/
def owned (s : Threads) : Option UInt32 :=
  match s.reader with
  | .owns cur => some cur
  | _ => none

def Exclusive (s : Threads) : Prop := ∀ i, s.held = some i → s.owned ≠ some i

end Threads

section

variable {N : UInt64} {s : Threads}

theorem held_at (h : Inv N s) {i : UInt32} (hi : s.held = some i) :
    i.toNat = s.published.length % N.toUInt32.toNat := by
  have hat := h.writer
  unfold Threads.held at hi
  rcases hpc : s.writer with _ | cur | ⟨cur, next⟩ | ⟨cur, next⟩ | ⟨cur, next⟩ | ⟨cur, next⟩ | next
  all_goals
    rw [hpc] at hi hat
    cases hi
  · exact hat
  all_goals exact hat.1

theorem owned_at (h : Inv N s) {i : UInt32} (hi : s.owned = some i) :
    ∃ j, s.reads.length = j + 1 ∧ i.toNat = j % N.toUInt32.toNat := by
  have hat := h.reader
  unfold Threads.owned at hi
  split at hi
  next cur hpc =>
    rw [hpc] at hat
    cases hi
    exact hat.2
  next => cases hi

/-- With three buffers or more the two places differ. -/
theorem exclusive_of_inv (h : Inv N s) (hN : N.toUInt32.toNat = 0 ∨ 3 ≤ N.toUInt32.toNat) :
    s.Exclusive := by
  intro i hheld howned
  obtain ⟨j, hj, hplace⟩ := owned_at h howned
  have hwriter := held_at h hheld
  have hbalance := h.balance
  have hahead := h.published_le
  have heq : j % N.toUInt32.toNat = s.published.length % N.toUInt32.toNat := by
    rw [← hplace, hwriter]
  rcases hN with hzero | hthree
  · -- there is no ring, and the counters themselves differ
    rw [hzero, Nat.mod_zero, Nat.mod_zero] at heq
    omega
  · exact Ring.index_ne (by omega) (by omega) heq

theorem publish_of_slot {p : SensorDataPipe} (hcount : p.count ≠ 0) (hslot : 0 < p.writeEventFd) :
    ∃ next p', sdPipeGetWriteBuffer p = some (next, p') ∧ p'.bufCount = p.bufCount ∧
      p'.readEventFd = p.readEventFd + 1 := by
  have hnext : p.next? p.writeBufIdx = some ((p.writeBufIdx + 1) % p.count) := by
    simp [SensorDataPipe.next?, hcount]
  exact ⟨_, _, publish_eq_some_iff.mpr ⟨hnext, hslot, rfl⟩, rfl, rfl⟩

theorem read_of_token {p : SensorDataPipe} (hcount : p.count ≠ 0) (htoken : 0 < p.readEventFd) :
    ∃ p', sdPipeGetReadBuffer p = some (p.readBufIdx, p') ∧ p'.bufCount = p.bufCount ∧
      p'.writeEventFd = p.writeEventFd + 1 := by
  have hnext : p.next? p.readBufIdx = some ((p.readBufIdx + 1) % p.count) := by
    simp [SensorDataPipe.next?, hcount]
  exact ⟨_, getRead_eq_some_iff.mpr ⟨rfl, htoken, _, hnext, rfl⟩, rfl, rfl⟩

/-- Publish, read, publish: the reader owns the first buffer and two have been
    published. -/
theorem exists_two_ahead (hN : 2 ≤ N.toNat) (hcount : N.toUInt32 ≠ 0) :
    ∃ s, Reachable Threads.step (Threads.init N) s ∧ s.writer = .idle ∧
      (∃ b, s.reader = .owns b) ∧ s.published.length = 2 ∧ s.reads.length = 1 := by
  have hone : (1 : UInt64).toNat = 1 := rfl
  have hslots : (N - 1).toNat = N.toNat - 1 := Word.toNat_sub_of_le (by omega)
  obtain ⟨i₁, p₁, hget₁, hb₁, hr₁⟩ := publish_of_slot (p := sdpCreate N) hcount
    (by simp only [sdpCreate, EventFd.write, hslots]; omega)
  obtain ⟨p₂, hread, hb₂, hw₂⟩ := read_of_token (p := p₁)
    (by rw [SensorDataPipe.count, hb₁]; exact hcount) (by rw [hr₁]; exact Nat.succ_pos _)
  obtain ⟨i₃, p₃, hget₃, _⟩ := publish_of_slot (p := p₂)
    (by rw [SensorDataPipe.count, hb₂, hb₁]; exact hcount) (by rw [hw₂]; exact Nat.succ_pos _)
  have hrun₁ : Reachable Threads.step (Threads.init N) _ := ⟨_, run_get hget₁⟩
  have hrun₂ := hrun₁.trans ⟨_, run_read (Or.inl rfl) hread⟩
  have hrun₃ := hrun₂.trans ⟨_, run_get hget₃⟩
  exact ⟨_, hrun₃, rfl, ⟨_, rfl⟩, rfl, rfl⟩

/-- **In no interleaving does the writer hold the buffer the reader owns, exactly
    when the number of buffers, taken modulo `2^32`, is neither 1 nor 2.** -/
theorem exclusive_iff (N : UInt64) (hN : 2 ≤ N.toNat) :
    (∀ s, Reachable Threads.step (Threads.init N) s → s.Exclusive) ↔
      N.toNat % 2 ^ 32 ≠ 1 ∧ N.toNat % 2 ^ 32 ≠ 2 := by
  have hcount : N.toUInt32.toNat = N.toNat % 2 ^ 32 := UInt64.toNat_toUInt32 N
  rw [← hcount]
  constructor
  · intro hall
    by_contra hfew
    have hn : N.toUInt32.toNat = 1 ∨ N.toUInt32.toNat = 2 := by omega
    have hne : N.toUInt32 ≠ 0 := by
      intro hzero
      rw [hzero, UInt32.toNat_zero] at hn
      omega
    obtain ⟨s, hs, hw, ⟨b, hr⟩, hpub, hreads⟩ := exists_two_ahead hN hne
    have hinv := inv_reachable hN hs
    have hheld : s.held = some s.pipe.writeBufIdx := by simp [Threads.held, hw]
    have howned : s.owned = some b := by simp [Threads.owned, hr]
    obtain ⟨j, hj, hplace⟩ := owned_at hinv howned
    have hwriter := held_at hinv hheld
    -- both places are 0: the second publication is at `2 % n`, the first read at `0 % n`
    have hsame : s.pipe.writeBufIdx = b := by
      apply UInt32.toNat_inj.mp
      rw [hwriter, hplace, hpub]
      have hj0 : j = 0 := by omega
      rcases hn with hn | hn
      · rw [hn, hj0]
      · rw [hn, hj0]
    exact hall s hs _ hheld (hsame ▸ howned)
  · intro hmany s hs
    exact exclusive_of_inv (inv_reachable hN hs) (by omega)

theorem exclusive_iff_three :
    2 ≤ (3 : UInt64).toNat ∧
      ((∀ s, Reachable Threads.step (Threads.init 3) s → s.Exclusive) ↔
        (3 : UInt64).toNat % 2 ^ 32 ≠ 1 ∧ (3 : UInt64).toNat % 2 ^ 32 ≠ 2) :=
  ⟨by decide, exclusive_iff 3 (by decide)⟩

/-- Two buffers: the writer publishes buffer 0, the reader takes it, the writer
    publishes buffer 1 and is given buffer 0, reset. -/
theorem two_buffers_shared :
    ¬ ∀ s, Reachable Threads.step (Threads.init 2) s → s.Exclusive := by
  intro hall
  have hrun : (run Threads.step (Threads.init 2) twoPublished).map
      (fun s => (s.held, s.owned)) = some (some 0, some 0) := by decide
  obtain ⟨s, hs, hboth⟩ := Option.map_eq_some_iff.mp hrun
  simp only [Prod.mk.injEq] at hboth
  exact hall s ⟨_, hs⟩ 0 hboth.1 hboth.2

end

end Lmalloc.Pipe
