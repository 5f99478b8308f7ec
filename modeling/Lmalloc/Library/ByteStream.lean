/-
  Lmalloc/Library/ByteStream.lean
  ===============================
  **A stream socket whose peer has sent its last byte.**

  `recv` returns some of the bytes that are still to come: at least one if there is
  one, at most as many as asked for.  How many is the choice of the network, which
  the stream carries.  A stream without bytes returns none, as a closed
  connection does.

  `recvLoop` is the loop that calls `recv` until a buffer has been filled up to a
  target.  Whatever the network chooses, it takes the same bytes.
-/
import Lmalloc.Library.CMemory

namespace Lmalloc.Library

structure ByteStream where
  pending : List UInt8
  picks : ℕ → ℕ     -- the choices for the calls to come

namespace ByteStream

/-- `recv(fd, buffer, len, 0)`: the bytes returned, and what is left. -/
def recv (s : ByteStream) (len : ℕ) : List UInt8 × ByteStream :=
  let n := min (max 1 (s.picks 0)) (min len s.pending.length)
  (s.pending.take n, { pending := s.pending.drop n, picks := fun i => s.picks (i + 1) })

section Recv

variable {s : ByteStream} {len : ℕ}

theorem recv_append (s : ByteStream) (len : ℕ) :
    (s.recv len).1 ++ (s.recv len).2.pending = s.pending :=
  List.take_append_drop _ _

theorem length_recv_le (s : ByteStream) (len : ℕ) : (s.recv len).1.length ≤ len := by
  simp only [recv, List.length_take]
  exact (Nat.min_le_left _ _).trans ((Nat.min_le_right _ _).trans (Nat.min_le_left _ _))

/-- Only a stream without bytes returns none. -/
theorem length_recv_pos (hlen : 0 < len) (h : s.pending ≠ []) : 0 < (s.recv len).1.length := by
  have hpos := List.length_pos_of_ne_nil h
  simp only [recv, List.length_take]
  omega

/-- What is left after `recv`, as a part of the stream. -/
theorem recv_pending (s : ByteStream) (len : ℕ) :
    (s.recv len).2.pending = s.pending.drop (s.recv len).1.length := by
  have happend := recv_append s len
  conv_rhs => rw [← happend]
  exact List.drop_left.symm

theorem recv_bytes (s : ByteStream) (len : ℕ) :
    (s.recv len).1 = s.pending.take (s.recv len).1.length := by
  have happend := recv_append s len
  conv_rhs => rw [← happend]
  exact List.take_left.symm

/-- A network that keeps nothing back returns all that is asked for. -/
theorem recv_of_pick (hpick : len ≤ s.picks 0) (hlen : len ≤ s.pending.length) :
    s.recv len =
      (s.pending.take len, { pending := s.pending.drop len, picks := fun i => s.picks (i + 1) }) := by
  rcases Nat.eq_zero_or_pos len with rfl | hpos
  · simp [recv]
  · have hn : min (max 1 (s.picks 0)) (min len s.pending.length) = len := by omega
    simp only [recv, hn]

/-- Who asks for at least two bytes and gets them all has not been kept waiting. -/
theorem pick_of_length_recv (hlen : 1 < len) (h : (s.recv len).1.length = len) :
    len ≤ s.picks 0 := by
  simp only [recv, List.length_take] at h
  omega

end Recv

/-! ### The loop -/

/-- Call `recv` until `target` bytes are in the buffer, `total` of which are there
    already.  `false` is a connection that has been closed. -/
def recvLoop (s : ByteStream) (buffer : Memory) (total target : ℕ) :
    Bool × Memory × ByteStream :=
  if total < target then
    let r := s.recv (target - total)
    if 0 < r.1.length then
      recvLoop r.2 (buffer.write total r.1) (total + r.1.length) target
    else (false, buffer, r.2)
  else (true, buffer, s)
termination_by target - total
decreasing_by
  simp only [r] at *
  omega

/-- **With enough bytes to come the loop takes exactly the missing ones.** -/
theorem recvLoop_of_le (s : ByteStream) (buffer : Memory) (total target : ℕ)
    (h : target - total ≤ s.pending.length) :
    ∃ picks, s.recvLoop buffer total target =
      (true, buffer.write total (s.pending.take (target - total)),
        { pending := s.pending.drop (target - total), picks := picks }) := by
  fun_induction recvLoop s buffer total target with
  | case1 s buffer total hlt r hpos ih =>
    have hle : r.1.length ≤ target - total := length_recv_le s (target - total)
    have hrest := recv_pending s (target - total)
    have hlength : (s.recv (target - total)).2.pending.length =
        s.pending.length - r.1.length := by
      rw [hrest, List.length_drop]
    obtain ⟨picks, hloop⟩ := ih (by rw [hlength]; omega)
    refine ⟨picks, hloop.trans ?_⟩
    -- the piece just received and the rest of the loop are one piece
    have hsplit : target - total = r.1.length + (target - (total + r.1.length)) := by omega
    have hpiece : r.1 ++ (s.recv (target - total)).2.pending.take (target - (total + r.1.length)) =
        s.pending.take (target - total) := by
      conv_rhs => rw [hsplit, List.take_add, ← recv_bytes s (target - total)]
      rw [hrest]
    have hdrop : (s.recv (target - total)).2.pending.drop (target - (total + r.1.length)) =
        s.pending.drop (target - total) := by
      rw [hrest, List.drop_drop, ← hsplit]
    rw [← Memory.write_append, hpiece, hdrop]
  | case2 s buffer total hlt r hpos =>
    refine absurd (length_recv_pos (by omega) ?_) hpos
    intro hnil
    rw [hnil, List.length_nil] at h
    omega
  | case3 s buffer total hlt =>
    have hzero : target - total = 0 := by omega
    refine ⟨s.picks, ?_⟩
    rw [hzero, List.take_zero, List.drop_zero, Memory.write_nil]

/-- **With fewer it takes them all** and ends in a closed connection. -/
theorem recvLoop_eq_of_lt (s : ByteStream) (buffer : Memory) (total target : ℕ)
    (h : s.pending.length < target - total) :
    ∃ picks, s.recvLoop buffer total target =
      (false, buffer.write total s.pending, { pending := [], picks := picks }) := by
  fun_induction recvLoop s buffer total target with
  | case1 s buffer total hlt r hpos ih =>
    have happend := recv_append s (target - total)
    have hlength := congrArg List.length happend
    rw [List.length_append] at hlength
    change r.1.length + r.2.pending.length = s.pending.length at hlength
    obtain ⟨picks, hloop⟩ := ih (by omega)
    refine ⟨picks, hloop.trans ?_⟩
    rw [← Memory.write_append, happend]
  | case2 s buffer total hlt r hpos =>
    have hnil : s.pending = [] := by
      by_contra hne
      exact hpos (length_recv_pos (by omega) hne)
    refine ⟨r.2.picks, ?_⟩
    have hrest : r.2.pending = [] := by
      apply List.drop_eq_nil_of_le
      rw [hnil]
      exact Nat.zero_le _
    rw [hnil, Memory.write_nil, ← hrest]
  | case3 s buffer total hlt => omega

theorem recvLoop_of_lt (s : ByteStream) (buffer : Memory) (total target : ℕ)
    (h : s.pending.length < target - total) : (s.recvLoop buffer total target).1 = false := by
  obtain ⟨picks, hloop⟩ := recvLoop_eq_of_lt s buffer total target h
  rw [hloop]

/-- A loop that reaches its target has taken the missing bytes. -/
theorem recvLoop_eq_true {s s' : ByteStream} {buffer buffer' : Memory} {total target : ℕ}
    (h : s.recvLoop buffer total target = (true, buffer', s')) :
    target - total ≤ s.pending.length ∧
      buffer' = buffer.write total (s.pending.take (target - total)) ∧
      s'.pending = s.pending.drop (target - total) := by
  rcases Nat.lt_or_ge s.pending.length (target - total) with hlt | hle
  · have hfalse := recvLoop_of_lt s buffer total target hlt
    rw [h] at hfalse
    cases hfalse
  · obtain ⟨picks, hloop⟩ := recvLoop_of_le s buffer total target hle
    rw [h] at hloop
    cases hloop
    exact ⟨hle, rfl, rfl⟩

end ByteStream

end Lmalloc.Library
