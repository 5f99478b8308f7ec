/-
  Lmalloc/Library/EventFd.lean
  ============================
  **An event counter in the mode without semaphore semantics.**

  A read returns the whole counter and resets it; at zero it blocks.  A write
  adds.  Tokens are thus not conserved one by one: a read takes all there are.
-/
import Mathlib.Data.Nat.Basic

namespace Lmalloc.Library

namespace EventFd

/-- `read` of the counter `c`: the value returned and the counter left; `none`
    while it blocks. -/
def read (c : ℕ) : Option (ℕ × ℕ) := if c = 0 then none else some (c, 0)

def write (c n : ℕ) : ℕ := c + n

theorem read_eq_some_iff {c v c' : ℕ} : read c = some (v, c') ↔ 0 < c ∧ v = c ∧ c' = 0 := by
  unfold read
  by_cases h : c = 0
  · simp [h]
  · simp [h, Nat.pos_of_ne_zero h, eq_comm]

end EventFd

end Lmalloc.Library
