/-
  Lmalloc/Library/Ring.lean
  =========================
  **Positions in a ring of `n` places.**

  A counter that only grows and the index it leaves in a ring: the `k`-th step of
  the counter is at place `k % n`.  An implementation keeps the index and forgets
  the counter; `next_index` says its increment follows the counter, and
  `index_ne` that two counters less than `n` apart are at different places.
-/
import Mathlib

namespace Lmalloc.Library.Ring

/-- The places of the first `k` steps. -/
def places (n k : ℕ) : List ℕ := (List.range k).map (· % n)

@[simp] theorem places_zero (n : ℕ) : places n 0 = [] := rfl

theorem places_succ (n k : ℕ) : places n (k + 1) = places n k ++ [k % n] := by
  simp [places, List.range_succ]

@[simp] theorem length_places (n k : ℕ) : (places n k).length = k := by simp [places]

/-- Counters that are less than `n` apart, and not equal, are at different places. -/
theorem index_ne {n a b : ℕ} (hlt : a < b) (hnear : b < a + n) : a % n ≠ b % n := by
  intro heq
  have hdvd : n ∣ b - a := (Nat.modEq_iff_dvd' (Nat.le_of_lt hlt)).mp heq
  have hle := Nat.le_of_dvd (by omega) hdvd
  omega

/-- In a ring that is not a single place, a step changes the place; `n = 0` is no
    ring at all, and the counters themselves differ. -/
theorem succ_ne {n : ℕ} (hn : n ≠ 1) (k : ℕ) : k % n ≠ (k + 1) % n := by
  rcases Nat.eq_zero_or_pos n with rfl | hpos
  · rw [Nat.mod_zero, Nat.mod_zero]
    omega
  · exact index_ne (Nat.lt_succ_self k) (by omega)

/-- `(i + 1) % n` on 32-bit words, for an index below `n`. -/
theorem next_index {i n : UInt32} {k : ℕ} (hpos : 0 < n.toNat) (hi : i.toNat = k % n.toNat) :
    ((i + 1) % n).toNat = (k + 1) % n.toNat := by
  have hn : n.toNat < 2 ^ 32 := n.toNat_lt
  have hlt : k % n.toNat < n.toNat := Nat.mod_lt k hpos
  rw [UInt32.toNat_mod, UInt32.toNat_add, hi, UInt32.toNat_one]
  rw [Nat.mod_eq_of_lt (show k % n.toNat + 1 < 2 ^ 32 by omega), Nat.add_mod k 1, Nat.mod_add_mod,
    Nat.mod_add_mod, Nat.add_mod_mod]

end Lmalloc.Library.Ring
