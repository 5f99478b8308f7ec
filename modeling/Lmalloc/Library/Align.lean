/-
  Lmalloc/Library/Align.lean
  ==========================
  **Rounding a size up to a multiple of an alignment.**

  `padding n a` is what has to be added to `n`, written with two remainders as C
  macros write it; `alignUp n a` is the sum, the least multiple of `a` that is not
  below `n`.
-/
import Mathlib.Data.Nat.Basic
import Mathlib.Tactic.Common

namespace Lmalloc.Library

def padding (n a : ℕ) : ℕ := (a - n % a) % a

def alignUp (n a : ℕ) : ℕ := n + padding n a

theorem padding_lt {a : ℕ} (ha : 0 < a) (n : ℕ) : padding n a < a :=
  Nat.mod_lt _ ha

theorem le_alignUp (n a : ℕ) : n ≤ alignUp n a :=
  Nat.le_add_right n (padding n a)

theorem alignUp_lt {a : ℕ} (ha : 0 < a) (n : ℕ) : alignUp n a < n + a :=
  Nat.add_lt_add_left (padding_lt ha n) n

theorem alignUp_of_dvd {n a : ℕ} (h : a ∣ n) : alignUp n a = n := by
  have hmod : n % a = 0 := Nat.mod_eq_zero_of_dvd h
  rw [alignUp, padding, hmod, Nat.sub_zero, Nat.mod_self, Nat.add_zero]

theorem dvd_alignUp {a : ℕ} (ha : 0 < a) (n : ℕ) : a ∣ alignUp n a := by
  have hlt : n % a < a := Nat.mod_lt n ha
  rcases Nat.eq_zero_or_pos (n % a) with hzero | hpos
  · have hdvd : a ∣ n := Nat.dvd_of_mod_eq_zero hzero
    rw [alignUp_of_dvd hdvd]
    exact hdvd
  · have hpad : padding n a = a - n % a := Nat.mod_eq_of_lt (Nat.sub_lt ha hpos)
    have hsum : alignUp n a = a * (n / a) + a := by
      have hdiv : a * (n / a) + n % a = n := Nat.div_add_mod n a
      rw [alignUp, hpad]
      omega
    rw [hsum]
    exact Nat.dvd_add (Nat.dvd_mul_right a (n / a)) (Nat.dvd_refl a)

/-- Nothing between `n` and `alignUp n a` is a multiple. -/
theorem alignUp_le {n a q : ℕ} (ha : 0 < a) (hn : n ≤ q) (hq : a ∣ q) : alignUp n a ≤ q := by
  by_contra hlt
  have hup : alignUp n a < n + a := alignUp_lt ha n
  have hpos : 0 < alignUp n a - q := by omega
  have hdvd : a ∣ alignUp n a - q := Nat.dvd_sub (dvd_alignUp ha n) hq
  have hle : a ≤ alignUp n a - q := Nat.le_of_dvd hpos hdvd
  omega

theorem alignUp_add_of_dvd {k a : ℕ} (h : a ∣ k) (n : ℕ) :
    alignUp (k + n) a = k + alignUp n a := by
  obtain ⟨q, rfl⟩ := h
  rw [alignUp, alignUp, padding, padding, Nat.mul_add_mod, Nat.add_assoc]

end Lmalloc.Library
