/-
  Lmalloc/Library/Word.lean
  =========================
  **Machine words read as numbers.**

  `size_t` is `UInt64` and wraps.  These lemmas say when the wrapping operations
  are the operations of `ℕ`, and what a bounds test of the form `a + b <= c` does
  when the sum does not fit.
-/
import Mathlib

namespace Lmalloc.Library.Word

theorem toNat_add_of_lt {a b : UInt64} (h : a.toNat + b.toNat < 2 ^ 64) :
    (a + b).toNat = a.toNat + b.toNat := by
  rw [UInt64.toNat_add, Nat.mod_eq_of_lt h]

theorem toNat_sub_of_le {a b : UInt64} (h : b.toNat ≤ a.toNat) :
    (a - b).toNat = a.toNat - b.toNat :=
  UInt64.toNat_sub_of_le a b (UInt64.le_iff_toNat_le.mpr h)

/-- The bounds test `a + b <= c` read in `ℕ`. -/
theorem add_le_iff_of_lt {a b c : UInt64} (h : a.toNat + b.toNat < 2 ^ 64) :
    a + b ≤ c ↔ a.toNat + b.toNat ≤ c.toNat := by
  rw [UInt64.le_iff_toNat_le, toNat_add_of_lt h]

/-- A sum that wraps falls below its first term, so with `a <= c` the test
    `a + b <= c` passes for every `b` that makes the sum wrap. -/
theorem add_le_of_wraps {a b c : UInt64} (hac : a ≤ c) (h : 2 ^ 64 ≤ a.toNat + b.toNat) :
    a + b ≤ c := by
  have ha : a.toNat < 2 ^ 64 := a.toNat_lt
  have hb : b.toNat < 2 ^ 64 := b.toNat_lt
  rw [UInt64.le_iff_toNat_le] at hac ⊢
  rw [UInt64.toNat_add]
  omega

theorem toNat_ofNat_of_lt_size {n : ℕ} (h : n < 2 ^ 64) : (UInt64.ofNat n).toNat = n := by
  rw [UInt64.toNat_ofNat']
  exact Nat.mod_eq_of_lt h

theorem toNat_ofNat_of_lt {n : ℕ} (h : n < 2 ^ 63) : (UInt64.ofNat n).toNat = n :=
  toNat_ofNat_of_lt_size (by omega)

/-- The signed test `(ssize_t)a - (ssize_t)b >= 0`, with the difference wrapping,
    looks at the top bit of `a - b`. -/
theorem signed_sub_nonneg_iff_lt {a b : UInt64} :
    (0 : Int64) ≤ a.toInt64 - b.toInt64 ↔ (a - b).toNat < 2 ^ 63 := by
  have hcast : a.toInt64 - b.toInt64 = (a - b).toInt64 := rfl
  have hbits : (a - b).toInt64.toInt = (a - b).toBitVec.toInt := rfl
  have hnat : (a - b).toBitVec.toNat = (a - b).toNat := rfl
  have hzero : (0 : Int64).toInt = 0 := rfl
  have hlt : (a - b).toNat < 2 ^ 64 := (a - b).toNat_lt
  rw [hcast, Int64.le_iff_toInt_le, hbits, hzero, BitVec.toInt_eq_toNat_cond, hnat]
  split <;> omega

theorem toNat_sub_of_lt {a b : UInt64} (h : a.toNat < b.toNat) :
    (a - b).toNat = 2 ^ 64 + a.toNat - b.toNat := by
  have hb : b.toNat < 2 ^ 64 := b.toNat_lt
  rw [UInt64.toNat_sub]
  omega

/-- For operands below `2^63` it compares them. -/
theorem signed_sub_nonneg_iff {a b : UInt64} (ha : a.toNat < 2 ^ 63) (hb : b.toNat < 2 ^ 63) :
    (0 : Int64) ≤ a.toInt64 - b.toInt64 ↔ b.toNat ≤ a.toNat := by
  rw [signed_sub_nonneg_iff_lt]
  rcases Nat.lt_or_ge a.toNat b.toNat with hlt | hge
  · rw [toNat_sub_of_lt hlt]
    omega
  · rw [toNat_sub_of_le hge]
    omega

/-- Cutting a count to 16 bits does not make it larger. -/
theorem toInt_ofNat_le (n : ℕ) : (Int16.ofNat n).toInt ≤ n := by
  have hsize : Int16.size = 65536 := rfl
  rw [Int16.toInt_ofNat', hsize, Int.bmod_def]
  split <;> omega

theorem toUInt64_ofNat_of_lt {n : ℕ} (h : n < 2 ^ 31) :
    (Int32.ofNat n).toInt64.toUInt64 = UInt64.ofNat n := by
  have hn : (Int32.ofNat n).toInt64 = Int64.ofNat n := by
    apply Int64.toInt_inj.mp
    rw [Int32.toInt_toInt64, Int32.toInt_ofNat_of_lt h, Int64.toInt_ofNat_of_lt (by omega)]
  rw [hn]
  rfl

theorem toNat_toUInt64_of_nonneg {a : Int32} (h : 0 ≤ a.toInt) :
    a.toInt64.toUInt64.toNat = a.toInt.toNat := by
  have hlt := a.toInt_lt
  have hcast : (a.toInt64.toUInt64.toNat : ℤ) = a.toInt64.toInt := by
    have hbits : a.toInt64.toInt = a.toInt64.toUInt64.toBitVec.toInt := rfl
    have hnat : a.toInt64.toUInt64.toBitVec.toNat = a.toInt64.toUInt64.toNat := rfl
    rw [Int32.toInt_toInt64] at hbits
    rw [Int32.toInt_toInt64, hbits]
    rw [BitVec.toInt_eq_toNat_cond] at hbits ⊢
    split <;> omega
  rw [Int32.toInt_toInt64] at hcast
  omega

/-- The cast of a `size_t` to `int` keeps what fits. -/
theorem toInt_toInt32_of_lt {a : UInt64} (h : a.toNat < 2 ^ 31) :
    a.toUInt32.toInt32.toInt = (a.toNat : ℤ) := by
  have hcut : a.toUInt32.toNat = a.toNat := by
    rw [UInt64.toNat_toUInt32]
    omega
  have hcast : a.toUInt32.toInt32.toInt = a.toUInt32.toBitVec.toInt := rfl
  have hbits : a.toUInt32.toBitVec.toNat = a.toNat := hcut
  rw [hcast, BitVec.toInt_eq_toNat_of_lt (by omega), hbits]

theorem toNat_add_eq_iff (a b : UInt64) :
    (a + b).toNat = a.toNat + b.toNat ↔ a.toNat + b.toNat < 2 ^ 64 := by
  have hlt := (a + b).toNat_lt
  rw [UInt64.toNat_add] at hlt ⊢
  omega

theorem toNat_add_eq_left_iff (a b : UInt64) : (a + b).toNat = a.toNat ↔ b = 0 := by
  have hb := b.toNat_lt
  have ha := a.toNat_lt
  rw [← UInt64.toNat_inj, UInt64.toNat_add, UInt64.toNat_zero]
  omega

/-! ### Masks -/

/-- Numbers without a common bit are added without a carry. -/
theorem add_eq_lor {a b : ℕ} (h : a &&& b = 0) : a + b = a ||| b := by
  induction a using Nat.strong_induction_on generalizing b with
  | _ a ih =>
    rcases Nat.eq_zero_or_pos a with rfl | hpos
    · simp
    · have hhalf : a / 2 &&& b / 2 = 0 := by
        rw [← Nat.and_div_two, h]
      have hrec : a / 2 + b / 2 = a / 2 ||| b / 2 := ih (a / 2) (by omega) hhalf
      have hdiv : (a ||| b) / 2 = a / 2 ||| b / 2 := Nat.or_div_two
      have hor : (a ||| b) % 2 = 1 ↔ a % 2 = 1 ∨ b % 2 = 1 := Nat.or_mod_two_eq_one
      have hand : (a &&& b) % 2 = 1 ↔ a % 2 = 1 ∧ b % 2 = 1 := Nat.and_mod_two_eq_one
      omega

/-- A mask cuts the second summand out of a sum where it keeps all of it and
    nothing of the first. -/
theorem add_land_eq_right_iff (s m mask : ℕ) :
    (s + m) &&& mask = m ↔ s &&& mask = 0 ∧ m &&& mask = m := by
  constructor
  · intro h
    have hdisjoint : (s + m).ldiff mask &&& m = 0 := by
      apply Nat.eq_of_testBit_eq
      intro i
      rw [← h]
      cases hbit : mask.testBit i <;> simp [hbit, Nat.testBit_ldiff]
    have hjoin : (s + m).ldiff mask ||| m = s + m := by
      apply Nat.eq_of_testBit_eq
      intro i
      nth_rewrite 2 [← h]
      cases hbit : mask.testBit i <;> simp [hbit, Nat.testBit_ldiff]
    have hrest : (s + m).ldiff mask = s := by
      rw [← add_eq_lor hdisjoint] at hjoin
      exact Nat.add_right_cancel hjoin
    constructor
    · rw [← hrest]
      apply Nat.eq_of_testBit_eq
      intro i
      cases hbit : mask.testBit i <;> simp [hbit, Nat.testBit_ldiff]
    · rw [← h, Nat.and_assoc, Nat.and_self]
  · rintro ⟨hs, hm⟩
    have hdisjoint : s &&& m = 0 := by
      rw [← hm, Nat.and_comm m, ← Nat.and_assoc, hs, Nat.zero_and]
    rw [add_eq_lor hdisjoint, Nat.and_or_distrib_right, hs, Nat.zero_or]
    exact hm

/-! ### Signed words -/

theorem toInt_add_of_fits {a b : Int64} (hlo : -2 ^ 63 ≤ a.toInt + b.toInt)
    (hhi : a.toInt + b.toInt < 2 ^ 63) : (a + b).toInt = a.toInt + b.toInt := by
  rw [Int64.toInt_add]
  apply Int.bmod_eq_of_le <;> omega

theorem toInt_toInt64_of_lt {a : UInt64} (h : a.toNat < 2 ^ 63) :
    a.toInt64.toInt = (a.toNat : ℤ) := by
  have hcast : a.toInt64.toInt = a.toBitVec.toInt := rfl
  have hbits : a.toBitVec.toNat = a.toNat := rfl
  rw [hcast, BitVec.toInt_eq_toNat_of_lt (by omega), hbits]

end Lmalloc.Library.Word
