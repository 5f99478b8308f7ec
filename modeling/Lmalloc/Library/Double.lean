/-
  Lmalloc/Library/Double.lean
  ===========================
  **Binary floating point, as the rational values it stands for.**

  A correctly rounded operation returns the number of `p` significant bits that
  is nearest to the exact result, the even one of two equally near.  Overflow and
  underflow are left out, so `p` alone fixes the format: `53` is a C `double`
  where the results are zero or lie between `2^-1022` and `2^1023`.

  The main result is that a quotient of naturals below `2^p`, rounded and then
  cut to an integer, is the integer quotient.
-/
import Mathlib

namespace Lmalloc.Library.Double

/-- The integer nearest to `x`, the even one at a midpoint. -/
def roundHalfEven (x : ℚ) : ℤ :=
  if x - ⌊x⌋ < 1 / 2 then ⌊x⌋
  else if 1 / 2 < x - ⌊x⌋ then ⌊x⌋ + 1
  else if ⌊x⌋ % 2 = 0 then ⌊x⌋ else ⌊x⌋ + 1

/-- The distance of neighbouring numbers of `p` bits around `x`. -/
def ulp (p : ℕ) (x : ℚ) : ℚ := 2 ^ (Int.log 2 |x| + 1 - p)

/-- The number of `p` bits nearest to `x`. -/
def round (p : ℕ) (x : ℚ) : ℚ := roundHalfEven (x / ulp p x) * ulp p x

/-! ### Rounding to an integer -/

@[simp] theorem roundHalfEven_intCast (k : ℤ) : roundHalfEven k = k := by
  simp [roundHalfEven]

theorem floor_le_roundHalfEven (x : ℚ) : ⌊x⌋ ≤ roundHalfEven x := by
  unfold roundHalfEven
  split_ifs <;> omega

theorem roundHalfEven_le (x : ℚ) : (roundHalfEven x : ℚ) ≤ x + 1 / 2 := by
  have hfloor : (⌊x⌋ : ℚ) ≤ x := Int.floor_le x
  unfold roundHalfEven
  split_ifs with hbelow habove heven
  · linarith
  · push_cast
    linarith
  · linarith
  · push_cast
    linarith

/-! ### Rounding to `p` bits -/

section

variable {p : ℕ} {x : ℚ}

theorem ulp_pos (p : ℕ) (x : ℚ) : 0 < ulp p x :=
  zpow_pos (by norm_num) _

/-- A multiple of the ulp below `x` stays below the rounded `x`. -/
theorem mul_ulp_le_round {m : ℤ} (h : m * ulp p x ≤ x) : m * ulp p x ≤ round p x := by
  have hm : (m : ℚ) ≤ x / ulp p x := (le_div_iff₀ (ulp_pos p x)).mpr h
  have hround : m ≤ roundHalfEven (x / ulp p x) :=
    (Int.le_floor.mpr hm).trans (floor_le_roundHalfEven _)
  exact mul_le_mul_of_nonneg_right (by exact_mod_cast hround) (ulp_pos p x).le

theorem round_le (p : ℕ) (x : ℚ) : round p x ≤ x + ulp p x / 2 := by
  have hne : ulp p x ≠ 0 := (ulp_pos p x).ne'
  calc round p x
      ≤ (x / ulp p x + 1 / 2) * ulp p x :=
        mul_le_mul_of_nonneg_right (roundHalfEven_le _) (ulp_pos p x).le
    _ = x + ulp p x / 2 := by
        field_simp

theorem round_eq_self {m : ℤ} (h : x = m * ulp p x) : round p x = x := by
  have hm : x / ulp p x = m := by
    rw [div_eq_iff (ulp_pos p x).ne']
    exact h
  unfold round
  rw [hm, roundHalfEven_intCast]
  exact h.symm

@[simp] theorem round_zero (p : ℕ) : round p 0 = 0 := by
  simp [round, roundHalfEven]

/-- Below `2^p` the ulp is one over a power of two, so every integer is a
    multiple of it. -/
theorem exists_mul_ulp (hpos : 0 < x) (hlt : x < 2 ^ p) (k : ℤ) :
    ∃ m : ℤ, (k : ℚ) = m * ulp p x := by
  have hlog : Int.log 2 |x| < p := by
    rw [abs_of_pos hpos]
    apply (Int.lt_zpow_iff_log_lt (by norm_num) hpos).mp
    exact_mod_cast hlt
  obtain ⟨j, hj⟩ : ∃ j : ℕ, Int.log 2 |x| + 1 - p = -(j : ℤ) :=
    ⟨(p - 1 - Int.log 2 |x|).toNat, by omega⟩
  refine ⟨k * 2 ^ j, ?_⟩
  have hne : (2 : ℚ) ^ j ≠ 0 := by positivity
  unfold ulp
  rw [hj, zpow_neg, zpow_natCast]
  push_cast
  field_simp

theorem ulp_le (p : ℕ) (hpos : 0 < x) : ulp p x * 2 ^ p ≤ 2 * x := by
  have hlog : (2 : ℚ) ^ Int.log 2 |x| ≤ x := by
    have h := Int.zpow_log_le_self (b := 2) (by norm_num) hpos
    rw [abs_of_pos hpos]
    exact_mod_cast h
  have hulp : ulp p x * 2 ^ p = 2 ^ Int.log 2 |x| * 2 := by
    unfold ulp
    rw [← zpow_natCast, ← zpow_add₀ (by norm_num), ← zpow_add_one₀ (by norm_num)]
    congr 1
    omega
  rw [hulp]
  linarith

end

/-! ### Naturals below `2^p` -/

/-- They are numbers of `p` bits. -/
theorem round_natCast {p n : ℕ} (h : n < 2 ^ p) : round p n = n := by
  rcases Nat.eq_zero_or_pos n with rfl | hpos
  · simp
  have hx : (0 : ℚ) < n := by exact_mod_cast hpos
  have hlt : (n : ℚ) < 2 ^ p := by exact_mod_cast h
  obtain ⟨m, hm⟩ := exists_mul_ulp hx hlt n
  exact round_eq_self (m := m) (by exact_mod_cast hm)

/-- The next integer is not: it lies midway between two numbers of 53 bits. -/
example : round 53 (2 ^ 53 + 1) = 2 ^ 53 := by decide +kernel

section

variable {p a b : ℕ}

/-- The integer quotient is a multiple of the ulp of the exact one. -/
theorem div_le_round (hpos : 0 < a) (ha : a < 2 ^ p) (hb : 0 < b) :
    ((a / b : ℕ) : ℚ) ≤ round p ((a : ℚ) / b) := by
  have ha' : (0 : ℚ) < a := by exact_mod_cast hpos
  have hsmall : (a : ℚ) < 2 ^ p := by exact_mod_cast ha
  have hone : (1 : ℚ) ≤ b := by exact_mod_cast hb
  have hlt : (a : ℚ) / b < 2 ^ p := (div_le_self ha'.le hone).trans_lt hsmall
  have hquot : ((a / b : ℕ) : ℚ) ≤ (a : ℚ) / b := Nat.cast_div_le
  obtain ⟨m, hm⟩ := exists_mul_ulp (div_pos ha' (by linarith)) hlt (a / b : ℕ)
  rw [Int.cast_natCast] at hm
  rw [hm] at hquot ⊢
  exact mul_ulp_le_round hquot

/-- Half an ulp is less than the `1 / b` by which the exact quotient misses the
    next integer. -/
theorem round_div_lt (hpos : 0 < a) (ha : a < 2 ^ p) (hb : 0 < b) :
    round p ((a : ℚ) / b) < (a / b : ℕ) + 1 := by
  have ha' : (0 : ℚ) < a := by exact_mod_cast hpos
  have hsmall : (a : ℚ) < 2 ^ p := by exact_mod_cast ha
  have hb' : (0 : ℚ) < b := by exact_mod_cast hb
  have htwo : (0 : ℚ) < 2 ^ p := by positivity
  have hnext : (a : ℚ) / b + 1 / b ≤ (a / b : ℕ) + 1 := by
    have hmod : a + 1 ≤ (a / b + 1) * b := by
      have hdiv : a / b * b + a % b = a := Nat.div_add_mod' a b
      have hrem : a % b < b := Nat.mod_lt a hb
      rw [Nat.add_mul]
      omega
    rw [← add_div, div_le_iff₀ hb']
    exact_mod_cast hmod
  have hulp : ulp p ((a : ℚ) / b) < 2 / b := by
    apply lt_of_mul_lt_mul_right _ htwo.le
    calc ulp p ((a : ℚ) / b) * 2 ^ p
        ≤ 2 * ((a : ℚ) / b) := ulp_le p (div_pos ha' hb')
      _ = 2 / b * a := by ring
      _ < 2 / b * 2 ^ p := mul_lt_mul_of_pos_left hsmall (by positivity)
  calc round p ((a : ℚ) / b)
      ≤ (a : ℚ) / b + ulp p ((a : ℚ) / b) / 2 := round_le p _
    _ < (a : ℚ) / b + 1 / b := by
        have hhalf : (2 : ℚ) / b / 2 = 1 / b := by ring
        linarith
    _ ≤ (a / b : ℕ) + 1 := hnext

theorem floor_round_div (ha : a < 2 ^ p) (hb : 0 < b) :
    ⌊round p ((a : ℚ) / b)⌋ = (a / b : ℕ) := by
  rcases Nat.eq_zero_or_pos a with rfl | hpos
  · simp
  rw [Int.floor_eq_iff, Int.cast_natCast]
  exact ⟨div_le_round hpos ha hb, round_div_lt hpos ha hb⟩

end

/-! ### The operations of a C `double` -/

/-- The conversion of an integer. -/
def ofInt (n : ℤ) : ℚ := round 53 n

def mul (x y : ℚ) : ℚ := round 53 (x * y)

def div (x y : ℚ) : ℚ := round 53 (x / y)

/-- The conversion to `uint64_t`, which cuts the fraction off; undefined in C for
    a value outside `[0, 2^64)`. -/
def toU64 (x : ℚ) : UInt64 := UInt64.ofNat ⌊x⌋.toNat

theorem ofInt_natCast {n : ℕ} (h : n < 2 ^ 53) : ofInt n = n := by
  unfold ofInt
  exact_mod_cast round_natCast h

/-- Up to `2^53` the C expression `(u64)((double)a / b)` is the integer quotient. -/
theorem toU64_div {a b : ℕ} (ha : a < 2 ^ 53) (hb : 0 < b) :
    toU64 (div (ofInt a) b) = UInt64.ofNat (a / b) := by
  unfold toU64 div
  rw [ofInt_natCast ha, floor_round_div ha hb]
  rfl

end Lmalloc.Library.Double
