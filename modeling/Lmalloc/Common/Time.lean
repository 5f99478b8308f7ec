/-
  Lmalloc/Common/Time.lean
  ========================
  **Time differences, split into seconds and the rest.**

  A difference is a count of nanoseconds in 64 bits.  The macros divide it as a
  `double`; `SdbTimespec` and `SdbTimeAdd` take the rest with `%`, `SdbTimeval`
  with `&`, so the `timeval` that `select` waits for is right only where the mask
  happens to do what the remainder does.
-/
import Lmalloc.Library.Double
import Lmalloc.Library.Word

namespace Lmalloc.Common.Time

open Lmalloc.Library
open Lmalloc.Library.Double (ofInt toU64)

/-! ### The macros

Their argument is a `double` already: the cast of a `u64` is written at the call. -/

/-- `SDB_TIME_BASE_NS_`. -/
def sdbTimeBaseNs : ℤ := 1

def sdbTimeToS (ns : ℚ) : UInt64 :=
  toU64 (Double.div ns (Double.mul 1000000000 (ofInt sdbTimeBaseNs)))

def sdbTimeToUs (ns : ℚ) : UInt64 :=
  toU64 (Double.div ns (Double.mul 1000 (ofInt sdbTimeBaseNs)))

/-- The divisor is the `int` product `1 * SDB_TIME_BASE_NS_`. -/
def sdbTimeToNs (ns : ℚ) : UInt64 := toU64 (Double.div ns (ofInt (1 * sdbTimeBaseNs)))

/-! ### `Time.c` -/

/-- `sdb_timediff`. -/
abbrev TimeDiff := UInt64

/-- `(double)Delta`. -/
def toDouble (delta : TimeDiff) : ℚ := ofInt delta.toNat

/-- `struct timespec`. -/
structure Timespec where
  tvSec : Int64
  tvNsec : Int64
  deriving DecidableEq

/-- `struct timeval`. -/
structure Timeval where
  tvSec : Int64
  tvUsec : Int64
  deriving DecidableEq

/-- A signed addition, which C leaves undefined where the sum does not fit. -/
def addTime (a b : Int64) : Option Int64 :=
  if -2 ^ 63 ≤ a.toInt + b.toInt ∧ a.toInt + b.toInt < 2 ^ 63 then some (a + b) else none

def sdbTimeAdd (timespec : Timespec) (delta : TimeDiff) : Option Timespec := do
  let sec ← addTime timespec.tvSec (sdbTimeToS (toDouble delta)).toInt64
  let nsec ← addTime timespec.tvNsec (sdbTimeToNs (toDouble delta) % 1000000000).toInt64
  if 1000000000 ≤ ofInt nsec.toInt then
    let sec ← addTime sec 1
    return ⟨sec, nsec % 1000000000⟩
  else
    return ⟨sec, nsec⟩

def sdbTimespec (delta : TimeDiff) : Timespec :=
  ⟨(sdbTimeToS (toDouble delta)).toInt64,
    (sdbTimeToNs (toDouble delta) % 1000000000).toInt64⟩

def sdbTimeval (delta : TimeDiff) : Timeval :=
  ⟨(sdbTimeToS (toDouble delta)).toInt64,
    (sdbTimeToUs (toDouble delta) &&& 1000000).toInt64⟩

/-! ### `SocketRecvWithTimeout` -/

/-- What the socket does from the call on. -/
inductive Readiness where
  | fails
  | never
  | after (micros : ℕ)

/-- The microseconds a `timeval` stands for. -/
def Timeval.micros (t : Timeval) : ℤ := t.tvSec.toInt * 10 ^ 6 + t.tvUsec.toInt

/-- `select` on the one socket: it waits no longer than the `timeval` says. -/
def select (timeout : Timeval) : Readiness → ℤ
  | .fails => -1
  | .never => 0
  | .after micros => if (micros : ℤ) ≤ timeout.micros then 1 else 0

/-- `recvResult` is the answer of `recv`, at least -1. -/
def socketRecvWithTimeout (socket : Readiness) (recvResult : ℤ) (timeoutDiff : TimeDiff) : ℤ :=
  let selectResult := select (sdbTimeval timeoutDiff) socket
  if selectResult = -1 then -1
  else if selectResult = 0 then -2
  else recvResult

/-! ### What the conversions are for -/

def Timespec.Normalised (t : Timespec) : Prop := 0 ≤ t.tvNsec.toInt ∧ t.tvNsec.toInt < 10 ^ 9

instance (t : Timespec) : Decidable t.Normalised := inferInstanceAs (Decidable (_ ∧ _))

/-- The nanoseconds a `timespec` stands for. -/
def Timespec.nanos (t : Timespec) : ℤ := t.tvSec.toInt * 10 ^ 9 + t.tvNsec.toInt

def Timeval.Normalised (t : Timeval) : Prop := 0 ≤ t.tvUsec.toInt ∧ t.tvUsec.toInt < 10 ^ 6

/-- The three conversions of a difference, with `t` for the time it is added to. -/
structure Exact (delta : TimeDiff) (t : Timespec) : Prop where
  timespec : (sdbTimespec delta).Normalised ∧ (sdbTimespec delta).nanos = delta.toNat
  timeval : (sdbTimeval delta).Normalised ∧ (sdbTimeval delta).micros = (delta.toNat / 1000 : ℕ)
  timeAdd : ∃ t', sdbTimeAdd t delta = some t' ∧ t'.Normalised ∧
    t'.nanos = t.nanos + delta.toNat
  /-- A receive times out where the data takes longer than the time asked for. -/
  waits : ∀ micros recvResult, -1 ≤ recvResult →
    (socketRecvWithTimeout (.after micros) recvResult delta = -2 ↔ delta.toNat / 1000 < micros)

/-- The mask of `SdbTimeval` is a remainder where it keeps every bit of the
    microseconds past the last second, and none of the whole seconds. -/
def MaskDivides (delta : TimeDiff) : Prop :=
  let micros := delta.toNat / 1000
  (micros / 10 ^ 6 * 10 ^ 6) &&& 10 ^ 6 = 0 ∧ (micros % 10 ^ 6) &&& 10 ^ 6 = micros % 10 ^ 6

instance (delta : TimeDiff) : Decidable (MaskDivides delta) := inferInstanceAs (Decidable (_ ∧ _))

/-- The sum has a `time_t`. -/
def Fits (t : Timespec) (delta : TimeDiff) : Prop :=
  t.tvSec.toInt + (t.tvNsec.toInt + delta.toNat) / 10 ^ 9 < 2 ^ 63

/-! ### The quotients -/

section

variable {delta : TimeDiff} (h : delta.toNat < 2 ^ 53)

private theorem ofInt_base : ofInt sdbTimeBaseNs = 1 := by
  have hone := Double.ofInt_natCast (n := 1) (by norm_num)
  exact_mod_cast hone

include h

/-- The quotient of the macros, for a unit of `n` nanoseconds. -/
private theorem toU64_div_unit {n : ℕ} (hpos : 0 < n) (hn : n < 2 ^ 53) :
    toU64 (Double.div (toDouble delta) (Double.mul n (ofInt sdbTimeBaseNs)))
      = UInt64.ofNat (delta.toNat / n) := by
  have hunit : Double.mul (n : ℚ) (ofInt sdbTimeBaseNs) = n := by
    rw [ofInt_base]
    unfold Double.mul
    rw [mul_one]
    exact Double.round_natCast hn
  rw [hunit]
  exact Double.toU64_div h hpos

theorem sdbTimeToS_eq : sdbTimeToS (toDouble delta) = UInt64.ofNat (delta.toNat / 10 ^ 9) := by
  have hunit := toU64_div_unit h (n := 10 ^ 9) (by norm_num) (by norm_num)
  norm_num at hunit ⊢
  exact hunit

theorem sdbTimeToUs_eq : sdbTimeToUs (toDouble delta) = UInt64.ofNat (delta.toNat / 1000) := by
  have hunit := toU64_div_unit h (n := 1000) (by norm_num) (by norm_num)
  exact_mod_cast hunit

theorem sdbTimeToNs_eq : sdbTimeToNs (toDouble delta) = delta := by
  have hdiv := Double.toU64_div (b := 1) h (by norm_num)
  rw [Nat.cast_one, Nat.div_one, UInt64.ofNat_toNat] at hdiv
  unfold sdbTimeToNs toDouble
  rw [one_mul, ofInt_base]
  exact hdiv

end

/-! ### The parts -/

section

variable {delta : TimeDiff} (h : delta.toNat < 2 ^ 53)

include h

theorem toInt_sdbTimeToS :
    (sdbTimeToS (toDouble delta)).toInt64.toInt = (delta.toNat / 10 ^ 9 : ℕ) := by
  have hvalue : (sdbTimeToS (toDouble delta)).toNat = delta.toNat / 10 ^ 9 := by
    rw [sdbTimeToS_eq h]
    exact Word.toNat_ofNat_of_lt (by omega)
  rw [Word.toInt_toInt64_of_lt (by omega), hvalue]

/-- The nanoseconds past the last second. -/
theorem toInt_sdbTimeToNs_mod :
    (sdbTimeToNs (toDouble delta) % 1000000000).toInt64.toInt = (delta.toNat % 10 ^ 9 : ℕ) := by
  have hvalue : (sdbTimeToNs (toDouble delta) % 1000000000).toNat = delta.toNat % 10 ^ 9 := by
    rw [sdbTimeToNs_eq h]
    exact UInt64.toNat_mod delta 1000000000
  rw [Word.toInt_toInt64_of_lt (by omega), hvalue]

/-- What `SdbTimeval` keeps of the microseconds. -/
theorem toInt_sdbTimeToUs_land :
    (sdbTimeToUs (toDouble delta) &&& 1000000).toInt64.toInt
      = ((delta.toNat / 1000) &&& 10 ^ 6 : ℕ) := by
  have hmicros : (UInt64.ofNat (delta.toNat / 1000)).toNat = delta.toNat / 1000 :=
    Word.toNat_ofNat_of_lt (by omega)
  have hvalue :
      (sdbTimeToUs (toDouble delta) &&& 1000000).toNat = delta.toNat / 1000 &&& 10 ^ 6 := by
    rw [sdbTimeToUs_eq h, UInt64.toNat_and, hmicros]
    rfl
  have hle : delta.toNat / 1000 &&& 10 ^ 6 ≤ 10 ^ 6 := Nat.and_le_right
  rw [Word.toInt_toInt64_of_lt (by omega), hvalue]

/-! ### `SdbTimespec` -/

theorem sdbTimespec_exact :
    (sdbTimespec delta).Normalised ∧ (sdbTimespec delta).nanos = delta.toNat := by
  have hsec := toInt_sdbTimeToS h
  have hnsec := toInt_sdbTimeToNs_mod h
  unfold Timespec.Normalised Timespec.nanos sdbTimespec
  rw [hsec, hnsec]
  omega

/-! ### `SdbTimeval` -/

theorem sdbTimeval_parts :
    (sdbTimeval delta).tvSec.toInt = (delta.toNat / 10 ^ 9 : ℕ) ∧
      (sdbTimeval delta).tvUsec.toInt = ((delta.toNat / 1000) &&& 10 ^ 6 : ℕ) :=
  ⟨toInt_sdbTimeToS h, toInt_sdbTimeToUs_land h⟩

/-- The `timeval` is the difference where the mask takes the remainder. -/
theorem sdbTimeval_micros_iff :
    (sdbTimeval delta).micros = (delta.toNat / 1000 : ℕ) ↔ MaskDivides delta := by
  obtain ⟨hsec, husec⟩ := sdbTimeval_parts h
  have hsplit : delta.toNat / 1000 / 10 ^ 6 * 10 ^ 6 + delta.toNat / 1000 % 10 ^ 6
      = delta.toNat / 1000 := Nat.div_add_mod' _ _
  have hmask := Word.add_land_eq_right_iff (delta.toNat / 1000 / 10 ^ 6 * 10 ^ 6)
    (delta.toNat / 1000 % 10 ^ 6) (10 ^ 6)
  have hquot : delta.toNat / 1000 / 10 ^ 6 = delta.toNat / 10 ^ 9 := Nat.div_div_eq_div_mul _ _ _
  rw [hsplit] at hmask
  unfold MaskDivides Timeval.micros
  rw [hsec, husec, ← hmask]
  omega

theorem sdbTimeval_normalised (hmask : MaskDivides delta) : (sdbTimeval delta).Normalised := by
  obtain ⟨hsec, husec⟩ := sdbTimeval_parts h
  have hmicros := (sdbTimeval_micros_iff h).mpr hmask
  have hquot : delta.toNat / 1000 / 10 ^ 6 = delta.toNat / 10 ^ 9 := Nat.div_div_eq_div_mul _ _ _
  unfold Timeval.micros at hmicros
  unfold Timeval.Normalised
  rw [hsec, husec] at hmicros
  rw [husec]
  omega

end

/-- A receive times out where the data takes longer than its `timeval`. -/
theorem socketRecvWithTimeout_iff {delta : TimeDiff} {micros : ℕ} {recvResult : ℤ}
    (h : -1 ≤ recvResult) :
    socketRecvWithTimeout (.after micros) recvResult delta = -2 ↔
      (sdbTimeval delta).micros < micros := by
  unfold socketRecvWithTimeout select
  by_cases hready : (micros : ℤ) ≤ (sdbTimeval delta).micros
  · simp only [hready, if_true]
    norm_num
    omega
  · simp only [hready, if_false]
    norm_num
    omega

/-! ### `SdbTimeAdd` -/

theorem addTime_of_fits {a b : Int64} (hlo : -2 ^ 63 ≤ a.toInt + b.toInt)
    (hhi : a.toInt + b.toInt < 2 ^ 63) :
    ∃ c, addTime a b = some c ∧ c.toInt = a.toInt + b.toInt :=
  ⟨a + b, if_pos ⟨hlo, hhi⟩, Word.toInt_add_of_fits hlo hhi⟩

/-- The test of `tv_nsec` as a `double`. -/
theorem ofInt_eq {n : ℤ} (hpos : 0 ≤ n) (hlt : n < 2 ^ 53) : ofInt n = n := by
  obtain ⟨k, rfl⟩ := Int.eq_ofNat_of_zero_le hpos
  have hk : k < 2 ^ 53 := by exact_mod_cast hlt
  exact_mod_cast Double.ofInt_natCast hk

/-- The two additions, before the carry. -/
theorem exists_sums {delta : TimeDiff} (h : delta.toNat < 2 ^ 53) {t : Timespec}
    (ht : t.Normalised) (hfits : Fits t delta) :
    ∃ sec nsec, addTime t.tvSec (sdbTimeToS (toDouble delta)).toInt64 = some sec ∧
      addTime t.tvNsec (sdbTimeToNs (toDouble delta) % 1000000000).toInt64 = some nsec ∧
      sec.toInt = t.tvSec.toInt + (delta.toNat / 10 ^ 9 : ℕ) ∧
      nsec.toInt = t.tvNsec.toInt + (delta.toNat % 10 ^ 9 : ℕ) := by
  obtain ⟨hnonneg, hsmall⟩ := ht
  have hlo := t.tvSec.le_toInt
  have hS := toInt_sdbTimeToS h
  have hN := toInt_sdbTimeToNs_mod h
  unfold Fits at hfits
  obtain ⟨sec, hsec, hsecVal⟩ :=
    addTime_of_fits (a := t.tvSec) (b := (sdbTimeToS (toDouble delta)).toInt64)
      (by rw [hS]; omega) (by rw [hS]; omega)
  obtain ⟨nsec, hnsec, hnsecVal⟩ :=
    addTime_of_fits (a := t.tvNsec) (b := (sdbTimeToNs (toDouble delta) % 1000000000).toInt64)
      (by rw [hN]; omega) (by rw [hN]; omega)
  rw [hS] at hsecVal
  rw [hN] at hnsecVal
  exact ⟨sec, nsec, hsec, hnsec, hsecVal, hnsecVal⟩

/-- The nanoseconds of the two summands come to less than two seconds, so one
    second is carried at most. -/
theorem sdbTimeAdd_exact {delta : TimeDiff} (h : delta.toNat < 2 ^ 53) {t : Timespec}
    (ht : t.Normalised) (hfits : Fits t delta) :
    ∃ t', sdbTimeAdd t delta = some t' ∧ t'.Normalised ∧ t'.nanos = t.nanos + delta.toNat := by
  obtain ⟨sec, nsec, hsec, hnsec, hsecVal, hnsecVal⟩ := exists_sums h ht hfits
  obtain ⟨hnonneg, hsmall⟩ := ht
  have hlo := t.tvSec.le_toInt
  have hdouble : ofInt nsec.toInt = nsec.toInt := ofInt_eq (by omega) (by omega)
  unfold Fits at hfits
  rcases lt_or_ge nsec.toInt (10 ^ 9) with hless | hcarry
  · have htest : ¬ (1000000000 : ℚ) ≤ ofInt nsec.toInt := by
      rw [hdouble, not_le]
      exact_mod_cast hless
    refine ⟨⟨sec, nsec⟩, ?_, ?_, ?_⟩
    · simp [sdbTimeAdd, hsec, hnsec, htest]
    · refine ⟨?_, hless⟩
      show 0 ≤ nsec.toInt
      omega
    · show sec.toInt * 10 ^ 9 + nsec.toInt
        = t.tvSec.toInt * 10 ^ 9 + t.tvNsec.toInt + delta.toNat
      omega
  · have htest : (1000000000 : ℚ) ≤ ofInt nsec.toInt := by
      rw [hdouble]
      exact_mod_cast hcarry
    obtain ⟨sec', hsec', hsecVal'⟩ := addTime_of_fits (a := sec) (b := 1)
      (by rw [Int64.toInt_one]; omega) (by rw [Int64.toInt_one]; omega)
    rw [Int64.toInt_one] at hsecVal'
    have hrest : (nsec % 1000000000).toInt = nsec.toInt - 10 ^ 9 := by
      have hdiv : (1000000000 : Int64).toInt = 10 ^ 9 := rfl
      rw [Int64.toInt_mod, hdiv, Int.tmod_eq_emod_of_nonneg (by omega)]
      omega
    refine ⟨⟨sec', nsec % 1000000000⟩, ?_, ?_, ?_⟩
    · simp [sdbTimeAdd, hsec, hnsec, htest, hsec']
    · unfold Timespec.Normalised
      rw [hrest]
      omega
    · show sec'.toInt * 10 ^ 9 + (nsec % 1000000000).toInt
        = t.tvSec.toInt * 10 ^ 9 + t.tvNsec.toInt + delta.toNat
      rw [hrest]
      omega

/-- A normalised sum fixes its seconds, and these fit in a `time_t`. -/
theorem fits_of_nanos {delta : TimeDiff} {t t' : Timespec} (ht' : t'.Normalised)
    (hvalue : t'.nanos = t.nanos + delta.toNat) : Fits t delta := by
  obtain ⟨hnonneg, hsmall⟩ := ht'
  have hhi := t'.tvSec.toInt_lt
  unfold Timespec.nanos at hvalue
  unfold Fits
  omega

/-! ### The three together -/

/-- The conversions of a difference below `2^53` are exact where the mask divides,
    and where the sum has a `time_t`. -/
theorem exact_iff_maskDivides {delta : TimeDiff} (h : delta.toNat < 2 ^ 53) {t : Timespec}
    (ht : t.Normalised) : Exact delta t ↔ MaskDivides delta ∧ Fits t delta := by
  constructor
  · rintro ⟨-, ⟨-, hmicros⟩, ⟨t', -, hnorm, hvalue⟩, -⟩
    exact ⟨(sdbTimeval_micros_iff h).mp hmicros, fits_of_nanos hnorm hvalue⟩
  · rintro ⟨hmask, hfits⟩
    have hmicros := (sdbTimeval_micros_iff h).mpr hmask
    refine ⟨sdbTimespec_exact h, ⟨sdbTimeval_normalised h hmask, hmicros⟩,
      sdbTimeAdd_exact h ht hfits, ?_⟩
    intro micros recvResult hrecv
    rw [socketRecvWithTimeout_iff hrecv, hmicros]
    exact Int.ofNat_lt

/-- 64 microseconds are one bit of the mask. -/
theorem exact_iff_maskDivides_64 :
    Exact 64000 ⟨5, 0⟩ ↔ MaskDivides 64000 ∧ Fits ⟨5, 0⟩ 64000 :=
  exact_iff_maskDivides (by decide) (by decide)

example : MaskDivides 64000 := by decide

/-- Half a second comes out as 458752 microseconds. -/
theorem halfSecond_not_exact :
    ¬ ∀ (delta : TimeDiff) (t : Timespec), delta.toNat < 2 ^ 53 → t.Normalised → Exact delta t := by
  intro hall
  have hexact := hall 500000000 ⟨0, 0⟩ (by decide) (by decide)
  have hmask := (sdbTimeval_micros_iff (by decide)).mp hexact.timeval.2
  exact absurd hmask (by decide)

end Lmalloc.Common.Time
